/-!
# UTF-8

Reading bytes as text. A text is well formed when every character is written in its shortest form and
none is a surrogate; the first place where that fails is reported with its reason.

* `decode`: the text of well-formed bytes, or the first fault.
* `Fault.message`: the fault in words.
-/

namespace GrammarBench.Text.Utf8

inductive Reason where
  /-- A byte that starts no character. -/
  | startByte
  /-- A byte that does not continue the character begun before it. -/
  | continuationByte
  /-- The bytes end inside a character. -/
  | endOfData
  deriving DecidableEq, Repr

def Reason.message : Reason → String
  | .startByte => "invalid start byte"
  | .continuationByte => "invalid continuation byte"
  | .endOfData => "unexpected end of data"

/-- Where the bytes stop being well formed: the offset, the byte there, how many bytes belong to the
fault, and why. -/
structure Fault where
  offset : Nat
  byte : UInt8
  length : Nat
  reason : Reason
  deriving DecidableEq, Repr

def hexByte (b : UInt8) : String :=
  String.ofList [Nat.digitChar (b.toNat / 16), Nat.digitChar (b.toNat % 16)]

def Fault.message (f : Fault) : String :=
  let place :=
    if f.length = 1 then "byte 0x" ++ hexByte f.byte ++ " in position " ++ toString f.offset
    else "bytes in position " ++ toString f.offset ++ "-" ++ toString (f.offset + f.length - 1)
  "'utf-8' codec can't decode " ++ place ++ ": " ++ f.reason.message

/-- A byte of the form `10xxxxxx`. -/
def isContinuation (b : UInt8) : Bool := 0x80 ≤ b && b < 0xC0

/-- The second byte of a character keeps it in its shortest form, out of the surrogates and below the
last code point. -/
def secondFits (b0 b1 : UInt8) : Bool :=
  isContinuation b1 &&
    !(b0 = 0xE0 && b1 < 0xA0) && !(b0 = 0xED && 0xA0 ≤ b1) &&
    !(b0 = 0xF0 && b1 < 0x90) && !(b0 = 0xF4 && 0x90 ≤ b1)

/-- How many bytes the character takes that a byte begins, `none` when it begins none. -/
def sizeOfStart (b : UInt8) : Option Nat :=
  if b < 0x80 then some 1
  else if b < 0xC2 then none
  else if b < 0xE0 then some 2
  else if b < 0xF0 then some 3
  else if b < 0xF5 then some 4
  else none

/-- The low six bits. -/
def payload (b : UInt8) : Nat := b.toNat % 64

/-- What stands at the front of some bytes: nothing, a character of some size, or a fault. -/
inductive Front where
  | done
  | char (c : Char) (size : Nat)
  | bad (byte : UInt8) (length : Nat) (reason : Reason)
  deriving DecidableEq, Repr

/-- The first character of some bytes. -/
def front : List UInt8 → Front
  | [] => .done
  | b0 :: rest =>
    match sizeOfStart b0, rest with
    | none, _ => .bad b0 1 .startByte
    | some 1, _ => .char (Char.ofNat b0.toNat) 1
    | some 2, [] => .bad b0 1 .endOfData
    | some 2, b1 :: _ =>
      if isContinuation b1 then .char (Char.ofNat (b0.toNat % 32 * 64 + payload b1)) 2
      else .bad b0 1 .continuationByte
    | some 3, [] => .bad b0 1 .endOfData
    | some 3, [b1] => if secondFits b0 b1 then .bad b0 2 .endOfData else .bad b0 1 .continuationByte
    | some 3, b1 :: b2 :: _ =>
      if !secondFits b0 b1 then .bad b0 1 .continuationByte
      else if !isContinuation b2 then .bad b0 2 .continuationByte
      else .char (Char.ofNat (b0.toNat % 16 * 4096 + payload b1 * 64 + payload b2)) 3
    | some _, [] => .bad b0 1 .endOfData
    | some _, [b1] => if secondFits b0 b1 then .bad b0 2 .endOfData else .bad b0 1 .continuationByte
    | some _, [b1, b2] =>
      if !secondFits b0 b1 then .bad b0 1 .continuationByte
      else if !isContinuation b2 then .bad b0 2 .continuationByte
      else .bad b0 3 .endOfData
    | some _, b1 :: b2 :: b3 :: _ =>
      if !secondFits b0 b1 then .bad b0 1 .continuationByte
      else if !isContinuation b2 then .bad b0 2 .continuationByte
      else if !isContinuation b3 then .bad b0 3 .continuationByte
      else
        .char (Char.ofNat
          (b0.toNat % 8 * 262144 + payload b1 * 4096 + payload b2 * 64 + payload b3)) 4

/-- The text of the bytes from an offset on; each round takes at least one byte, so that the number
of bytes bounds the rounds. -/
def decodeFrom : Nat → Nat → List UInt8 → Except Fault (List Char)
  | 0, _, _ => .ok []
  | rounds + 1, offset, bytes =>
    match front bytes with
    | .done => .ok []
    | .char c size => (decodeFrom rounds (offset + size) (bytes.drop size)).map (c :: ·)
    | .bad byte length reason => .error ⟨offset, byte, length, reason⟩

/-- The text of well-formed bytes, or the first fault. -/
def decode (bytes : List UInt8) : Except Fault (List Char) :=
  decodeFrom (bytes.length + 1) 0 bytes

/-- Bytes that are the UTF-8 form of a text. -/
def wellFormed (bytes : List UInt8) : Bool := (decode bytes).isOk

end GrammarBench.Text.Utf8
