import GrammarBench.Value.Basic
import GrammarBench.Value.Decimal
import GrammarBench.Pattern.Reader

/-!
# Reading values

The JSON notation, with `NaN` and the infinities. Of a repeated key the last value counts. The first
fault ends the reading.

* `Value.parse`: the value of a text, or the fault.
* `Fault.message`: the fault with line, column and offset.
-/

namespace GrammarBench.Value

inductive Defect where
  | byteOrderMark
  | noValue
  | extraData
  | noKey
  | noColon
  | noComma
  | openText
  | controlCharacter
  | badEscape
  | badCode
  /-- An integer of more digits than can be read. -/
  | tooManyDigits (digits : Nat)
  deriving DecidableEq, Repr

def Defect.message : Defect → String
  | byteOrderMark => "Unexpected UTF-8 BOM (decode using utf-8-sig)"
  | noValue => "Expecting value"
  | extraData => "Extra data"
  | noKey => "Expecting property name enclosed in double quotes"
  | noColon => "Expecting ':' delimiter"
  | noComma => "Expecting ',' delimiter"
  | openText => "Unterminated string starting at"
  | controlCharacter => "Invalid control character at"
  | badEscape => "Invalid \\escape"
  | badCode => "Invalid \\uXXXX escape"
  | tooManyDigits n =>
    "Exceeds the limit (4300 digits) for integer string conversion: value has " ++ toString n ++
      " digits; use sys.set_int_max_str_digits() to increase the limit"

structure Fault where
  defect : Defect
  offset : Nat
  deriving DecidableEq, Repr

/-- The defect in words, with its place in the text. -/
def Fault.message (f : Fault) (text : List Char) : String :=
  let passed := text.take f.offset
  let column := (passed.reverse.takeWhile (· ≠ '\n')).length + 1
  f.defect.message ++ ": line " ++ toString (passed.count '\n' + 1) ++ " column " ++ toString column ++
    " (char " ++ toString f.offset ++ ")"

structure Scan where
  rest : List Char
  offset : Nat

namespace Scan

def skip (s : Scan) (n : Nat) : Scan := ⟨s.rest.drop n, s.offset + n⟩

/-- The scan behind blanks, tabs and line endings. -/
def space (s : Scan) : Scan :=
  s.skip (s.rest.takeWhile fun c => c = ' ' || c = '\t' || c = '\n' || c = '\r').length

def fail {α : Type} (s : Scan) (d : Defect) : Except Fault α := .error ⟨d, s.offset⟩

/-- The scan behind a word, if it comes next. -/
def word? (s : Scan) (word : String) : Option Scan :=
  if word.toList.isPrefixOf s.rest then some (s.skip word.length) else none

end Scan

/-- The code unit of four hexadecimal digits. -/
def codeUnit? (digits : List Char) : Option Nat :=
  if digits.length = 4 ∧ digits.all Pattern.isHex then some (Pattern.valueIn 16 digits) else none

/-- The character of a code unit. A surrogate without its partner is no character, so that a text with one cannot be
given here; the replacement character stands in its place. -/
def charOf (n : Nat) : Char := if 0xD800 ≤ n ∧ n < 0xE000 then '\ufffd' else Char.ofNat n

/-- The second half of a pair of code units that follows the first one. -/
def lowHalf? (rest : List Char) : Option (Option Nat) :=
  match rest with
  | '\\' :: 'u' :: digits =>
    if digits.length ≤ 4 then none
    else match codeUnit? (digits.take 4) with
      | none => some none
      | some n => if 0xDC00 ≤ n ∧ n < 0xE000 then some (some n) else none
  | _ => none

/-- A text up to its closing quote; `opened` is the offset of the opening one and `done` what is read,
latest first. -/
def scanText (opened : Nat) : Nat → Scan → List Char → Except Fault (String × Scan)
  | 0, _, _ => .error ⟨.openText, opened⟩
  | fuel + 1, s, done =>
    let put (c : Char) (n : Nat) := scanText opened fuel (s.skip n) (c :: done)
    match s.rest with
    | [] => .error ⟨.openText, opened⟩
    | '"' :: _ => .ok (String.ofList done.reverse, s.skip 1)
    | ['\\'] => .error ⟨.openText, opened⟩
    | '\\' :: 'u' :: more =>
      match codeUnit? (more.take 4) with
      | none => (s.skip 1).fail .badCode
      | some n =>
        if more.length ≤ 4 then (s.skip 1).fail .badCode
        else if 0xD800 ≤ n ∧ n < 0xDC00 then
          match lowHalf? (more.drop 4) with
          | none => put (charOf n) 6
          | some none => (s.skip 7).fail .badCode
          | some (some m) =>
            put (Char.ofNat (0x10000 + (n - 0xD800) * 0x400 + (m - 0xDC00))) 12
        else put (charOf n) 6
    | '\\' :: c :: _ =>
      match c with
      | '"' => put '"' 2
      | '\\' => put '\\' 2
      | '/' => put '/' 2
      | 'b' => put '\x08' 2
      | 'f' => put '\x0c' 2
      | 'n' => put '\n' 2
      | 'r' => put '\r' 2
      | 't' => put '\t' 2
      | _ => s.fail .badEscape
    | c :: _ => if c.toNat < 32 then s.fail .controlCharacter else put c 1

/-- Digits after a mark, when there is at least one. -/
def fractionDigits (rest : List Char) : List Char :=
  match rest with
  | '.' :: more => more.takeWhile Char.isDigit
  | _ => []

/-- The sign and the digits of an exponent, with the number of characters they take. -/
def exponentPart (rest : List Char) : Option (Bool × List Char × Nat) :=
  match rest with
  | c :: more =>
    if c = 'e' || c = 'E' then
      let (negative, signed, more) := match more with
        | '-' :: m => (true, 1, m)
        | '+' :: m => (false, 1, m)
        | m => (false, 0, m)
      let digits := more.takeWhile Char.isDigit
      if digits.isEmpty then none else some (negative, digits, 1 + signed + digits.length)
    else none
  | [] => none

def decimal (digits : List Char) : Nat := Pattern.valueIn 10 digits

/-- A number; it is an integer unless it has a fraction or an exponent. -/
def scanNumber (s : Scan) : Except Fault (Value × Scan) :=
  let (negative, body) := match s.rest with
    | '-' :: _ => (true, s.skip 1)
    | _ => (false, s)
  let whole := match body.rest with
    | '0' :: _ => ['0']
    | r => r.takeWhile Char.isDigit
  if whole.isEmpty then s.fail .noValue
  else
    let after := body.skip whole.length
    let fraction := fractionDigits after.rest
    let after := if fraction.isEmpty then after else after.skip (fraction.length + 1)
    match exponentPart after.rest with
    | none =>
      if fraction.isEmpty then
        if 4300 < whole.length then s.fail (.tooManyDigits whole.length)
        else
          let n : Int := decimal whole
          .ok (int (if negative then -n else n), after)
      else
        .ok (float (Decimal.toFloat negative (decimal (whole ++ fraction)) (-fraction.length)), after)
    | some (down, digits, size) =>
      let e : Int := decimal digits
      .ok (float (Decimal.toFloat negative (decimal (whole ++ fraction))
        ((if down then -e else e) - fraction.length)), after.skip size)

mutual

def scan : Nat → Scan → Except Fault (Value × Scan)
  | 0, s => s.fail .noValue
  | fuel + 1, s =>
    match s.rest with
    | '"' :: _ => do
      let (t, s') ← scanText s.offset (s.rest.length + 1) (s.skip 1) []
      return (text t, s')
    | '[' :: _ =>
      let s := (s.skip 1).space
      match s.rest with
      | ']' :: _ => .ok (list [], s.skip 1)
      | _ => do
        let (items, s') ← scanItems fuel s
        return (list items, s')
    | '\x7b' :: _ =>
      let s := (s.skip 1).space
      match s.rest with
      | '\x7d' :: _ => .ok (dict [], s.skip 1)
      | _ => do
        let (entries, s') ← scanEntries fuel s
        return (dict (Ordered.ofList entries), s')
    | _ =>
      match s.word? "null", s.word? "true", s.word? "false" with
      | some s', _, _ => .ok (null, s')
      | _, some s', _ => .ok (bool true, s')
      | _, _, some s' => .ok (bool false, s')
      | _, _, _ =>
        match s.word? "NaN", s.word? "Infinity", s.word? "-Infinity" with
        | some s', _, _ => .ok (float (0.0 / 0.0), s')
        | _, some s', _ => .ok (float (1.0 / 0.0), s')
        | _, _, some s' => .ok (float (-1.0 / 0.0), s')
        | _, _, _ => scanNumber s

/-- The items of a list up to its closing bracket. -/
def scanItems : Nat → Scan → Except Fault (List Value × Scan)
  | 0, s => s.fail .noValue
  | fuel + 1, s => do
    let (v, s) ← scan fuel s
    let s := s.space
    match s.rest with
    | ']' :: _ => return ([v], s.skip 1)
    | ',' :: _ =>
      let (vs, s') ← scanItems fuel (s.skip 1).space
      return (v :: vs, s')
    | _ => s.fail .noComma

/-- The entries of a map up to its closing brace. -/
def scanEntries : Nat → Scan → Except Fault (List (String × Value) × Scan)
  | 0, s => s.fail .noKey
  | fuel + 1, s =>
    match s.rest with
    | '"' :: _ => do
      let (key, s) ← scanText s.offset (s.rest.length + 1) (s.skip 1) []
      let s := s.space
      match s.rest with
      | ':' :: _ =>
        let (v, s) ← scan fuel (s.skip 1).space
        let s := s.space
        match s.rest with
        | '\x7d' :: _ => return ([(key, v)], s.skip 1)
        | ',' :: _ =>
          let (rest, s') ← scanEntries fuel (s.skip 1).space
          return ((key, v) :: rest, s')
        | _ => s.fail .noComma
      | _ => s.fail .noColon
    | _ => s.fail .noKey

end

/-- The value that a text writes, or the first fault. -/
def parse (text : List Char) : Except Fault Value :=
  if text.head? = some '\ufeff' then .error ⟨.byteOrderMark, 0⟩
  else do
    let (v, s) ← scan (2 * text.length + 2) (Scan.space ⟨text, 0⟩)
    let s := s.space
    if s.rest.isEmpty then return v else s.fail .extraData

end GrammarBench.Value
