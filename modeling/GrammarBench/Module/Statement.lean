import GrammarBench.Module.Member
import GrammarBench.Value.Reader

/-!
# Statements

The body of a grammar module is a list of statements that are run in order.

* `Statement`: what a body may say.
* `Program`: a body, or the defect that keeps it from being run.
* `Program.ofText`: the body in a plain text of assignments.
* `Program.ofBytes`: the body in the bytes of a file, in the encoding that they declare.
-/

namespace GrammarBench

inductive Statement where
  /-- Makes a class; the last field is the module that it says it belongs to. -/
  | define (name : String) (bases : List String) (members : List (String × Member))
      (home : Option String)
  | assign (name : String) (value : Value)
  | copy (name source : String)
  | remove (name : String)
  | fail (failure : Failure)
  /-- Takes the first directory off the search path. -/
  | shortenSearch
  /-- Imports a module, or some names of it. -/
  | fetch (module : String) (names : Option (List String))
  deriving Repr

/-- What is wrong with a source that cannot be run. -/
inductive SourceDefect where
  | at (line column : Nat) (message : String)
  /-- A source with a character that none may have; no place is given. -/
  | nullCharacter
  /-- Bytes that are not in the encoding that they declare. -/
  | encoding (message : String)
  deriving DecidableEq, Repr

/-- A source: a body, or the defect that keeps it from being run. -/
inductive Program where
  | body (statements : List Statement)
  | defective (defect : SourceDefect)
  deriving Repr

namespace Program

def nullMessage : String := "source code string cannot contain null bytes"

/-- The value that is written on the right of an assignment. -/
def literal? (s : List Char) : Option Value :=
  match String.ofList s with
  | "None" => some .null
  | "True" => some (.bool true)
  | "False" => some (.bool false)
  | _ => (Value.parse s).toOption

/-- The statement of a line, `none` when it is no assignment. -/
def lineStatement? (line : List Char) : Option Statement :=
  let name := line.takeWhile Text.continuesName
  match (line.drop name.length).dropWhile (· = ' ') with
  | '=' :: r =>
    if name.head?.any Text.startsName then
      (literal? (Text.trim r)).map (.assign (String.ofList name))
    else none
  | _ => none

/-- The mark that some texts start with. -/
def isMark (c : Char) : Bool := c.toNat = 0xFEFF

/-- The defect of a line that is no statement. -/
def lineDefect (n : Nat) (line : List Char) : SourceDefect :=
  .at n 1 (if line.head?.any isMark then "invalid non-printable character U+FEFF" else "invalid syntax")

/-- A line without a statement. -/
def isIdle (line : List Char) : Bool :=
  match Text.trim line with
  | [] | '#' :: _ => true
  | _ => false

/-- The program in lines that each hold an assignment, a remark or nothing. -/
def ofLines : Nat → List (List Char) → Program
  | _, [] => .body []
  | n, line :: rest =>
    if isIdle line then ofLines (n + 1) rest
    else match lineStatement? line with
      | none => .defective (lineDefect n line)
      | some s =>
        match ofLines (n + 1) rest with
        | .body statements => .body (s :: statements)
        | p => p

/-- The body in a plain text. Only assignments of plain values are read: a line with any other statement, which the
language may well have, counts as one that is no statement at all. -/
def ofText (text : List Char) : Program :=
  if '\x00' ∈ text then .defective .nullCharacter
  else ofLines 1 (Text.splitNewlines text)

/-! ## Bytes -/

/-- The lines of some bytes, with every kind of line end. -/
def byteLines : List UInt8 → List (List UInt8)
  | [] => [[]]
  | 13 :: 10 :: r => [] :: byteLines r
  | b :: r =>
    if b = 10 || b = 13 then [] :: byteLines r
    else match byteLines r with
      | [] => [[b]]
      | l :: ls => (b :: l) :: ls

/-- The bytes of names and numbers, all bytes beyond the plain ones among them. -/
def isWordByte (b : UInt8) : Bool := 128 ≤ b || b = 95 || (Char.ofNat b.toNat).isAlphanum

/-- Where a piece that starts at a column stops being well formed. -/
def pieceFault? (column : Nat) (piece : List UInt8) : Except (Nat × Text.Utf8.Fault) Nat :=
  match Text.Utf8.decode piece with
  | .ok text => .ok (column + text.length)
  | .error f =>
    .error (column + ((Text.Utf8.decode (piece.take f.offset)).toOption.getD []).length, f)

/-- The first word or quoted text of a line that is not well formed, with the column of the fault; what
stands in a remark does not matter. Every round takes at least one byte. -/
def lineFault? : Nat → Nat → List UInt8 → Option (Nat × Text.Utf8.Fault)
  | 0, _, _ => none
  | _, _, [] => none
  | rounds + 1, column, b :: r =>
    let goOn (piece : List UInt8) (start : Nat) (rest : List UInt8) :=
      match pieceFault? start piece with
      | .ok column => lineFault? rounds column rest
      | .error fault => some fault
    if b = 35 then none
    else if b = 34 || b = 39 then
      let piece := r.takeWhile (· ≠ b)
      goOn piece (column + 1) (r.drop piece.length)
    else if isWordByte b then
      let piece := b :: r.takeWhile isWordByte
      goOn piece column (r.drop (piece.length - 1))
    else lineFault? rounds (column + 1) r

/-- The first fault in some lines, with its line and column. -/
def firstFault? (lines : List (List UInt8)) : Option (Nat × Nat × Text.Utf8.Fault) :=
  (lines.zipIdx 1).findSome? fun (l, n) => (lineFault? (l.length + 1) 1 l).map fun f => (n, f)

/-- The text of a line without its remark. -/
def plainLine (line : List UInt8) : List Char :=
  (Text.Utf8.decode (line.takeWhile (· ≠ 35))).toOption.getD []

/-- The body in bytes that declare no encoding, and may start with a mark. The first word that is not well formed is
the defect. -/
def ofUndeclared (bytes : List UInt8) : Program :=
  match Text.Utf8.decode bytes with
  | .ok text =>
    match Text.universal text with
    | c :: r => ofText (if isMark c then r else c :: r)
    | [] => .body []
  | .error _ =>
    let lines := byteLines bytes
    match firstFault? lines with
    | some (line, column, f) => .defective (.at line column ("(unicode error) " ++ f.message))
    | none => ofText (['\n'].intercalate (lines.map plainLine))

/-! ## Declared encodings -/

/-- The name that a declaration at the front of a text gives. -/
def declaredAt? : List Char → Option (List Char)
  | 'c' :: 'o' :: 'd' :: 'i' :: 'n' :: 'g' :: mark :: r =>
    let name := (r.dropWhile fun c => c = ' ' || c = '\t').takeWhile fun c =>
      c.isAlphanum || c = '-' || c = '_' || c = '.'
    if (mark = ':' || mark = '=') && !name.isEmpty then some name else none
  | _ => none

/-- The name that the first declaration in a text gives. -/
def declaration? : List Char → Option (List Char)
  | [] => none
  | c :: r => (declaredAt? (c :: r)).or (declaration? r)

/-- A line without the blanks in front. -/
def unpadded (line : List Char) : List Char := line.dropWhile fun c => c = ' ' || c = '\t' || c = '\x0c'

/-- The name that a remark declares; a line with anything else declares none. -/
def lineEncoding? (line : List Char) : Option (List Char) :=
  match unpadded line with
  | '#' :: remark => declaration? remark
  | _ => none

/-- The name in the declaration of some lines: in the first one, or in the second one behind a line without a
statement. -/
def declaredIn? : List (List Char) → Option (List Char)
  | [] => none
  | first :: rest =>
    (lineEncoding? first).or <|
      match unpadded first with
      | [] | '#' :: _ => rest.head?.bind lineEncoding?
      | _ => none

/-- Bytes as the characters of their numbers. -/
def byteText (bytes : List UInt8) : List Char := bytes.map fun b => Char.ofNat b.toNat

/-- The mark in bytes. -/
def markBytes : List UInt8 := [0xEF, 0xBB, 0xBF]

def utf8Name : String := "utf-8"

def latinName : String := "iso-8859-1"

/-- A name in its usual form. -/
def usualName (name : List Char) : String :=
  let short := (name.take 12).map fun c => if c = '_' then '-' else c.toLower
  let names (s : String) : Bool := short = s.toList || (s ++ "-").toList.isPrefixOf short
  if names utf8Name then utf8Name
  else if names "latin-1" || names latinName || names "iso-latin-1" then latinName
  else String.ofList name

/-- The name of the encoding that bytes declare. -/
def declared? (bytes : List UInt8) : Option String :=
  let plain := if markBytes.isPrefixOf bytes then bytes.drop markBytes.length else bytes
  (declaredIn? ((byteLines plain).map byteText)).map usualName

/-- The text in bytes of a declared encoding, or why there is none. Of the encodings that have another name only the
short name of the usual one is known here. -/
def translate (name : String) (bytes : List UInt8) : Except String (List Char) :=
  let bytes := [10].intercalate (byteLines bytes)
  if name = latinName then .ok (byteText bytes)
  else if name.toLower = "utf8" then (Text.Utf8.decode bytes).mapError (·.message)
  else .error ("unknown encoding: " ++ name)

/-- The body in the bytes of a file, which may declare their encoding; behind a mark it can only be the usual one. -/
def ofBytes (bytes : List UInt8) : Program :=
  match declared? bytes with
  | none => ofUndeclared bytes
  | some name =>
    if name = utf8Name then ofUndeclared bytes
    else if bytes.contains 0 then .defective .nullCharacter
    else if markBytes.isPrefixOf bytes then
      .defective (.encoding ("encoding problem: " ++ name ++ " with BOM"))
    else
      match translate name bytes with
      | .ok text => ofText text
      | .error message => .defective (.encoding message)

end Program

end GrammarBench
