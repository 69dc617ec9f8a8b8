import GrammarBench.Text.CharTable
import GrammarBench.Text.CaseTable

/-!
# Properties of characters

Membership of a character in the classes that names, patterns and printed text depend on, and the
two case forms of a character and of a text.

* `isWord`: what a word is made of, letters, digits, other numerals and the underscore.
* `isDigit`, `isBlank`, `isPrintable`: decimal digits, white space, characters shown as they are.
* `startsName`, `continuesName`: what a name may start with and go on with.
* `lower`, `upper`, `toLower`, `toUpper`: the case forms of characters and of whole texts.
* `fold`: the form in which two characters that differ only in case are equal.
-/

namespace GrammarBench.Text

/-- Binary search for a range of the ascending table that holds `n`, between two indices. -/
def inRanges (table : Array (Nat × Nat)) (n : Nat) : Nat → Nat → Nat → Bool
  | 0, _, _ => false
  | fuel + 1, low, high =>
    if low < high then
      let middle := (low + high) / 2
      let (first, last) := table.getD middle (0, 0)
      if n < first then inRanges table n fuel low middle
      else if last < n then inRanges table n fuel (middle + 1) high
      else true
    else false

/-- Whether a character lies in one of the ranges of an ascending table. -/
def memberOf (table : Array (Nat × Nat)) (c : Char) : Bool :=
  inRanges table c.toNat (table.size + 1) 0 table.size

/-! ## Classes -/

def isLetter (c : Char) : Bool :=
  if c.toNat < 128 then c.isAlpha else memberOf CharTable.letters c

/-- A decimal digit of any script. -/
def isDigit (c : Char) : Bool :=
  if c.toNat < 128 then c.isDigit else memberOf CharTable.decimalDigits c

/-- The number that a decimal digit stands for; the digits of a script follow one another from zero on. -/
def digitValue (c : Char) : Nat :=
  match CharTable.decimalDigits.find? fun (first, last) => first ≤ c.toNat && c.toNat ≤ last with
  | some (first, _) => (c.toNat - first) % 10
  | none => 0

/-- A letter, or a character that stands for a number. -/
def isAlphanumeric (c : Char) : Bool :=
  isLetter c || isDigit c ||
    (128 ≤ c.toNat && (memberOf CharTable.letterNumbers c || memberOf CharTable.otherNumerals c))

/-- A word character: alphanumeric or the underscore. -/
def isWord (c : Char) : Bool := c = '_' || isAlphanumeric c

def isBlank (c : Char) : Bool := memberOf CharTable.blanks c

/-- A character that is shown as it is; the others are shown as escapes. -/
def isPrintable (c : Char) : Bool :=
  if c.toNat < 127 then 32 ≤ c.toNat else !memberOf CharTable.unprintables c

/-- A name starts with a letter, a mark or a connector. -/
def startsName (c : Char) : Bool :=
  isLetter c || memberOf CharTable.connectors c || memberOf CharTable.marks c

/-- A name goes on with what may start it, a decimal digit or a letter number. -/
def continuesName (c : Char) : Bool :=
  startsName c || isDigit c || memberOf CharTable.letterNumbers c

def columns (c : Char) : Nat :=
  if c.toNat < 128 then if c.toNat < 32 || c.toNat = 127 then 0 else 1
  else if memberOf CharTable.zeroWidths c then 0
  else if memberOf CharTable.wides c then 2
  else 1

def width (s : List Char) : Nat := s.foldl (fun n c => n + columns c) 0

/-! ## Case -/

/-- The other case of `n` when the run holds it. -/
def CaseRun.other? (r : CaseRun) (n : Nat) : Option Nat :=
  if r.first ≤ n ∧ n ≤ r.first + (r.count - 1) * r.step ∧ (n - r.first) % r.step = 0 then
    some ((n : Int) + r.shift).toNat
  else none

/-- The other case of a character in a table of runs, the character itself when it has none. -/
def otherCase (runs : Array CaseRun) (c : Char) : Char :=
  ((runs.findSome? (·.other? c.toNat)).map Char.ofNat).getD c

def lower (c : Char) : Char :=
  if c.toNat < 128 then c.toLower
  else if c = 'İ' then 'i'
  else otherCase CaseTable.lowerRuns c

def upper (c : Char) : Char :=
  if c.toNat < 128 then c.toUpper else otherCase CaseTable.upperRuns c

/-- Two characters that differ only in case have one folded form. -/
def fold (c : Char) : Char := upper (lower c)

/-- The characters of a table that have the given other case. -/
def withOtherCase (runs : Array CaseRun) (c : Char) : List Char :=
  runs.toList.filterMap fun r =>
    let n := ((c.toNat : Int) - r.shift).toNat
    if r.other? n = some c.toNat then some (Char.ofNat n) else none

/-- A character with every character that differs from it only in case. -/
def caseVariants (c : Char) : List Char :=
  if c.toNat < 128 && !c.isAlpha then [c] else
  let u := fold c
  let us := u :: withOtherCase CaseTable.upperRuns u
  (c :: us ++ us.flatMap (withOtherCase CaseTable.lowerRuns)).eraseDups

/-- Letters that differ from their upper-case form are lower case, those that differ from their
lower-case form upper case. -/
def isUpper (c : Char) : Bool := lower c ≠ c && upper c = c

def isLower (c : Char) : Bool := upper c ≠ c

/-- A text in upper case: some letter is upper case and none is lower case. -/
def allUpper (s : List Char) : Bool := s.any isUpper && !s.any isLower

/-- A capital sigma ends a word when a letter stands before it and none after it. -/
def toLowerAfter : Option Char → List Char → List Char
  | _, [] => []
  | before, c :: r =>
    (if c = 'Σ' then
      if before.any isLetter && !(r.head?.any isLetter) then ['ς'] else ['σ']
    else if c = 'İ' then ['i', '\u0307'] else [lower c]) ++ toLowerAfter (some c) r

def toLower (s : String) : String := String.ofList (toLowerAfter none s.toList)

/-- The upper-case form of a text, in which some letters become several. -/
def toUpper (s : String) : String :=
  String.ofList <| s.toList.flatMap fun c =>
    match CaseTable.upperSeveral.find? (·.1 = c.toNat) with
    | some (_, several) => several.map Char.ofNat
    | none => [upper c]

end GrammarBench.Text
