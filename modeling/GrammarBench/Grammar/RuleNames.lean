import GrammarBench.Text.Letter
import GrammarBench.Text.Lines

/-!
# Names read off a grammar text

The rules that a grammar text defines are found line by line, without reading the grammar; classes are
named after the grammar's own name.

* `ruleOfLine?`, `ruleNames`: the rule that a line defines, and those of a text, each once.
* `className`: the name of the classes of a grammar.
-/

namespace GrammarBench.Grammar

def isGap (c : Char) : Bool := c = ' ' || c = '\t'

def isSmall (c : Char) : Bool := 'a' ≤ c && c ≤ 'z'

def isNameChar (c : Char) : Bool := isSmall c || ('0' ≤ c && c ≤ '9') || c = '_'

/-- A line behind the modifier that it may start with. -/
def afterModifier : List Char → List Char
  | '?' :: r => r
  | '!' :: r => r
  | r => r

/-- A line behind the priority that may stand next: a dot, a sign and digits. -/
def afterPriority (s : List Char) : List Char :=
  match s with
  | '.' :: r =>
    let digits := match r with
      | '-' :: r' => r'
      | _ => r
    if digits.head?.any Text.isDigit then digits.dropWhile Text.isDigit else s
  | _ => s

/-- The rule that a line defines: blanks, a modifier, a name, a priority, blanks and a colon. -/
def ruleOfLine? (line : List Char) : Option (List Char) :=
  let s := afterModifier (line.dropWhile isGap)
  let name := s.takeWhile isNameChar
  if name.head?.any isSmall then
    match (afterPriority (s.dropWhile isNameChar)).dropWhile isGap with
    | ':' :: _ => some name
    | _ => none
  else none

/-- The elements of a list that are not in another, each once, behind those of the other. -/
def addNew {α : Type} [DecidableEq α] (found : List α) : List α → List α
  | [] => found
  | a :: rest => addNew (if a ∈ found then found else found ++ [a]) rest

/-- The names of the rules that a text defines, in the order of the lines, each once. -/
def ruleNames (text : String) : List String :=
  addNew [] (((Text.splitNewlines text.toList).filterMap ruleOfLine?).map String.ofList)

/-! ## Class names -/

def isPlain (c : Char) : Bool := c.isAlphanum

/-- The maximal runs of plain letters and digits. -/
def plainRuns : List Char → List (List Char)
  | [] => [[]]
  | c :: r =>
    match plainRuns r with
    | [] => []
    | l :: ls => if isPlain c then (c :: l) :: ls else [] :: l :: ls

/-- The first character in upper case, the others in lower case. -/
def capitalized : List Char → List Char
  | [] => []
  | c :: r => c.toUpper :: r.map Char.toLower

/-- The name of the classes of a grammar: its runs of letters and digits, each capitalized. -/
def className (name : String) : String :=
  match (plainRuns name.toList).flatMap capitalized with
  | [] => "Grammar"
  | s => String.ofList s

end GrammarBench.Grammar
