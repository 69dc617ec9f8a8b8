import GrammarBench.Failure
import GrammarBench.Tree.Drawing

/-!
# Showing

What is shown of a run is told by the objects themselves that a grammar hands out: an item of a lexer that is no token
writes its own line, what a rule returns writes itself, parts of it tell their texts and labels and list their
children, and a failure tells its message and its details. All of this is code of the grammar, which may fail; and a
number may be too long to be written.

* `Showing`: how objects show themselves.
* `Showing.tokenLine`, `Showing.treeLine`: the lines of tokens and trees.
* `Showing.drawing`: the drawing of a tree.
-/

namespace GrammarBench

/-! ## Numbers -/

/-- The first number that is too long to be written: a one with 4300 zeros behind it. -/
def longNat : Nat := Nat.pow 10 4300

/-- Whether a number is short enough to be written. -/
@[irreducible] def isWritable (n : Int) : Bool := n.natAbs < longNat

/-- The failure of writing a number that is too long. -/
def longNumber : Failure :=
  .fault .value ("Exceeds the limit (4300 digits) for integer string conversion; use " ++
    "sys.set_int_max_str_digits() to increase the limit")

/-- What is shown with some numbers in it. -/
def withNumbers {α : Type} (numbers : List Int) (shown : α) : Except Failure α :=
  if numbers.all isWritable then .ok shown else .error longNumber

/-- The numbers in the displayed name of a type: the type itself when it has no name. -/
def displayNumbers (kind : Int) (symbols : Symbols) : List Int :=
  match (if 0 < kind then symbols[kind.toNat]? else none) with
  | some (some _) => []
  | _ => [kind]

namespace Token

def numbers (t : Token) : List Int := [t.kind, t.start, t.stop, t.line, t.column, t.channel, t.index]

/-- The numbers in the line of a token. -/
def lineNumbers (symbols : Symbols) (t : Token) : List Int :=
  [t.index, t.start, t.stop, t.line, t.column] ++ displayNumbers t.kind symbols ++
    if 0 < t.channel then [t.channel] else []

end Token

namespace Value

mutual

def numbers : Value → List Int
  | int n => [n]
  | list items => numbersOfAll items
  | dict entries => numbersOfEntries entries
  | _ => []

def numbersOfAll : List Value → List Int
  | [] => []
  | v :: vs => numbers v ++ numbersOfAll vs

def numbersOfEntries : List (String × Value) → List Int
  | [] => []
  | (_, v) :: rest => numbers v ++ numbersOfEntries rest

end

end Value

namespace Tree

mutual

/-- The numbers in the text of a tree; nodes that do not write themselves do not show their children. -/
def numbers : Tree → List Int
  | leaf v => v.numbers
  | rule _ children | node _ children | list children => numbersOfAll children
  | token t => t.numbers
  | plain _ _ | bare _ | lexeme _ => []

def numbersOfAll : List Tree → List Int
  | [] => []
  | t :: ts => numbers t ++ numbersOfAll ts

end

/-- The type that the label of a leaf tells. -/
def leafType? : Tree → Option String
  | lexeme l => some l.terminal
  | _ => none

end Tree

/-- The numbers in the message of a failure that are written when the message is. -/
def Failure.numbers : Failure → List Int
  | unlexable place _ | unexpectedToken place _ => place.line.toList ++ place.column.toList
  | _ => []

/-! ## Objects -/

/-- How objects show themselves; by default as those of the bench and the built-in ones do. A tree does not tell
objects of a grammar's own classes from these: what their code comes to is told here, for the trees that stand for
them. Nesting that is too deep for the interpreter is left out. -/
structure Showing where
  /-- The line of an item of a lexer that is no token, or has a text that cannot be written; `none` for any other
  token. -/
  item : Token → Option (Except Failure String) := fun _ => none
  /-- The line of what a rule has returned, unless it is a rule node. -/
  line : Tree → Except Failure String := fun t => withNumbers t.numbers t.shown
  /-- The text of a part of a tree. -/
  text : Tree → Except Failure String := fun t => withNumbers t.numbers t.shown
  /-- The type that a leaf tells, if it tells one. -/
  type : Tree → Except Failure (Option String) := fun t => .ok t.leafType?
  /-- The label of a node. -/
  label : Tree → Except Failure String := fun t => .ok (t.nodeLabel?.getD "")
  /-- Whether the children of a node can be listed. -/
  children : Tree → Except Failure Unit := fun _ => .ok ()
  message : Failure → Except Failure String := fun f => withNumbers f.numbers f.message
  /-- The lines in which a failure explains itself further. -/
  details : Failure → List (Except Failure String) := fun f => f.details.map .ok

namespace Showing

variable (s : Showing) (symbols : Symbols)

def tokenLine (t : Token) : Except Failure String :=
  (s.item t).getD (withNumbers (t.lineNumbers symbols) (t.written symbols))

mutual

/-- The text of a part of a rule node; white space in labels and texts is escaped. -/
def partText : Tree → Except Failure String
  | .rule label children => do
    let label' ← s.label (.rule label children)
    s.children (.rule label children)
    return Tree.parenthesized (Text.escape label') (← partTexts children)
  | t => (s.text t).map Text.escape

/-- The texts of the children of a rule node; null ones are left out. -/
def partTexts : List Tree → Except Failure (List String)
  | [] => .ok []
  | t :: ts => do
    if t.isNull then partTexts ts
    else
      let text ← partText t
      return text :: (← partTexts ts)

end

/-- The line of what a rule has returned. -/
def treeLine : Tree → Except Failure String
  | .rule label children => s.partText (.rule label children)
  | t => s.line t

/-! ## Drawings -/

def leafLabel : Tree → Except Failure Label
  | .token t => do
    let type ← withNumbers (displayNumbers t.kind symbols) (displayName t.kind symbols)
    return .typed (Text.escape (t.text.getD "")) type
  | t => do
    let type ← s.type t
    let text ← s.text t
    return match type with
      | some type => .typed (Text.escape text) type
      | none => .ofText (Text.escape text) .bold

/-- The drawing of a node, above the drawings of its children. -/
def branch (t : Tree) (below : Except Failure (List Drawing)) : Except Failure Drawing := do
  let label ← s.label t
  s.children t
  return .branch (.ofText label .cyan) (← below)

mutual

def drawing : Tree → Except Failure Drawing
  | .rule label children => s.branch (.rule label children) (drawings children)
  | .node label children => s.branch (.node label children) (drawings children)
  | .plain label children => s.branch (.plain label children) (drawings children)
  | .bare children => s.branch (.bare children) (drawings children)
  | t => do return .branch (← s.leafLabel symbols t) []

/-- The drawings of the children of a node; null ones are left out. -/
def drawings : List Tree → Except Failure (List Drawing)
  | [] => .ok []
  | t :: ts => do
    if t.isNull then drawings ts
    else
      let first ← drawing t
      return first :: (← drawings ts)

end

end Showing

end GrammarBench
