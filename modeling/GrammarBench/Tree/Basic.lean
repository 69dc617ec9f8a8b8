import GrammarBench.Token.Line
import GrammarBench.Value.Shown

/-!
# Parse trees

What a rule may return: the trees of a parsed grammar, nodes of other making, tokens, and plain values.

* `Tree.shown`, `Tree.literal`: a tree on its own and as it is written inside a list.
* `Tree.written`: the tree as one line with parentheses.
-/

namespace GrammarBench

/-- A piece of the input under the name of its terminal, with its place as far as it is known; lines and
columns count from one. -/
structure Lexeme where
  terminal : String
  text : String
  start : Option Int := none
  stop : Option Int := none
  line : Option Int := none
  column : Option Int := none
  endLine : Option Int := none
  endColumn : Option Int := none
  /-- Whether it has been made of no text at all; its text is then the word for that. -/
  textless : Bool := false
  deriving DecidableEq, Repr, Inhabited

namespace Lexeme

/-- The text of a lexeme that has been made of no text at all. -/
def noText : String := "None"

def literal (l : Lexeme) : String :=
  "Token(" ++ Text.quoted l.terminal ++ ", " ++ (if l.textless then noText else Text.quoted l.text) ++ ")"

end Lexeme

inductive Tree where
  | leaf (value : Value)
  /-- The node of a grammar rule. -/
  | rule (label : String) (children : List Tree)
  /-- A node that writes itself. -/
  | node (label : String) (children : List Tree)
  /-- A node with a label that does not write itself. -/
  | plain (label : String) (children : List Tree)
  /-- A node without a label. -/
  | bare (children : List Tree)
  | token (token : Token)
  | lexeme (lexeme : Lexeme)
  | list (items : List Tree)
  deriving Repr, Inhabited

namespace Tree

def text (s : String) : Tree := leaf (.text s)

def isNull : Tree → Bool
  | leaf v => v.isNull
  | _ => false

/-- The label with which a node is drawn, `none` for a leaf. -/
def nodeLabel? : Tree → Option String
  | rule label _ | node label _ | plain label _ => some label
  | bare _ => some "Bare"
  | _ => none

/-- A label alone, or a label and its children in parentheses. -/
def parenthesized (label : String) (children : List String) : String :=
  if children.isEmpty then label else "(" ++ label ++ " " ++ " ".intercalate children ++ ")"

mutual

def literal : Tree → String
  | leaf v => v.literal
  | rule label children => "Tree(" ++ Text.quoted label ++ ", " ++ bracketed (literals children) ++ ")"
  | node label children => parenthesized label (nodeTexts children)
  | plain label _ => "<plain " ++ label ++ ">"
  | bare _ => "<bare>"
  | token t => t.shown
  | lexeme l => l.literal
  | list items => bracketed (literals items)

def literals : List Tree → List String
  | [] => []
  | t :: ts => t.literal :: literals ts

/-- The texts of the children of a node that writes itself: nodes of its kind write themselves, texts
stand as they are and all else as literals. -/
def nodeTexts : List Tree → List String
  | [] => []
  | leaf v :: ts => v.shown :: nodeTexts ts
  | lexeme l :: ts => l.text :: nodeTexts ts
  | t :: ts => t.literal :: nodeTexts ts

end

/-- A tree on its own: texts as they are, all else as a literal. -/
def shown : Tree → String
  | leaf v => v.shown
  | lexeme l => l.text
  | t => t.literal

mutual

/-- The line of a rule node; white space in labels and texts is escaped. -/
def writtenRule (label : String) (children : List Tree) : String :=
  parenthesized (Text.escape label) (childTexts children)

/-- The texts of the children of a rule node; null ones are left out. -/
def childTexts : List Tree → List String
  | [] => []
  | rule label children :: ts => writtenRule label children :: childTexts ts
  | t :: ts => if t.isNull then childTexts ts else Text.escape t.shown :: childTexts ts

end

def written : Tree → String
  | rule label children => writtenRule label children
  | t => t.shown

end Tree

end GrammarBench
