import GrammarBench.Value.Basic
import GrammarBench.Value.Decimal
import GrammarBench.Text.Quoted

/-!
# The text of a value

* `Value.literal`: a value as it is written inside a list: texts quoted.
* `Value.shown`: a value on its own: a text as it is.
* `literalTexts`: a list of texts.
-/

namespace GrammarBench

def bracketed (items : List String) : String := "[" ++ ", ".intercalate items ++ "]"

/-- A list of texts as a literal. -/
def literalTexts (texts : List String) : String := bracketed (texts.map Text.quoted)

namespace Value

mutual

def literal : Value → String
  | null => "None"
  | bool b => if b then "True" else "False"
  | int n => toString n
  | float x => Decimal.ofFloat x
  | text s => Text.quoted s
  | list items => bracketed (literals items)
  | dict entries => "\x7b" ++ ", ".intercalate (literalEntries entries) ++ "\x7d"

def literals : List Value → List String
  | [] => []
  | v :: vs => v.literal :: literals vs

def literalEntries : List (String × Value) → List String
  | [] => []
  | (k, v) :: rest => (Text.quoted k ++ ": " ++ v.literal) :: literalEntries rest

end

/-- A value on its own: a text as it is, anything else as a literal. -/
def shown : Value → String
  | text s => s
  | v => v.literal

end Value

end GrammarBench
