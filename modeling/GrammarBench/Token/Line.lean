import GrammarBench.Token.Basic
import GrammarBench.Text.Escape

/-!
# Token lines

One token on one line: its index, its offsets, its text with white space escaped, its type by name or
by number, its channel unless that is the default one, and its place.

* `displayName`: the name of a type, its number when it has none.
* `Token.written`: the line of a token.
-/

namespace GrammarBench

/-- The names of the token types; a type without a name has `none`. -/
abbrev Symbols := List (Option String)

/-- The name of a type, its number when it has none. -/
def displayName (kind : Int) (symbols : Symbols) : String :=
  match (if 0 < kind then symbols[kind.toNat]? else none) with
  | some (some name) => name
  | _ => toString kind

namespace Token

def noText : String := "<no text>"

/-- The text of a token as its line shows it. -/
def shownText (t : Token) : String :=
  match t.text with
  | none => noText
  | some s => Text.escape s

def written (symbols : Symbols) (t : Token) : String :=
  "[@" ++ toString t.index ++ "," ++ toString t.start ++ ":" ++ toString t.stop ++ "='" ++
    t.shownText ++ "',<" ++ displayName t.kind symbols ++ ">" ++
    (if 0 < t.channel then ",channel=" ++ toString t.channel else "") ++ "," ++
    toString t.line ++ ":" ++ toString t.column ++ "]"

end Token

end GrammarBench
