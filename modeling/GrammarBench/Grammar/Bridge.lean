import GrammarBench.Grammar.Language
import GrammarBench.Token.Stream
import GrammarBench.Token.Line

/-!
# Grammars as lexers and parsers

The lexemes of a language become tokens, numbered types for the names of terminals and the hidden channel
for what the grammar ignores; and tokens become lexemes again when a rule is read.

* `Bridge.emission`: the tokens of a text.
* `Bridge.lexemeOf`: the lexeme of a token.
* `Bridge.parse`: the tree of a rule over some tokens.
-/

namespace GrammarBench.Grammar.Bridge

/-- The names of the token types: no name for zero, then the terminals. -/
def symbols (l : Language) : Symbols := none :: l.terminals.map fun t => some t.name

/-- The last place where a name stands, counted from a number on. -/
def lastPlace? (name : String) : Nat → Symbols → Option Nat
  | _, [] => none
  | n, s :: rest => (lastPlace? name (n + 1) rest).or (if s = some name then some n else none)

/-- The type of a terminal: the last place where its name stands; a name without a place has the invalid
type. -/
def typeOf (symbols : Symbols) (name : String) : Int :=
  match lastPlace? name 0 symbols with
  | some n => n
  | none => Token.invalid

/-- The token of a lexeme; columns of tokens count from zero. -/
def tokenOf (symbols : Symbols) (hidden : List String) (x : Lexeme) : Token :=
  { kind := typeOf symbols x.terminal
    text := some x.text
    start := x.start.getD 0
    stop := x.stop.getD 0 - 1
    line := x.line.getD 0
    column := x.column.getD 0 - 1
    channel := if hidden.contains x.terminal then Token.hiddenChannel else Token.defaultChannel }

/-- The tokens of some lexemes, with the end of the text behind the last one. -/
def tokensOf (symbols : Symbols) (hidden : List String) (text : String) :
    Int × Int → List (Except Failure Lexeme) → Emission
  | (line, column), [] => [.ok (Token.eofAt text line column)]
  | _, .error f :: _ => [.error f]
  | _, .ok x :: rest =>
    .ok (tokenOf symbols hidden x) ::
      tokensOf symbols hidden text (x.endLine.getD 0, x.endColumn.getD 0 - 1) rest

/-- The tokens of a text, under given names of types and with given hidden terminals. -/
def emissionWith (l : Language) (symbols : Symbols) (hidden : List String) (text : String) : Emission :=
  tokensOf symbols hidden text (1, 0) (l.lexemes text)

/-- The tokens of a text. -/
def emission (l : Language) (text : String) : Emission :=
  emissionWith l (symbols l) l.ignored text

/-- A token as the lexeme of a terminal; lines and columns of lexemes count from one. -/
def carried (t : Token) (terminal : String) (text : Option String) : Lexeme :=
  { terminal := terminal, text := text.getD Lexeme.noText, start := some t.start, stop := some (t.stop + 1)
    line := some t.line, column := some (t.column + 1), textless := text.isNone }

/-- The lexeme of a token. The message about a token of no terminal is written here however long its numbers are. -/
def lexemeOf (symbols : Symbols) (t : Token) : Except Failure Lexeme :=
  if t.isEof then .ok (carried t Automaton.endName (some ""))
  else
    match (if 0 < t.kind then symbols[t.kind.toNat]? else none) with
    | some (some name) => .ok (carried t name t.text)
    | _ =>
      .error (.fault .grammarRuntime ("Token type " ++ toString t.kind ++ " at " ++ toString t.line ++
        ":" ++ toString t.column ++ " is not a terminal of this grammar"))

/-- The end behind no token at all. -/
def bareEnd : Lexeme :=
  { terminal := Automaton.endName, text := "", start := some 0, line := some 1, column := some 1 }

/-- Feeds tokens up to the one that ends the input, if one does. -/
def feedAll {σ : Type} (r : Reading σ) (symbols : Symbols) (rule : String) :
    σ → List Token → Except Failure (σ × Option Token)
  | s, [] => .ok (s, none)
  | s, t :: rest =>
    if t.isEof then .ok (s, some t)
    else do feedAll r symbols rule (← r.shift rule s (← lexemeOf symbols t)) rest

/-- Ends the reading of a rule, with the token that ends the input if there is one. -/
def close {σ : Type} (r : Reading σ) (symbols : Symbols) (rule : String) (s : σ) (last : Option Token) :
    Except Failure Tree := do
  match last with
  | some t => r.finish rule s (← lexemeOf symbols t)
  | none => r.finish rule s bareEnd

/-- The tree of a rule over some tokens. -/
def parse {σ : Type} (r : Reading σ) (symbols : Symbols) (rule : String) (tokens : List Token) :
    Except Failure Tree := do
  let (s, last) ← feedAll r symbols rule (← r.begin rule) tokens
  close r symbols rule s last

end GrammarBench.Grammar.Bridge
