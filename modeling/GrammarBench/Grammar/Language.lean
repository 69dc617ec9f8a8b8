import GrammarBench.Grammar.Compile
import GrammarBench.Grammar.Options
import GrammarBench.Grammar.RuleNames

/-!
# Languages

A language is a grammar that has been built: it cuts texts into lexemes and makes trees out of them.

* `Language.build`: the language of a grammar text, or the failure.
* `Language.findings`, `Language.lexemes`: the lexemes of a text, ignored ones included, with and without
  the terminals that found them.
* `Language.begin`, `Language.shift`, `Language.finish`: the reading of a start rule, step by step.
* `Reading`: any such reading.
-/

namespace GrammarBench.Grammar

/-- A reading of start rules that is fed one lexeme at a time. -/
structure Reading (σ : Type) where
  /-- What the reading of a start rule begins with. -/
  begin : String → Except Failure σ
  /-- A lexeme taken, or refused. -/
  shift : String → σ → Lexeme → Except Failure σ
  /-- The tree when a lexeme ends the reading. -/
  finish : String → σ → Lexeme → Except Failure Tree

structure Language where
  /-- The terminals in the order of their definition. -/
  terminals : List Terminal
  /-- The names of the terminals that the grammar ignores. -/
  ignored : List String
  flags : Pattern.Flags
  useBytes : Bool
  automaton : Automaton
  starts : List String

namespace Language

/-- The production without gaps when absent parts leave nothing. -/
def withoutGaps (placeholders : Bool) (p : Production) : Production :=
  if placeholders then p else { p with gaps := [] }

/-- The production with its priority as the options want it. -/
def withPriority (o : Options) (p : Production) : Production :=
  { p with options := { p.options with priority :=
      match o.priority with
      | .null => none
      | _ => p.options.priority.map o.adjusted } }

/-- The language of a grammar text for some start rules, with the lines noted down while it was built. -/
def build (shelf : Shelf) (text : String) (starts : List String) (entries : List (String × Value)) :
    Except Failure (Language × List LogLine) := do
  let o ← Options.ofEntries entries
  o.checkText text
  let shelf := { shelf with directories := o.importPaths ++ shelf.directories }
  let book ← Book.ofText shelf o.keepAll text (o.sourcePath.getD "<string>")
  o.checkChoices
  let compiled ← book.compile starts
  match o.terminalEditor with
  | some v =>
    if !compiled.terminals.isEmpty then
      .error (.fault .type ("'" ++ v.typeName ++ "' object is not callable"))
  | none => pure ()
  let terminals := compiled.terminals.map fun t => { t with priority := o.adjusted t.priority }
  let productions := compiled.productions.map fun p =>
    withPriority o (withoutGaps o.placeholders p)
  o.checkPositions
  let (automaton, log) ← Automaton.ofProductions productions starts
    { strict := o.strict, loud := o.debug }
  let flags ← if terminals.isEmpty then pure {} else o.flags
  Scanner.check flags terminals compiled.ignored
  if o.strict then
    Scanner.refuse
      "interegular must be installed for strict mode. Use `pip install 'lark[interegular]'`."
  return ({ terminals := terminals
            ignored := compiled.ignored
            flags := flags
            useBytes := o.useBytes
            automaton := automaton
            starts := starts }, compiled.log ++ log)

/-- The lexemes of a text with the terminals that found them, ignored ones included. -/
def findings (l : Language) (text : String) : List (Except Failure Scanner.Finding) :=
  if text = "" then []
  else if l.useBytes then [.error (.fault .type "cannot use a bytes pattern on a string-like object")]
  else
    match Scanner.ofTerminals l.flags l.terminals with
    | .ok sc => sc.findings text
    | .error f => [.error f]

/-- The lexemes of a text, ignored ones included. -/
def lexemes (l : Language) (text : String) : List (Except Failure Lexeme) :=
  (l.findings text).map fun f => f.map Scanner.Finding.lexeme

/-! ## Reading a start rule -/

/-- The stack with which the reading of a start rule begins. -/
def begin (l : Language) (rule : String) : Except Failure Stack :=
  match (if l.starts.contains rule then l.automaton.begin? rule else none) with
  | some s => .ok s
  | none =>
    .error (.fault .configuration
      ("Unknown start rule " ++ rule ++ ". Must be one of " ++ literalTexts l.starts))

/-- The stack with a lexeme taken. -/
def shift (l : Language) (rule : String) (s : Stack) (x : Lexeme) : Except Failure Stack :=
  match s.feedFor l.automaton rule x.terminal (.lexeme x) with
  | .taken s => .ok s
  | .refused s => .error (unexpected x (s.expected l.automaton))
  | _ => .error endlessReading

/-- The tree when a lexeme ends the reading. -/
def finish (l : Language) (rule : String) (s : Stack) (x : Lexeme) : Except Failure Tree :=
  match s.feedFor l.automaton rule x.terminal (.lexeme x) with
  | .finished t => .ok t
  | .refused s => .error (unexpected x (s.expected l.automaton))
  | _ => .error endlessReading

def reading (l : Language) : Reading Stack := ⟨l.begin, l.shift, l.finish⟩

end Language

end GrammarBench.Grammar
