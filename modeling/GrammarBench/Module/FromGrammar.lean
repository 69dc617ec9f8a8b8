import GrammarBench.Module.Lexing

/-!
# Classes of a grammar

Every grammar gives a lexer class and a parser class, named after the grammar.

* `GrammarClasses.ofLanguage`: the two classes of a language.
* `GrammarClasses.build`: those of a grammar text.
-/

namespace GrammarBench

structure GrammarClasses where
  lexer : Class
  parser : Class
  language : Grammar.Language
  /-- The rules that the text defines. -/
  rules : List String
  log : List LogLine

namespace GrammarClasses

/-- The rules that can be started with: those of the text, or one of the usual name when it has none. -/
def startsOf (rules : List String) : List String := if rules.isEmpty then ["start"] else rules

/-- The names of the terminals behind an absent one, so that the types of tokens count from one. -/
def symbolList (l : Grammar.Language) : Value :=
  .list (.null :: l.terminals.map fun t => .text t.name)

/-- What both classes of a language hold. -/
def sharedMembers (name : String) (l : Grammar.Language) : List (String × Member) :=
  [("symbolic_names", .value (symbolList l)), ("grammar_name", .value (.text (Text.toLower name)))]

/-- The lexer class and the parser class of a language, with the numbers `id` and `id + 1`; `rules` are the
rules that the parser offers. -/
def ofLanguage (id : Nat) (name home : String) (rules : List String) (l : Grammar.Language) :
    Except Failure GrammarClasses := do
  let label := Grammar.className name
  let lexer ← Class.define
    { id := id, name := label ++ "Lexer", home := home, language := some l
      members := sharedMembers name l ++ [("hidden", .value (.list (l.ignored.map .text)))] }
    [Class.grammarLexer]
  let parser ← Class.define
    { id := id + 1, name := label ++ "Parser", home := home, language := some l
      members := sharedMembers name l ++
        [("rules", .table (rules.map fun r => (r, .grammarRule r)))] }
    [Class.grammarParser]
  return { lexer := lexer, parser := parser, language := l, rules := rules
           log := [⟨.debug, "grunpy.lark.parse", "Grammar '" ++ name ++ "' has rules " ++
             literalTexts rules ++ " and terminals " ++
             literalTexts (l.terminals.map (·.name))⟩] }

/-- The lexer class and the parser class of a grammar text. -/
def build (id : Nat) (name text home : String) (options : List (String × Value)) (shelf : Grammar.Shelf) :
    Except Failure GrammarClasses := do
  let rules := Grammar.ruleNames text
  let (l, log) ← Grammar.Language.build shelf text (startsOf rules) options
  let g ← ofLanguage id name home rules l
  return { g with log := log ++ g.log }

end GrammarClasses

end GrammarBench
