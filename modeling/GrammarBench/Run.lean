import GrammarBench.Loading.Load
import GrammarBench.Module.Choice
import GrammarBench.Module.Invocation
import GrammarBench.Tree.Showing

/-!
# Runs

A run takes a text through the classes of a module: the tokens first, then the tree of a rule.

* `Run.readInput`: the text of an input file.
* `Run.parse`: the run of a text.
* `Run.process`: the run of a file, with its module loaded first.
-/

namespace GrammarBench

structure RunOptions where
  showTokens : Bool := false
  showTree : Bool := false
  config : Option String := none
  deriving Repr

/-- What a run ends with. -/
structure Run where
  tree : Tree
  lexer : Class
  parser : Class
  /-- Whether the parser has been told to build trees. -/
  building : Bool
  /-- The names of the token types as the lexer lists them. -/
  symbols : List Value
  tokens : List Token

namespace Run

def refuseInput (message : String) (details : List String := []) : Failure :=
  .report { kind := .inputFile, message := message, details := details }

def inputText (fs : Files) (path : String) : Except Failure String :=
  match fs.opened path with
  | .error .nullCharacter => .error Failure.nullInPath
  | .error (.fault f) => .error (refuseInput ("Cannot read test file '" ++ path ++ "': " ++ f.reason))
  | .ok c =>
    match Files.textOf c.data with
    | .ok text => .ok (String.ofList text)
    | .error f =>
      .error (refuseInput ("Test file '" ++ path ++ "' is not valid UTF-8: " ++ f.reason.message)
        ["byte offset " ++ toString f.offset])

def readInput (path : String) : Act String := do World.lift (inputText (← get).files path)

/-- A run whose tokens have been read. -/
structure Reading where
  lexer : Class
  parser : Class
  symbols : List Value
  tokens : List Token
  stream : Stream

namespace Reading

def lines (s : Showing) (r : Reading) : Lines := r.tokens.map (s.tokenLine (Class.symbolsOfValues r.symbols))

/-- What comes of the rule, called on a parser that reads the stream. -/
def invocation (r : Reading) (rule : String) : Invocation := (Parser.ofStream r.parser r.stream).invoke rule

/-- What a run ends with when its rule gives a tree. -/
def handoff (r : Reading) (rule : String) (tree : Tree) : Run :=
  { tree := tree, lexer := r.lexer, parser := r.parser, building := (r.invocation rule).building
    symbols := r.symbols, tokens := r.tokens }

/-- The rest of a run: the tokens are shown before the parser is made. -/
def close (o : RunOptions) (r : Reading) (rule : String) (s : Showing := {}) : Act Run := do
  World.printLines o.showTokens (r.lines s)
  World.lift r.parser.checkTakesOne
  World.noteAll (r.invocation rule).log
  let tree ← World.lift (r.invocation rule).result
  World.printLines o.showTree [s.treeLine tree]
  return r.handoff rule tree

end Reading

/-- The classes for a run with the names of the token types; the rule is looked up and the lexer is made, but
nothing is read. -/
def choose (m : Module) (rule : String) (grammar : Option String) : Act (Class × Class × List Value) := do
  let (lexer, parser) ← m.resolve grammar
  let _ ← World.lift (parser.rule rule)
  World.lift lexer.checkTakesOne
  let symbols ← World.lift lexer.symbolValues
  return (lexer, parser, symbols)

/-- The run of a text. -/
def parse (o : RunOptions) (m : Module) (text rule : String) (grammar : Option String) (s : Showing := {}) :
    Act Run := do
  let (lexer, parser, symbols) ← choose m rule grammar
  let (tokens, stream) := (Stream.ofEmission (lexer.emission text)).fill
  let tokens ← World.lift tokens
  World.note .debug "grunpy.harness" ("Read " ++ toString tokens.length ++ " tokens")
  Reading.close o ⟨lexer, parser, symbols, tokens, stream⟩ rule s

/-- The run of a file through the module of a source. -/
def process (o : RunOptions) (source rule path : String) (grammar : Option String) (s : Showing := {}) :
    Act Run := do
  let id ← Loading.loadModule source o.config
  let m := (← get).module id
  World.note .debug "grunpy.harness" ("Loaded grammar module " ++ m.ownName)
  let text ← readInput path
  parse o m text rule grammar s

end Run

end GrammarBench
