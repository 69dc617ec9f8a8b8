import GrammarBench.Text.Quoted

/-!
# Options of the command line

* `Key`: the options that there are, with their names, what they take and what they are for.
* `usage`, `help`: the texts about them.
-/

namespace GrammarBench.CommandLine

inductive Key where
  | help
  | source
  | grammar
  | rule
  | test
  | config
  | tokens
  | tree
  | pretty
  | verbose
  deriving DecidableEq, Repr

inductive Arity where
  | none
  | one
  | atMostOne
  deriving DecidableEq, Repr

namespace Key

/-- In the order in which help lists them. -/
def all : List Key := [help, source, grammar, rule, test, config, tokens, tree, pretty, verbose]

def names : Key → List String
  | help => ["-h", "--help"]
  | source => ["-s", "--source-path"]
  | grammar => ["-g", "--grammar-name"]
  | rule => ["-r", "--rule-name"]
  | test => ["-f", "--test-file"]
  | config => ["-c", "--config"]
  | tokens => ["--tokens"]
  | tree => ["--tree"]
  | pretty => ["--pretty"]
  | verbose => ["-v", "--verbose"]

def arity : Key → Arity
  | help | verbose => .none
  | source | grammar | rule | test | config => .one
  | tokens | tree | pretty => .atMostOne

def required : List Key := [source, rule, test]

def valueName : Key → String
  | source => "SOURCE_PATH"
  | grammar => "GRAMMAR_NAME"
  | rule => "RULE_NAME"
  | test => "TEST_FILE"
  | config => "CONFIG"
  | tokens => "TOKENS"
  | tree => "TREE"
  | pretty => "PRETTY"
  | help | verbose => ""

def purpose : Key → String
  | help => "show this help message and exit"
  | source => "Grammar source directory, .lark file, module file or importable module name (default: None)"
  | grammar =>
    "Grammar name, picks one grammar when the module holds several (default: None)"
  | rule => "Start rule name (default: None)"
  | test => "Test file path (default: None)"
  | config => "Explicit config file (grunpy.json) location (default: None)"
  | tokens => "Whether to print the tokens (default: False)"
  | tree => "Whether to print the parse tree (default: False)"
  | pretty => "Whether to render the parse tree with rich (default: False)"
  | verbose => "Log what the harness is doing (default: False)"

/-- An option as messages name it. -/
def shown (k : Key) : String := "/".intercalate k.names

def named : List (String × Key) := all.flatMap fun k => k.names.map fun n => (n, k)

def ofName? (name : String) : Option Key := named.lookup name

/-- A name with the value that it takes, as help writes it. -/
def withValue (k : Key) (name : String) : String :=
  match k.arity with
  | .none => name
  | .one => name ++ " " ++ k.valueName
  | .atMostOne => name ++ " [" ++ k.valueName ++ "]"

/-- An option as the usage line writes it: by its first name, in brackets unless it has to be given. -/
def brief (k : Key) : String :=
  let text := k.withValue (k.names.head?.getD "")
  if required.contains k then text else "[" ++ text ++ "]"

end Key

/-! ## Texts -/

def programName : String := "grunpy"

def columns : Nat := 98

def purposeColumn : Nat := 24

/-- Words put into lines of some width; `first` columns of the first line are taken already. -/
def fill (width first : Nat) (words : List String) : List String :=
  let step := fun (lines : List String × String × Nat) (word : String) =>
    let (done, line, used) := lines
    if line = "" then (done, word, used + word.length)
    else if width < used + 1 + word.length then (done ++ [line], word, first + word.length)
    else (done, line ++ " " ++ word, used + 1 + word.length)
  let (done, line, _) := words.foldl step ([], "", first)
  done ++ [line]

def blanks (n : Nat) : String := String.ofList (List.replicate n ' ')

def usage : String :=
  let lead := "usage: " ++ programName ++ " "
  let lines := fill columns lead.length (Key.all.map Key.brief)
  lead ++ ("\n" ++ blanks lead.length).intercalate lines ++ "\n"

def Key.lines (k : Key) : List String :=
  let head := "  " ++ ", ".intercalate (k.names.map k.withValue)
  let purpose := fill (columns - purposeColumn) 0 (k.purpose.splitOn " ")
  if head.length + 2 ≤ purposeColumn then
    match purpose with
    | [] => [head]
    | first :: rest =>
      (head ++ blanks (purposeColumn - head.length) ++ first) ::
        rest.map (blanks purposeColumn ++ ·)
  else head :: purpose.map (blanks purposeColumn ++ ·)

def summary : String := "Run a grammar module over a test file and show its tokens and parse tree"

def help : String :=
  usage ++ "\n" ++ summary ++ "\n\noptions:\n" ++
    "\n".intercalate (Key.all.flatMap Key.lines) ++ "\n"

end GrammarBench.CommandLine
