import GrammarBench.Failure
import GrammarBench.Log
import GrammarBench.Value.Reader

/-!
# Configuration

Which files of a directory make up a grammar module, what they refer to, and the options for their
grammars.

* `Config.ofValue`: the configuration in an object, with its absent fields filled in.
* `Value.read`: the value that the text of a file writes.
-/

namespace GrammarBench

def defaultPatterns : List String := ["*.py", "*.lark"]

structure Config where
  patterns : List String := defaultPatterns
  references : List String := []
  /-- Options for the grammars, in the order given. -/
  options : List (String × Value) := []
  path : Option String := none
  deriving Repr

namespace Config

def fileName : String := "grunpy.json"

def reserved : List String := ["lexer", "parser", "start", "tree_class"]

def knownKeys : List String := ["include", "references", "lark_options"]

def shownPath (path : Option String) : String := path.getD "None"

def refuse {α : Type} (message : String) : Except Report α := .error { kind := .config, message := message }

/-- A list of texts, or nothing when the field is absent or null. -/
def textsField (field : Option Value) (fault : String) : Except Report (Option (List String)) :=
  match field with
  | none | some .null => .ok none
  | some v =>
    match v.texts? with
    | some texts => .ok (some texts)
    | none => refuse fault

def unknownKeys : Value → List String
  | .dict entries => Report.sorted ((entries.map (·.1)).filter (· ∉ knownKeys))
  | _ => []

/-- The options of an object, none of them a reserved one. -/
def optionsField (field : Option Value) (shown : String) : Except Report (List (String × Value)) :=
  match field with
  | none | some .null => .ok []
  | some (.dict entries) =>
    match reserved.filter fun key => entries.any (·.1 = key) with
    | [] => .ok entries
    | keys => refuse ("'lark_options' in '" ++ shown ++ "' cannot set " ++ literalTexts keys)
  | some _ => refuse ("'lark_options' in '" ++ shown ++ "' must be an object")

/-- The configuration in an object. A lone pattern stands for a list of one. -/
def ofValue (path : Option String) (value : Value) : Except Report Config :=
  match value with
  | .dict entries => do
    let shown := shownPath path
    let patterns := match Ordered.find? "include" entries with
      | some (.text s) => some (.list [.text s])
      | field => field
    let patterns ← textsField patterns ("'include' in '" ++ shown ++ "' must be a list of glob patterns")
    let references ← textsField (Ordered.find? "references" entries)
      ("'references' in '" ++ shown ++ "' must be a list of strings")
    let options ← optionsField (Ordered.find? "lark_options" entries) shown
    return { patterns := patterns.getD defaultPatterns
             references := references.getD []
             options := options
             path := path }
  | _ => refuse ("Config '" ++ shownPath path ++ "' must hold a JSON object")

def warnings (path : Option String) (value : Value) : List LogLine :=
  match unknownKeys value with
  | [] => []
  | keys =>
    [⟨.warning, "grunpy.config",
      "Ignoring unknown config keys in '" ++ shownPath path ++ "': " ++ literalTexts keys⟩]

def shown (c : Config) : String :=
  "Config(include=" ++ literalTexts c.patterns ++ ", references=" ++ literalTexts c.references ++
    ", lark_options=" ++ (Value.dict c.options).literal ++ ")"

end Config

/-- The value that a text writes; an integer of too many digits is a fault of its own. -/
def Value.read (text : List Char) (describe : String → Failure) : Except Failure Value :=
  match Value.parse text with
  | .ok v => .ok v
  | .error f =>
    match f.defect with
    | .tooManyDigits _ => .error (.fault .value f.defect.message)
    | _ => .error (describe (f.message text))

end GrammarBench
