import GrammarBench.Pattern.Reader
import GrammarBench.Value.Shown
import GrammarBench.Failure

/-!
# Options of a grammar

The options with which a grammar is built, each with its default.

* `Options.ofEntries`: the options in a list of entries, or why they are refused.
* `Options.checkChoices`: whether the options that offer a choice make one that is offered.
* `Options.flags`: the flags of all patterns.
-/

namespace GrammarBench.Grammar

structure Options where
  debug : Bool := false
  strict : Bool := false
  keepAll : Bool := false
  cache : Value := .bool false
  ambiguity : Value := .text "auto"
  priority : Value := .text "auto"
  otherPatterns : Bool := false
  propagatePositions : Value := .bool false
  placeholders : Bool := true
  patternFlags : Value := .int 0
  useBytes : Bool := false
  importPaths : List String := []
  sourcePath : Option String := none
  postProcessor : Option Value := none
  terminalEditor : Option Value := none
  deriving Repr, Inhabited

namespace Options

/-- The options that there are and that may be set. -/
def names : List String :=
  ["debug", "strict", "keep_all_tokens", "cache", "cache_grammar", "postlex", "transformer", "priority",
   "ambiguity", "regex", "propagate_positions", "lexer_callbacks", "maybe_placeholders",
   "edit_terminals", "g_regex_flags", "use_bytes", "ordered_sets", "import_paths", "source_path",
   "_plugins"]

def refuse {α : Type} (message : String) : Except Failure α := .error (.fault .configuration message)

/-- The options that are fixed for every grammar. -/
def fixed : List String := ["parser", "lexer", "start", "tree_class"]

/-- The names that are taken by something other than an option. -/
def taken : List String := ["self", "grammar"]

/-- No option may be given that is given already. -/
def checkNotFixed (entries : List (String × Value)) : Except Failure Unit := do
  let names := entries.map (·.1)
  match names.find? fixed.contains with
  | some name =>
    .error (.fault .type ("lark.lark.Lark() got multiple values for keyword argument '" ++ name ++ "'"))
  | none => pure ()
  match taken.find? names.contains with
  | some name =>
    .error (.fault .type ("Lark.__init__() got multiple values for argument '" ++ name ++ "'"))
  | none => pure ()

def notNull (v : Option Value) : Option Value := v.filter (!·.isNull)

/-- The options in a list of entries. Options that are there or not count as set when their value counts
as true. -/
def ofEntries (entries : List (String × Value)) : Except Failure Options := do
  checkNotFixed entries
  let find (name : String) := Ordered.find? name entries
  let flag (name : String) (default : Bool) := ((find name).map Value.truthy).getD default
  if flag "cache_grammar" false && !flag "cache" false then
    refuse "cache_grammar cannot be set when cache is disabled"
  match (entries.map (·.1)).filter (!names.contains ·) with
  | [] => pure ()
  | unknown => refuse ("Unknown options: dict_keys(" ++ literalTexts unknown ++ ")")
  return { debug := flag "debug" false
           strict := flag "strict" false
           keepAll := flag "keep_all_tokens" false
           cache := (find "cache").getD (.bool false)
           ambiguity := (find "ambiguity").getD (.text "auto")
           priority := (find "priority").getD (.text "auto")
           otherPatterns := flag "regex" false
           propagatePositions := (find "propagate_positions").getD (.bool false)
           placeholders := flag "maybe_placeholders" true
           patternFlags := (find "g_regex_flags").getD (.int 0)
           useBytes := flag "use_bytes" false
           importPaths := ((find "import_paths").bind Value.texts?).getD []
           sourcePath := (notNull (find "source_path")).map Value.shown
           postProcessor := notNull (find "postlex")
           terminalEditor := (find "edit_terminals").filter Value.truthy }

/-- What is checked before the grammar text is read. -/
def checkText (o : Options) (text : String) : Except Failure Unit := do
  if o.otherPatterns then
    .error (.fault .importing "`regex` module must be installed if calling `Lark(regex=True)`.")
  if o.useBytes && text.toList.any (128 ≤ ·.toNat) then
    refuse "Grammar must be ascii only, when use_bytes=True"
  if o.cache.truthy then
    match o.cache with
    | .text _ | .bool _ => pure ()
    | _ => refuse "cache argument must be bool or str"

/-- What is checked when the grammar text has been read. -/
def checkChoices (o : Options) : Except Failure Unit := do
  match o.ambiguity with
  | .text "auto" => pure ()
  | _ =>
    refuse "'lalr' doesn't support disambiguation. Use one of these parsers instead: ('earley', 'cyk')"
  match o.priority with
  | .text "auto" | .text "normal" | .text "invert" | .null => pure ()
  | v =>
    refuse ("invalid priority option: " ++ v.literal ++
      ". Must be one of ('auto', 'normal', 'invert', None)")
  match o.postProcessor with
  | some v =>
    .error (.fault .member ("'" ++ v.typeName ++ "' object has no attribute 'always_accept'"))
  | none => pure ()

/-- A priority as the options want it: as it is, negated, or none. -/
def adjusted (o : Options) (priority : Int) : Int :=
  match o.priority with
  | .text "invert" => -priority
  | .null => 0
  | _ => priority

/-- Positions are propagated or not. -/
def checkPositions (o : Options) : Except Failure Unit :=
  match o.propagatePositions with
  | .bool _ => .ok ()
  | v => refuse ("Invalid option for propagate_positions: " ++ v.literal)

def flags (o : Options) : Except Failure Pattern.Flags :=
  match o.patternFlags with
  | .bool b => .ok (.ofMask (if b then 1 else 0))
  | .int n =>
    let bit (i : Nat) : Bool := (n >>> i) % 2 = 1
    if bit 2 then .error (.fault .value "cannot use LOCALE flag with a str pattern")
    else if bit 8 && bit 5 then .error (.fault .value "ASCII and UNICODE flags are incompatible")
    else .ok (.ofMask n.toNat)
  | .list _ => .error (.fault .type "unhashable type: 'list'")
  | .dict _ => .error (.fault .type "unhashable type: 'dict'")
  | v =>
    .error (.fault .type
      ("unsupported operand type(s) for &: '" ++ v.typeName ++ "' and 'RegexFlag'"))

end Options

end GrammarBench.Grammar
