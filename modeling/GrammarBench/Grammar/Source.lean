import GrammarBench.Grammar.Machine

/-!
# Grammar texts

The form of grammar texts, itself given by terminals and productions, and the messages about texts that do
not have that form. A message is found by example: each label stands for some broken texts, and a broken
text gets the label of one that breaks in the same state.

* `Source.machine`: the scanner and the automaton of grammar texts.
* `Source.read`: the tree of a grammar text, or where its reading stops.
* `Source.parse`: the same with the stop put into words.
-/

namespace GrammarBench.Grammar.Source

/-! ## The form of grammar texts -/

def terminals : List (String × String) :=
  [("_LPAR", "\\("), ("_RPAR", "\\)"), ("_LBRA", "\\["), ("_RBRA", "\\]"),
   ("_LBRACE", "\\\x7b"), ("_RBRACE", "\\\x7d"),
   ("OP", "[+*]|[?](?![a-z_])"), ("_COLON", ":"), ("_COMMA", ","), ("_OR", "\\|"),
   ("_DOT", "\\.(?!\\.)"), ("_DOTDOT", "\\.\\."), ("TILDE", "~"),
   ("RULE_MODIFIERS", "(!|![?]?|[?]!?)(?=[_a-z])"),
   ("RULE", "_?[a-z][_a-z0-9]*"), ("TERMINAL", "_?[A-Z][_A-Z0-9]*"),
   ("STRING", "\"(\\\\\"|\\\\\\\\|[^\"\\n])*?\"i?"),
   ("REGEXP", "/(?!/)(\\\\/|\\\\\\\\|[^/])*?/[imslux]*"),
   ("_NL", "(\\r?\\n)+\\s*"), ("_NL_OR", "(\\r?\\n)+\\s*\\|"),
   ("WS", "[ \\t]+"), ("COMMENT", "\\s*//[^\\n]*|\\s*#[^\\n]*"), ("BACKSLASH", "\\\\[ ]*\\n"),
   ("_TO", "->"), ("_IGNORE", "%ignore"), ("_OVERRIDE", "%override"), ("_DECLARE", "%declare"),
   ("_EXTEND", "%extend"), ("_IMPORT", "%import"), ("NUMBER", "[+-]?\\d+")]

def ignored : List String := ["WS", "COMMENT", "BACKSLASH"]

/-- A terminal that has its place in the tree. -/
def kept (name : String) : Item := ⟨.terminal name, false⟩

/-- A terminal that leaves nothing in the tree. -/
def mark (name : String) : Item := ⟨.terminal name, true⟩

def part (name : String) : Item := ⟨.rule name, false⟩

/-- A rule with all the ways to make it; a tree of a collapsing rule that has one child is replaced by that
child. -/
structure Form where
  name : String
  collapse : Bool := false
  ways : List (List Item)

def forms : List Form := [
  { name := "start", ways := [[part "_list"]] },
  { name := "_list", ways := [[part "_item"], [part "_list", part "_item"]] },
  { name := "_item"
    ways := [[part "rule"], [part "term"], [part "ignore"], [part "import"], [part "declare"],
      [part "override"], [part "extend"], [mark "_NL"]] },
  { name := "rule"
    ways := [[part "rule_modifiers", kept "RULE", part "template_params", part "priority",
      mark "_COLON", part "expansions", mark "_NL"]] },
  { name := "rule_modifiers", ways := [[kept "RULE_MODIFIERS"], []] },
  { name := "priority", ways := [[mark "_DOT", kept "NUMBER"], []] },
  { name := "template_params", ways := [[mark "_LBRACE", part "_template_params", mark "_RBRACE"], []] },
  { name := "_template_params"
    ways := [[kept "RULE"], [part "_template_params", mark "_COMMA", kept "RULE"]] },
  { name := "expansions", ways := [[part "_expansions"]] },
  { name := "_expansions"
    ways := [[part "alias"], [part "_expansions", mark "_OR", part "alias"],
      [part "_expansions", mark "_NL_OR", part "alias"]] },
  { name := "alias", collapse := true
    ways := [[part "expansion", mark "_TO", part "nonterminal"], [part "expansion"]] },
  { name := "expansion", ways := [[part "_expansion"]] },
  { name := "_expansion", ways := [[], [part "_expansion", part "expr"]] },
  { name := "expr", collapse := true
    ways := [[part "atom"], [part "atom", kept "OP"], [part "atom", kept "TILDE", kept "NUMBER"],
      [part "atom", kept "TILDE", kept "NUMBER", mark "_DOTDOT", kept "NUMBER"]] },
  { name := "atom", collapse := true
    ways := [[mark "_LPAR", part "expansions", mark "_RPAR"], [part "maybe"], [part "value"]] },
  { name := "value"
    ways := [[part "terminal"], [part "nonterminal"], [part "literal"], [part "range"],
      [part "template_usage"]] },
  { name := "terminal", ways := [[kept "TERMINAL"]] },
  { name := "nonterminal", ways := [[kept "RULE"]] },
  { name := "name", collapse := true, ways := [[kept "RULE"], [kept "TERMINAL"]] },
  { name := "symbol", collapse := true, ways := [[part "terminal"], [part "nonterminal"]] },
  { name := "maybe", ways := [[mark "_LBRA", part "expansions", mark "_RBRA"]] },
  { name := "range", ways := [[kept "STRING", mark "_DOTDOT", kept "STRING"]] },
  { name := "template_usage"
    ways := [[part "nonterminal", mark "_LBRACE", part "_template_args", mark "_RBRACE"]] },
  { name := "_template_args"
    ways := [[part "value"], [part "_template_args", mark "_COMMA", part "value"]] },
  { name := "term"
    ways := [[kept "TERMINAL", mark "_COLON", part "expansions", mark "_NL"],
      [kept "TERMINAL", mark "_DOT", kept "NUMBER", mark "_COLON", part "expansions", mark "_NL"]] },
  { name := "override", ways := [[mark "_OVERRIDE", part "rule"], [mark "_OVERRIDE", part "term"]] },
  { name := "extend", ways := [[mark "_EXTEND", part "rule"], [mark "_EXTEND", part "term"]] },
  { name := "ignore", ways := [[mark "_IGNORE", part "expansions", mark "_NL"]] },
  { name := "declare", ways := [[mark "_DECLARE", part "_declare_args", mark "_NL"]] },
  { name := "import"
    ways := [[mark "_IMPORT", part "_import_path", mark "_NL"],
      [mark "_IMPORT", part "_import_path", mark "_LPAR", part "name_list", mark "_RPAR", mark "_NL"],
      [mark "_IMPORT", part "_import_path", mark "_TO", part "name", mark "_NL"]] },
  { name := "_import_path", ways := [[part "import_lib"], [part "import_rel"]] },
  { name := "import_lib", ways := [[part "_import_args"]] },
  { name := "import_rel", ways := [[mark "_DOT", part "_import_args"]] },
  { name := "_import_args", ways := [[part "name"], [part "_import_args", mark "_DOT", part "name"]] },
  { name := "name_list", ways := [[part "_name_list"]] },
  { name := "_name_list", ways := [[part "name"], [part "_name_list", mark "_COMMA", part "name"]] },
  { name := "_declare_args", ways := [[part "symbol"], [part "_declare_args", part "symbol"]] },
  { name := "literal", ways := [[kept "REGEXP"], [kept "STRING"]] }]

def productions : List Production :=
  forms.flatMap fun f => f.ways.map fun items =>
    { origin := f.name, items := items, options := { collapse := f.collapse } }

structure Machine where
  scanner : Scanner
  automaton : Automaton

/-- The machine that reads grammar texts. -/
def build : Except Failure Machine := do
  let scanner ← Scanner.ofTerminals {} (terminals.map fun (name, regexp) =>
    { name := name, pattern := { isLiteral := false, value := regexp } })
  let (automaton, _) ← Automaton.ofProductions productions ["start"] {}
  return ⟨scanner, automaton⟩

def machine : Except Failure Machine := build

/-! ## Reading -/

/-- Where the reading of a text stops before its end. -/
inductive Halt where
  /-- No terminal matches. -/
  | lexical (place : Place)
  /-- A lexeme cannot stand where it stands. -/
  | syntactic (lexeme : Lexeme) (stack : Stack)
  | other (failure : Failure)
  deriving Repr

def endAfter : Option Lexeme → Lexeme
  | some last => { last with terminal := Automaton.endName, text := "" }
  | none =>
    { terminal := Automaton.endName, text := "", start := some 0, line := some 1, column := some 1 }

/-- The tree of some lexemes. -/
def run (a : Automaton) : Option Lexeme → Stack → List (Except Failure Lexeme) → Except Halt Tree
  | last, s, [] =>
    let l := endAfter last
    match s.feedFor a "start" l.terminal (.lexeme l) with
    | .finished t => .ok t
    | .refused s => .error (.syntactic l s)
    | _ => .error (.other endlessReading)
  | last, s, .ok l :: rest =>
    if ignored.contains l.terminal then run a last s rest
    else
      match s.feedFor a "start" l.terminal (.lexeme l) with
      | .taken s => run a (some l) s rest
      | .refused s => .error (.syntactic l s)
      | _ => .error (.other endlessReading)
  | _, _, .error (.unlexable place _) :: _ => .error (.lexical place)
  | _, _, .error f :: _ => .error (.other f)

def read (m : Machine) (text : String) : Except Halt Tree :=
  match m.automaton.begin? "start" with
  | some s => run m.automaton none s (m.scanner.scan text)
  | none => .error (.other endlessReading)

/-! ## Messages -/

/-- The labels, each with the broken texts that it stands for. -/
def examples : List (String × List String) :=
  [("Incorrect type of value", ["a: 1\n"]),
   ("Unclosed parenthesis", ["a: (\n"]),
   ("Unmatched closing parenthesis", ["a: )\n", "a: [)\n", "a: (]\n"]),
   ("Expecting rule or terminal definition (missing colon)",
     ["a\n", "A\n", "a->\n", "A->\n", "a A\n"]),
   ("Illegal name for rules or terminals", ["Aa:\n"]),
   ("Alias expects lowercase name", ["a: -> \"a\"\n"]),
   ("Unexpected colon", ["a::\n", "a: b:\n", "a: B:\n", "a: \"a\":\n"]),
   ("Misplaced operator", ["a: b??", "a: b(?)", "a:+\n", "a:?\n", "a:*\n", "a:|*\n"]),
   ("Expecting option (\"|\") or a new rule or terminal definition", ["a:a\n()\n"]),
   ("Terminal names cannot contain dots", ["A.B\n"]),
   ("Expecting rule or terminal definition", ["\"a\"\n"]),
   ("%import expects a name", ["%import \"a\"\n"]),
   ("%ignore expects a value", ["%ignore %import\n"])]

/-- How alike two halts are: not at all, in their state, or in their lexeme too. -/
inductive Likeness where
  | none
  | state
  | lexeme
  deriving DecidableEq, Repr

def likeness (m : Machine) (l : Lexeme) (s : Stack) : Except Halt Tree → Likeness
  | .error (.syntactic l' s') =>
    if s.states.length = s'.states.length && s.states.head? = s'.states.head? &&
        s.accepted m.automaton "start" = s'.accepted m.automaton "start" then
      if l.terminal = l'.terminal && l.text = l'.text then .lexeme else .state
    else .none
  | _ => .none

/-- The label for a halt: that of an example with the same lexeme in the same state, else the first one of
an example in the same state. -/
def label? (m : Machine) (l : Lexeme) (s : Stack) : Option String :=
  let found := examples.flatMap fun (label, texts) =>
    texts.map fun text => (label, likeness m l s (read m text))
  match found.find? (·.2 = .lexeme) with
  | some (label, _) => some label
  | none => (found.find? (·.2 = .state)).map (·.1)

def shownNumber (n : Option Int) : String := toString (n.getD 0)

/-- The text about the place of a lexeme. -/
def contextOf (text : String) (l : Lexeme) : String :=
  Text.around text.toList (l.start.getD 0).toNat

/-- The failure that a halt in the text of a grammar ends with. -/
def failureOf (m : Machine) (text name : String) : Halt → Failure
  | .other f => f
  | .lexical place =>
    .fault .grammar ("Unexpected input at line " ++ shownNumber place.line ++ " column " ++
      shownNumber place.column ++ " in " ++ name ++ ": \n\n" ++
      Text.around text.toList (place.offset.getD 0).toNat)
  | .syntactic l s =>
    let place := " at line " ++ shownNumber l.line ++ " column " ++ shownNumber l.column ++ "\n\n" ++
      contextOf text l
    match label? m l s with
    | some label => .fault .grammar (label ++ "," ++ place)
    | none =>
      if (s.expected m.automaton).contains "STRING" then .fault .grammar ("Expecting a value" ++ place)
      else
        let accepted := s.accepted m.automaton "start"
        unexpected l (if accepted.isEmpty then s.expected m.automaton else accepted)

/-- The tree of a grammar text, which is read with a newline added. -/
def parse (text name : String) : Except Failure Tree := do
  let m ← machine
  match read m (text ++ "\n") with
  | .ok t => return t
  | .error halt => .error (failureOf m text name halt)

end GrammarBench.Grammar.Source
