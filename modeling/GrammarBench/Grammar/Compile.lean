import GrammarBench.Grammar.Book
import GrammarBench.Grammar.Expansion

/-!
# Compiling a book

From definitions to terminals and productions: literals in rules become terminals with names of their own,
templates become rules for the arguments they are used with, repetitions become rules and choices, and
what no start rule needs is left out.

* `Naming.itemFor`: the terminal of a literal in a rule.
* `Templates.ruleFor`: the rule of a template for some arguments.
* `Book.compile`: the terminals and productions of a book.
-/

namespace GrammarBench.Grammar

def refuseGrammar {α : Type} (message : String) : Except Failure α := .error (.fault .grammar message)

/-! ## Names of literals -/

def punctuation : List (String × String) :=
  [(".", "DOT"), (",", "COMMA"), (":", "COLON"), (";", "SEMICOLON"), ("+", "PLUS"), ("-", "MINUS"),
   ("*", "STAR"), ("/", "SLASH"), ("\\", "BACKSLASH"), ("|", "VBAR"), ("?", "QMARK"), ("!", "BANG"),
   ("@", "AT"), ("#", "HASH"), ("$", "DOLLAR"), ("%", "PERCENT"), ("^", "CIRCUMFLEX"),
   ("&", "AMPERSAND"), ("_", "UNDERSCORE"), ("<", "LESSTHAN"), (">", "MORETHAN"), ("=", "EQUAL"),
   ("\"", "DBLQUOTE"), ("'", "QUOTE"), ("\x60", "BACKQUOTE"), ("~", "TILDE"), ("(", "LPAR"),
   (")", "RPAR"), ("\x7b", "LBRACE"), ("\x7d", "RBRACE"), ("[", "LSQB"), ("]", "RSQB"),
   ("\n", "NEWLINE"), ("\r\n", "CRLF"), ("\t", "TAB"), (" ", "SPACE")]

/-- The terminals so far, and how many of them are nameless. -/
structure Naming where
  terminals : List Terminal
  nameless : Nat := 0
  deriving Repr, Inhabited

namespace Naming

def has (n : Naming) (name : String) : Bool := n.terminals.any (·.name = name)

def isIdentifier (s : String) : Bool :=
  s.toList.head?.any Text.startsName && s.toList.all Text.continuesName

/-- The name that a literal text suggests, if it is free. -/
def suggested (n : Naming) (value : String) : Option String :=
  let name :=
    match punctuation.lookup value with
    | some name => some name
    | none => if isIdentifier value then some (Text.toUpper value) else none
  name.filter fun name => !n.has name

/-- The item of a pattern in a rule: the terminal with the same pattern, or a new one. A literal text is
dropped from trees unless its rule keeps all. -/
def itemFor (n : Naming) (keepAll : Bool) (p : TerminalPattern) : Item × Naming :=
  let dropped := p.isLiteral && !keepAll
  match n.terminals.reverse.find? fun t => t.pattern.same p with
  | some t => (⟨.terminal t.name, dropped⟩, n)
  | none =>
    match (if p.isLiteral then n.suggested p.value else none) with
    | some name =>
      (⟨.terminal name, dropped⟩, { n with terminals := n.terminals ++ [{ name := name, pattern := p }] })
    | none =>
      let name := "__ANON_" ++ toString n.nameless
      (⟨.terminal name, dropped⟩,
        { terminals := n.terminals ++ [{ name := name, pattern := p }], nameless := n.nameless + 1 })

end Naming

/-! ## Templates -/

/-- A rule that is to be compiled. -/
structure RuleDef where
  name : String
  params : List String := []
  body : Phrase
  options : RuleOptions := {}
  deriving Repr, Inhabited

/-- The rules to be compiled and the templates among them that have been made into rules. -/
structure Templates where
  rules : List RuleDef
  made : List String := []
  deriving Repr, Inhabited

def argumentName : Phrase → String
  | .symbol i => i.symbol.name
  | _ => ""

/-- Parameters replaced by arguments. -/
def fillIn (args : List (String × Phrase)) (p : Phrase) : Phrase :=
  Id.run (p.mapLevels fun q =>
    match q with
    | .value (.symbol i) => (args.lookup i.symbol.name).getD q
    | .template name ps => .template (((args.lookup name).map argumentName).getD name) ps
    | q => q)

/-- The rule of a template for some arguments, made if it is new. -/
def Templates.ruleFor (t : Templates) (name : String) (args : List Phrase) :
    Except Failure (String × Templates) :=
  let made := name ++ "\x7b" ++ ",".intercalate (args.map argumentName) ++ "\x7d"
  if t.made.contains made then .ok (made, t)
  else
    match t.rules.find? (·.name = name) with
    | none => .error (Literal.failedVisit "template_usage" "not enough values to unpack (expected 1, got 0)")
    | some d =>
      if d.params.length ≠ args.length then
        .error (Literal.failedVisit "template_usage"
          ("[" ++ ", ".intercalate (args.map shownPhrase) ++ "]"))
      else
        .ok (made,
          { made := t.made ++ [made]
            rules := t.rules ++
              [{ name := made, body := fillIn (d.params.zip args) d.body, options := d.options }] })

/-! ## Rules -/

/-- What has been made so far. -/
structure Workbench where
  naming : Naming
  templates : Templates
  workshop : Workshop := {}
  /-- The rules with their phrases expanded. -/
  done : List (String × Phrase × RuleOptions) := []
  deriving Repr, Inhabited

/-- A value replaced by what it consists of. -/
def unwrap : Phrase → Phrase
  | .value p => p
  | p => p

/-- The phrase of a rule with literals replaced by terminals, templates by rules, and repetitions by rules
and choices. -/
def Workbench.expand (w : Workbench) (d : RuleDef) : Except Failure Workbench := do
  let body ← d.body.mapLevels Literal.resolve
  let body := Id.run (body.mapLevels (m := Id) fun p => pure (unwrap p))
  let (body, naming) := (body.mapLevels (m := StateM Naming) fun p =>
    match p with
    | .pattern q => fun n =>
      let (item, n) := n.itemFor d.options.keepAll q
      (.symbol item, n)
    | p => pure p) w.naming
  let (body, templates) ← (body.mapLevels (m := StateT Templates (Except Failure)) fun p =>
    match p with
    | .template name args => fun t => do
      let (made, t) ← t.ruleFor name args
      return (Workshop.symbolOf made, t)
    | p => pure p) w.templates
  let shop := { w.workshop with owner := d.name, keepAll := d.options.keepAll }
  let (body, shop) ← (body.mapLevels Workshop.replace).run shop
  return { naming := naming, templates := templates, workshop := shop
           done := w.done ++ [(d.name, body, d.options)] }

/-- More rules than any grammar of use has. -/
def ruleLimit : Nat := 100000

/-- Expands the rules from a number on; templates are not expanded themselves, but may add rules. -/
def Workbench.expandAll : Nat → Nat → Workbench → Except Failure Workbench
  | 0, _, w => .ok w
  | rounds + 1, n, w =>
    match w.templates.rules[n]? with
    | none => .ok w
    | some d =>
      if d.params.isEmpty then do expandAll rounds (n + 1) (← w.expand d)
      else expandAll rounds (n + 1) w

/-! ## Productions -/

/-- For each place before, between and behind the items of a way, the number of absent parts there. -/
def gapsOf : List Phrase → List Nat
  | [] => [0]
  | .absent :: rest =>
    match gapsOf rest with
    | n :: ns => (n + 1) :: ns
    | [] => [1]
  | _ :: rest => 0 :: gapsOf rest

def itemsOf (keepAll : Bool) (ps : List Phrase) : Except Failure (List Item) :=
  (ps.filter fun p => match p with | .absent => false | _ => true).mapM fun p =>
    match p with
    | .symbol i => .ok { i with dropped := i.dropped && !keepAll }
    | _ => .error (.fault .assertion "")

/-- The production of one way to make a rule. -/
def productionOf (origin : String) (options : RuleOptions) (w : Phrase.Way) :
    Except Failure Production := do
  match w.name with
  | some name =>
    if origin.startsWith "_" then
      refuseGrammar ("Rule " ++ origin ++ " is marked for expansion (it starts with an underscore) and " ++
        "isn't allowed to have aliases (alias=" ++ name ++ ")")
  | none => pure ()
  let gaps := gapsOf w.items
  return { origin := origin
           items := ← itemsOf options.keepAll w.items
           givenName := w.name
           options := options
           gaps := if gaps.all (· = 0) then [] else gaps }

/-- The productions of a rule with its phrase expanded. -/
def productionsOf (rule : String × Phrase × RuleOptions) : Except Failure (List Production) := do
  (← rule.2.1.simplify.ways).mapM (productionOf rule.1 rule.2.2)

/-- Productions without those that say the same as one before; only empty ones may. -/
def withoutDuplicates (ps : List Production) : Except Failure (List Production) :=
  match ps.find? fun p => !p.items.isEmpty && 1 < (ps.countP (·.same p)) with
  | some p =>
    refuseGrammar ("Rules defined twice: " ++
      String.join ((ps.filter (·.same p)).map fun q => "\n  * " ++ q.shown) ++
      "\n\n(Might happen due to colliding expansion of optionals: [] or ?)")
  | none => .ok (ps.foldl (fun out p => if out.any (·.same p) then out else out ++ [p]) [])

/-- The rules that some production other than their own uses, and the start rules. -/
def usedRules (starts : List String) (ps : List Production) : List String :=
  starts ++ ps.flatMap fun p => p.symbols.filterMap fun s =>
    match s with
    | .rule r => if r = p.origin then none else some r
    | .terminal _ => none

/-- The productions of the rules that are used, and the others, in the order in which they are left out. -/
def dropUnused (starts : List String) :
    Nat → List Production → List Production → List Production × List Production
  | 0, ps, dropped => (ps, dropped)
  | rounds + 1, ps, dropped =>
    let used := usedRules starts ps
    let (kept, unused) := ps.partition fun p => used.contains p.origin
    if unused.isEmpty then (ps, dropped) else dropUnused starts rounds kept (dropped ++ unused)

/-! ## The whole book -/

/-- What a book is compiled to. -/
structure Compiled where
  terminals : List Terminal
  productions : List Production
  ignored : List String
  log : List LogLine
  deriving Repr, Inhabited

def checkNotEmpty (name : String) (body : Phrase) : Except Failure Unit :=
  let sequences := body.flatten.filterMap fun p =>
    match p with
    | .sequence ps => some ps
    | _ => none
  match sequences with
  | [[]] => refuseGrammar ("Terminals cannot be empty (" ++ name ++ ")")
  | _ => .ok ()

/-- The terminals of a book, declared ones left out. -/
def Book.terminals (b : Book) : Except Failure (List Terminal) := do
  let defined := b.definitions.filterMap fun (name, d) =>
    if d.isTerminal then d.body.map fun body => (name, body, d.priority) else none
  defined.forM fun (name, body, _) => checkNotEmpty name body
  defined.mapM fun (name, body, priority) => do
    let body ← body.mapLevels Literal.resolve
    return { name := name, pattern := ← Literal.toPattern body, priority := priority }

/-- The rules of a book; a declared rule has nothing to be compiled. -/
def Book.rules (b : Book) : Except Failure (List RuleDef) :=
  b.definitions.filterMapM fun (name, d) =>
    if d.isTerminal then .ok none
    else match d.body with
      | some body => .ok (some { name := name, params := d.params, body := body, options := d.options })
      | none =>
        .error (.fault .member "'NoneType' object has no attribute 'iter_subtrees'")

/-- The terminals and productions of a book for some start rules. -/
def Book.compile (b : Book) (starts : List String) : Except Failure Compiled := do
  let rules ← b.rules
  let terminals ← b.terminals
  let w ← Workbench.expandAll ruleLimit 0
    { naming := { terminals := terminals }, templates := { rules := rules } }
  let made := w.workshop.rules.map fun r =>
    (r.name, r.body, ({ keepAll := r.keepAll } : RuleOptions))
  let productions ← withoutDuplicates (← (w.done ++ made).mapM productionsOf).flatten
  let (productions, unused) := dropUnused starts (productions.length + 1) productions []
  let used := productions.flatMap fun p => (p.symbols.filter Symbol.isTerminal).map Symbol.name
  let (kept, idle) := w.naming.terminals.partition fun t =>
    used.contains t.name || b.ignored.contains t.name
  return { terminals := kept
           productions := productions
           ignored := b.ignored
           log := unused.map (fun p => ⟨.debug, "lark", "Unused rule: " ++ p.shown⟩) ++
             (if idle.isEmpty then []
              else [⟨.debug, "lark", "Unused terminals: " ++ literalTexts (idle.map (·.name))⟩]) }

end GrammarBench.Grammar
