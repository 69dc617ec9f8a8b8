import GrammarBench.Module.FromGrammar
import GrammarBench.Proofs.Classes

/-!
# The classes of a grammar

What the lexer class and the parser class of a language find under the names that they use.

* `GrammarClasses.Made`: the two classes of a language; `made_of_build` says that a grammar text
  gives such classes.
* `GrammarClasses.emission_eq`: the lexer class makes the tokens of the language.
* `GrammarClasses.rule_eq`: the parser class has the rules of the grammar.
* `GrammarClasses.exists_build`: a text whose language can be built has classes; `exists_build_single` for some
  texts with one rule.
-/

namespace GrammarBench

open GrammarBench.Class

namespace GrammarClasses

/-- The two classes of a language, whatever they are called and whatever has been noted down. -/
def Made (g : GrammarClasses) : Prop :=
  ∃ id name home log, ofLanguage id name home g.rules g.language = .ok { g with log := log }

/-- The names of the token types as both classes list them. -/
def symbolItems (l : Grammar.Language) : List Value :=
  .null :: l.terminals.map fun t => .text t.name

theorem symbolsOfValues_symbolItems (l : Grammar.Language) :
    symbolsOfValues (symbolItems l) = Grammar.Bridge.symbols l := by
  unfold symbolItems symbolsOfValues Grammar.Bridge.symbols
  rw [List.map_cons, List.map_map]
  rfl

theorem made_of_ofLanguage {id : Nat} {name home : String} {rules : List String}
    {l : Grammar.Language} {g : GrammarClasses} (h : ofLanguage id name home rules l = .ok g) :
    g.Made ∧ g.language = l ∧ g.rules = rules := by
  have hg := h
  obtain ⟨lexer, -, h⟩ := Outcome.bind_ok h
  obtain ⟨parser, -, h⟩ := Outcome.bind_ok h
  cases h
  exact ⟨⟨id, name, home, _, hg⟩, rfl, rfl⟩

/-- Every language has classes of every name and number. -/
theorem exists_ofLanguage (id : Nat) (name home : String) (rules : List String)
    (l : Grammar.Language) : ∃ g, ofLanguage id name home rules l = .ok g := by
  have hlexer : ∃ c, define
      { id := id, name := Grammar.className name ++ "Lexer", home := home, language := some l
        members := sharedMembers name l ++ [("hidden", .value (.list (l.ignored.map .text)))] }
      [grammarLexer] = .ok c := exists_define rfl rfl
  have hparser : ∃ c, define
      { id := id + 1, name := Grammar.className name ++ "Parser", home := home, language := some l
        members := sharedMembers name l ++
          [("rules", .table (rules.map fun r => (r, .grammarRule r)))] }
      [grammarParser] = .ok c := exists_define rfl rfl
  obtain ⟨lexer, hlexer⟩ := hlexer
  obtain ⟨parser, hparser⟩ := hparser
  unfold ofLanguage
  dsimp only
  rw [hlexer, hparser]
  exact ⟨_, rfl⟩

/-- There are classes of every language, for any rules. -/
theorem exists_made (l : Grammar.Language) (rules : List String) :
    ∃ g : GrammarClasses, g.Made ∧ g.language = l ∧ g.rules = rules := by
  have h : ∃ g, ofLanguage Layer.firstFree "grammar" "module" rules l = .ok g := ⟨_, rfl⟩
  obtain ⟨g, hg⟩ := h
  exact ⟨g, made_of_ofLanguage hg⟩

/-- Every grammar text that can be built gives the two classes of its language. -/
theorem made_of_build {id : Nat} {name text home : String} {options : List (String × Value)}
    {shelf : Grammar.Shelf} {g : GrammarClasses}
    (h : build id name text home options shelf = .ok g) :
    g.Made ∧ g.rules = Grammar.ruleNames text := by
  obtain ⟨⟨l, log⟩, -, h⟩ := Outcome.bind_ok h
  obtain ⟨made, hmade, h⟩ := Outcome.bind_ok h
  obtain ⟨⟨id, name, home, log, hof⟩, hlanguage, hrules⟩ := made_of_ofLanguage hmade
  cases h
  exact ⟨⟨id, name, home, log, hof⟩, hrules⟩

variable {g : GrammarClasses}

/-! ## The lexer class -/

theorem Made.lexer (hg : g.Made) :
    ∃ own name, Defines own [grammarLexer] g.lexer ∧ own.language = some g.language ∧
      own.members = sharedMembers name g.language ++
        [("hidden", .value (.list (g.language.ignored.map .text)))] := by
  obtain ⟨id, name, home, log, h⟩ := hg
  obtain ⟨lexer, hlexer, h⟩ := Outcome.bind_ok h
  obtain ⟨parser, -, h⟩ := Outcome.bind_ok h
  cases h
  exact ⟨_, name, defines_of_define hlexer, rfl, rfl⟩

theorem order_grammarLexer : order (basesOr [grammarLexer]) = .ok grammarLexer.layers := rfl

theorem order_grammarParser : order (basesOr [grammarParser]) = .ok grammarParser.layers := rfl

/-- What the lexer class looks up. -/
structure LexerFinds (l : Grammar.Language) (c : Class) : Prop where
  isLexer : c.isLexer = true
  tokenize : c.member? tokenizeName = some (.lexing .grammar)
  symbols : c.member? symbolsName = some (.value (.list (symbolItems l)))
  hidden : c.member? hiddenName = some (.value (.list (l.ignored.map .text)))
  language : c.language? = some l

theorem Made.lexerFinds (hg : g.Made) : LexerFinds g.language g.lexer := by
  obtain ⟨own, name, hdefines, hown, hmembers⟩ := hg.lexer
  have hbehind : g.lexer.behind = grammarLexer.layers := hdefines.behind_eq order_grammarLexer
  have hfind := hdefines.find
  rw [hmembers] at hfind
  have hlanguage := hdefines.language.trans hown
  refine ⟨hasLayer_of_behind hbehind rfl, ?_, ?_, ?_, language?_of_own hlanguage⟩
  · rw [member?_eq, hfind tokenizeName (by decide), hbehind]
    rfl
  · rw [member?_eq, hfind symbolsName (by decide)]
    rfl
  · rw [member?_eq, hfind hiddenName (by decide)]
    rfl

theorem hiddenNames_eq {l : Grammar.Language} {c : Class} (h : LexerFinds l c) :
    c.hiddenNames = l.ignored := by
  unfold hiddenNames
  rw [h.hidden]
  have htexts (names : List String) : (names.map Value.text).filterMap Value.text? = names := by
    rw [List.filterMap_map]
    exact List.filterMap_some
  exact htexts l.ignored

/-- The lexer class makes the tokens of the language. -/
theorem emission_eq (hg : g.Made) (text : String) :
    g.lexer.emission text = Grammar.Bridge.emission g.language text := by
  have h := hg.lexerFinds
  unfold Class.emission grammarEmission Grammar.Bridge.emission
  rw [h.isLexer, h.tokenize, h.language, h.symbols, hiddenNames_eq h, ← symbolsOfValues_symbolItems]
  rfl

/-- The lexer class lists the names of the terminals behind an absent one. -/
theorem lexer_symbolValues (hg : g.Made) : g.lexer.symbolValues = .ok (symbolItems g.language) := by
  unfold symbolValues
  rw [hg.lexerFinds.symbols]
  rfl

/-! ## The parser class -/

/-- The table of the parser class. -/
def ruleTable (rules : List String) : RuleTable := rules.map fun r => (r, .grammarRule r)

theorem located_ruleTable (owner name : String) (rules : List String) :
    RuleTable.located owner name (ruleTable rules) = ruleTable rules := by
  unfold RuleTable.located ruleTable
  rw [List.map_map]
  rfl

theorem find?_ruleTable {rules : List String} {rule : String} (h : rule ∈ rules) :
    Ordered.find? rule (ruleTable rules) = some (.grammarRule rule) := by
  unfold Ordered.find? ruleTable
  induction rules with
  | nil => cases h
  | cons r rest ih =>
      rw [List.map_cons, List.lookup_cons]
      cases hr : rule == r with
      | true => rw [eq_of_beq hr]
      | false =>
          refine ih ((List.mem_cons.mp h).resolve_left ?_)
          intro heq
          rw [heq, beq_self_eq_true] at hr
          cases hr

/-- What the parser class looks up. -/
structure ParserFinds (l : Grammar.Language) (rules : List String) (c : Class) : Prop where
  symbols : c.member? symbolsName = some (.value (.list (symbolItems l)))
  table : c.member? tableName = some (.table (ruleTable rules))
  language : c.language? = some l

theorem Made.parser (hg : g.Made) :
    ∃ own name, define own [grammarParser] = .ok g.parser ∧ own.language = some g.language ∧
      own.members = sharedMembers name g.language ++ [(tableName, .table (ruleTable g.rules))] := by
  obtain ⟨id, name, home, log, h⟩ := hg
  obtain ⟨lexer, -, h⟩ := Outcome.bind_ok h
  obtain ⟨parser, hparser, h⟩ := Outcome.bind_ok h
  cases h
  exact ⟨_, name, hparser, rfl, rfl⟩

theorem Made.isParser (hg : g.Made) : g.parser.isParser = true := by
  obtain ⟨own, name, hdefine, -, -⟩ := hg.parser
  have hbehind : g.parser.behind = grammarParser.layers :=
    (defines_of_define hdefine).behind_eq order_grammarParser
  exact hasLayer_of_behind hbehind rfl

theorem Made.parserFinds (hg : g.Made) : ParserFinds g.language g.rules g.parser := by
  obtain ⟨own, name, hdefine, hown, hmembers⟩ := hg.parser
  have hdefines := defines_of_define hdefine
  obtain ⟨table, hof, htable⟩ := table_of_define hdefine hg.isParser
  -- None of the members that both classes hold can be called, so the table stays as it is.
  have hlocated : (located own).members =
      sharedMembers name g.language ++ [(tableName, .table (ruleTable g.rules))] := by
    unfold located
    dsimp only
    rw [hmembers, List.map_append, List.map_cons, List.map_nil]
    simp only [locatedMember, located_ruleTable]
    rfl
  rw [hlocated] at hof htable
  cases hof
  refine ⟨?_, ?_, language?_of_own (hdefines.language.trans hown)⟩
  · rw [member?_eq, hdefines.find symbolsName (by decide), hmembers]
    rfl
  · rw [member?_eq, htable, Ordered.find?_insert_self]
    rfl

/-- The parser class lists the names of the terminals as the lexer class does. -/
theorem parser_symbolValues (hg : g.Made) :
    g.parser.symbolValues = .ok (symbolItems g.language) := by
  unfold symbolValues
  rw [hg.parserFinds.symbols]
  rfl

/-- The parser class lists the rules of the grammar. -/
theorem parser_ruleNames (hg : g.Made) : g.parser.ruleNames = .ok g.rules := by
  unfold Class.ruleNames
  rw [hg.isParser, hg.parserFinds.table]
  unfold ruleTable
  dsimp only
  rw [List.map_map]
  exact congrArg _ (List.map_id _)

/-- Every rule of the grammar stands in the table of the parser class. -/
theorem rule_eq (hg : g.Made) {rule : String} (h : rule ∈ g.rules) :
    g.parser.rule rule = .ok (.grammarRule rule) := by
  have htable : (g.parser.member? Class.tableName).getD (.table []) = .table (ruleTable g.rules) := by
    rw [hg.parserFinds.table]
    rfl
  rw [Class.rule_of_table htable, find?_ruleTable h]
  rfl

/-! ## Texts that can be built -/

/-- A text whose language can be built has classes. -/
theorem exists_build {text : String} {shelf : Grammar.Shelf} {options : List (String × Value)}
    {l : Grammar.Language} {log : List LogLine}
    (h : Grammar.Language.build shelf text (startsOf (Grammar.ruleNames text)) options = .ok (l, log))
    (id : Nat) (name home : String) :
    ∃ g, build id name text home options shelf = .ok g ∧ g.language = l ∧ g.rules = Grammar.ruleNames text := by
  obtain ⟨g, hg⟩ := exists_ofLanguage id name home (Grammar.ruleNames text) l
  obtain ⟨-, hlanguage, hrules⟩ := made_of_ofLanguage hg
  refine ⟨{ g with log := log ++ g.log }, ?_, hlanguage, hrules⟩
  unfold build
  dsimp only
  rw [h]
  dsimp only [bind, Except.bind]
  rw [hg]
  rfl

end GrammarClasses

namespace Grammar

deriving instance DecidableEq for Automaton, Language

/-- A shelf without files. -/
def bareShelf : Shelf := { files := fun _ => none, directories := [] }

/-- A rule that is replaced by its only child, which may be absent. -/
def optionalText : String := "?start: [A]\nA: \"\\n\"\n"

/-- The language of the text. -/
def optionalLanguage : Language where
  terminals := [⟨"A", { isLiteral := true, value := "\n", source := some "\"\\n\"" }, 0⟩]
  ignored := []
  flags := {}
  useBytes := false
  automaton :=
    { rows := #[[("start", .shift 1), ("A", .shift 2), ("$END", .reduce 2)], [], [("$END", .reduce 1)]]
      starts := [("start", 0)]
      ends := [("start", 1)]
      productions := #[{ origin := "$root_start", items := [⟨.rule "start", false⟩] },
        { origin := "start", items := [⟨.terminal "A", false⟩], options := { collapse := true } },
        { origin := "start", items := [], options := { collapse := true }, gaps := [1] }] }
  starts := ["start"]

/-- The tokens of a newline. -/
def breakTokens : List Token := [⟨1, some "\n", 0, 0, 1, 0, 0, 0⟩, ⟨-1, some "<EOF>", 1, 0, 2, 0, 0, 1⟩]

/-- The newline, as it is fed. -/
def breakLexeme : Lexeme := ⟨"A", "\n", some 0, some 1, some 1, some 1, none, none, false⟩

/-- A newline for a keyword, which another terminal finds by a range of characters. -/
def newlineText : String := "start: A | NL | OTHER\nA: \"a\"\nNL: \"\\n\"\nOTHER: /[\\t-\\r]/\n"

/-- The language of the text. -/
def newlineLanguage : Language where
  terminals := [⟨"A", { isLiteral := true, value := "a", source := some "\"a\"" }, 0⟩,
    ⟨"NL", { isLiteral := true, value := "\n", source := some "\"\\n\"" }, 0⟩,
    ⟨"OTHER", { isLiteral := false, value := "[\t-\r]", source := some "/[\\t-\\r]/" }, 0⟩]
  ignored := []
  flags := {}
  useBytes := false
  automaton :=
    { rows := #[[("start", .shift 1), ("A", .shift 2), ("NL", .shift 3), ("OTHER", .shift 4)], [],
        [("$END", .reduce 1)], [("$END", .reduce 2)], [("$END", .reduce 3)]]
      starts := [("start", 0)]
      ends := [("start", 1)]
      productions := #[{ origin := "$root_start", items := [⟨.rule "start", false⟩] },
        { origin := "start", items := [⟨.terminal "A", false⟩] },
        { origin := "start", items := [⟨.terminal "NL", false⟩] },
        { origin := "start", items := [⟨.terminal "OTHER", false⟩] }] }
  starts := ["start"]

/-- An optional keyword that a terminal of words finds; words are ignored. -/
def wordsText : String := "start: A?\nA: \"a\"\nW: /[a-z]+/\n%ignore W\n"

end Grammar

namespace GrammarClasses

open Grammar

/-- A language of an optional keyword that a terminal of words finds; words are ignored. -/
def ignoredWords : Language where
  terminals := [⟨"A", { isLiteral := true, value := "a", source := some "\"a\"" }, 0⟩,
    ⟨"W", { isLiteral := false, value := "[a-z]+", source := some "/[a-z]+/" }, 0⟩]
  ignored := ["W"]
  flags := {}
  useBytes := false
  automaton :=
    { rows := #[[("start", .shift 1), ("A", .shift 2), ("$END", .reduce 2)], [], [("$END", .reduce 1)]]
      starts := [("start", 0)]
      ends := [("start", 1)]
      productions := #[{ origin := "$root_start", items := [⟨.rule "start", false⟩] },
        { origin := "start", items := [⟨.terminal "A", false⟩] }, { origin := "start", items := [] }] }
  starts := ["start"]

/-- Texts with one rule, and their languages. -/
def singleTexts : List (String × Language) :=
  [(optionalText, optionalLanguage), (newlineText, newlineLanguage), (wordsText, ignoredWords)]

/-- All texts are built at once, as the machine that reads them is worked out once then. -/
theorem builds_singleTexts : ∀ p ∈ singleTexts, ruleNames p.1 = ["start"] ∧
    (Language.build bareShelf p.1 ["start"] []).toOption.map Prod.fst = some p.2 := by
  decide +kernel

theorem exists_build_single {text : String} {l : Language} (h : (text, l) ∈ singleTexts) :
    ∃ g, build Layer.firstFree "g" text "m" [] bareShelf = .ok g ∧ g.Made ∧ g.language = l ∧ "start" ∈ g.rules := by
  obtain ⟨hnames, hbuilds⟩ := builds_singleTexts _ h
  cases hbuild : Language.build bareShelf text ["start"] [] with
  | error f =>
      rw [hbuild] at hbuilds
      cases hbuilds
  | ok built =>
      rw [hbuild] at hbuilds
      have hlanguage : built.1 = l := Option.some.inj hbuilds
      have hstarts : Language.build bareShelf text (startsOf (ruleNames text)) [] = .ok (built.1, built.2) := by
        rw [hnames]
        exact hbuild
      obtain ⟨g, hg, hsame, hrules⟩ := exists_build hstarts Layer.firstFree "g" "m"
      refine ⟨g, hg, (made_of_build hg).1, hsame.trans hlanguage, ?_⟩
      rw [hrules, hnames]
      exact List.mem_cons_self

end GrammarClasses

end GrammarBench
