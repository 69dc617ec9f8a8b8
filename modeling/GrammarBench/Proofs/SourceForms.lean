import GrammarBench.Grammar.Statement
import GrammarBench.Proofs.Tables

/-!
# The forms of a grammar text

What the productions of grammar texts make: the lexemes of the items of a text, each behind the other, and
the trees of the statements that they are.

* `Statement.openName?`, `openNames`: the names of the rules that a grammar text defines in the open.
* `Source.IsItem`: the lexemes of an item, with the name of the rule that it defines in the open.
* `Source.items_of_start`: the items of a text.
-/

namespace GrammarBench.Grammar

open GrammarBench.Tree

/-! ## Rules defined in the open -/

/-- The name of the rule that a statement defines, unless it is a template or the name starts with an
underscore. -/
def Statement.openName? : Tree → Option Lexeme
  | .rule "rule" [_, .lexeme name, params, _, _] =>
    if (childrenOf params).isEmpty && !name.text.startsWith "_" then some name else none
  | _ => none

/-- The names of the rules that the tree of a grammar text defines in the open, in their order. -/
def openNames (t : Tree) : List Lexeme := (Statement.childrenOf t).filterMap Statement.openName?

/-! ## Inversion -/

variable {ps : List Production} {s : Symbol} {ss : List Symbol} {xs : List Lexeme} {ts : List Tree} {n : String}

theorem Makes.eq_nil (h : Makes ps [] xs ts) : xs = [] ∧ ts = [] := by
  cases h
  exact ⟨rfl, rfl⟩

/-- What is made of a symbol comes before what is made of the others. -/
theorem Makes.split (h : Makes ps (s :: ss) xs ts) :
    ∃ ys zs t us, xs = ys ++ zs ∧ ts = t :: us ∧ Makes ps [s] ys [t] ∧ Makes ps ss zs us := by
  cases h with
  | lexeme x h => exact ⟨[x], _, _, _, rfl, rfl, .lexeme x .nil, h⟩
  | @rule p ss ys zs us ts hp hmade h =>
      refine ⟨ys, zs, _, _, rfl, rfl, ?_, h⟩
      have hone := Makes.rule hp hmade .nil
      rwa [List.append_nil] at hone

theorem Makes.split_append {ss ss' : List Symbol} (h : Makes ps (ss ++ ss') xs ts) :
    ∃ ys zs us vs, xs = ys ++ zs ∧ ts = us ++ vs ∧ Makes ps ss ys us ∧ Makes ps ss' zs vs := by
  induction ss generalizing xs ts with
  | nil => exact ⟨[], xs, [], ts, rfl, rfl, .nil, h⟩
  | cons s ss ih =>
      obtain ⟨ys, zs, t, us, rfl, rfl, hone, hrest⟩ := h.split
      obtain ⟨ys', zs', us', vs', rfl, rfl, hleft, hright⟩ := ih hrest
      exact ⟨ys ++ ys', zs', t :: us', vs', (List.append_assoc _ _ _).symm, rfl, hone.append hleft, hright⟩

theorem Makes.of_terminal (h : Makes ps (.terminal n :: ss) xs ts) :
    ∃ x zs us, x.terminal = n ∧ xs = x :: zs ∧ ts = .lexeme x :: us ∧ Makes ps ss zs us := by
  generalize hs : Symbol.terminal n :: ss = all at h
  cases h with
  | nil => cases hs
  | lexeme x h =>
      obtain ⟨hn, rfl⟩ := List.cons.inj hs
      exact ⟨x, _, _, (Symbol.terminal.inj hn).symm, rfl, rfl, h⟩
  | rule => cases (List.cons.inj hs).1

theorem Makes.of_rule {t : Tree} (h : Makes ps [.rule n] xs [t]) :
    ∃ p ∈ ps.filter (·.origin = n), ∃ us, Makes ps p.symbols xs us ∧ t = p.tree us := by
  generalize hs : [Symbol.rule n] = all at h
  generalize ht : [t] = trees at h
  cases h with
  | nil => cases hs
  | lexeme => cases (List.cons.inj hs).1
  | @rule p ss ys zs us ts hp hmade h =>
      obtain ⟨hn, rfl⟩ := List.cons.inj hs
      obtain ⟨rfl, rfl⟩ := List.cons.inj ht
      obtain ⟨rfl, -⟩ := h.eq_nil
      rw [List.append_nil]
      exact ⟨p, List.mem_filter.mpr ⟨hp, decide_eq_true (Symbol.rule.inj hn).symm⟩, us, hmade, rfl⟩

/-! ## Closed sets of symbols -/

/-- All that productions make of some symbols has terminals of a list, if their own symbols do not lead out
of the list. -/
theorem Makes.among {symbols : List Symbol}
    (hclosed : ∀ p ∈ ps, .rule p.origin ∈ symbols → ∀ s ∈ p.symbols, s ∈ symbols)
    (h : Makes ps ss xs ts) (hss : ∀ s ∈ ss, s ∈ symbols) : ∀ x ∈ xs, .terminal x.terminal ∈ symbols := by
  induction h with
  | nil => exact fun x hx => nomatch hx
  | lexeme x _ ih =>
      rw [List.forall_mem_cons] at hss
      exact List.forall_mem_cons.mpr ⟨hss.1, ih hss.2⟩
  | rule hp _ _ ih ih' =>
      rw [List.forall_mem_cons] at hss
      intro x hx
      rcases List.mem_append.mp hx with hx | hx
      · exact ih (hclosed _ hp hss.1) x hx
      · exact ih' hss.2 x hx

namespace Source

/-- The production behind all others, and those of grammar texts. -/
def allProductions : List Production :=
  { origin := Automaton.rootOf "start", items := [⟨.rule "start", false⟩] } :: productions

/-- What may stand in the expansions of a rule, in the arguments of statements and in parameters. -/
def insideSymbols : List Symbol :=
  ["expansions", "_expansions", "alias", "expansion", "_expansion", "expr", "atom", "value", "terminal",
    "nonterminal", "name", "symbol", "maybe", "range", "template_usage", "_template_args", "literal",
    "_import_path", "import_lib", "import_rel", "_import_args", "name_list", "_name_list",
    "_declare_args"].map .rule ++
  ["_LPAR", "_RPAR", "_LBRA", "_RBRA", "_LBRACE", "_RBRACE", "OP", "_COMMA", "_OR", "_NL_OR", "_DOT", "_DOTDOT",
    "TILDE", "RULE", "TERMINAL", "STRING", "REGEXP", "_TO", "NUMBER"].map .terminal

theorem closed_insideSymbols :
    ∀ p ∈ allProductions, .rule p.origin ∈ insideSymbols → ∀ s ∈ p.symbols, s ∈ insideSymbols := by
  decide +kernel

/-! ## Trees -/

/-- What becomes of the tree of an item: it is dropped, replaced by its children, or kept. -/
def fateOf (keepAll : Bool) (i : Item) : Tree → List Tree :=
  if i.symbol.isTerminal && i.dropped && !keepAll then fun _ => []
  else if i.symbol.isInlined then inlined
  else fun t => [t]

theorem children_eq (p : Production) (hgaps : p.gaps = []) (ts : List Tree) :
    p.children ts = (List.zipWith (fateOf p.options.keepAll) p.items ts).flatten := by
  have hleavings (items : List Item) (ts : List Tree) :
      leavings p.options.keepAll [] items ts = (List.zipWith (fateOf p.options.keepAll) items ts).flatten := by
    induction items generalizing ts with
    | nil => cases ts <;> rfl
    | cons i items ih =>
        cases ts with
        | nil => rfl
        | cons t ts =>
            rw [leavings, List.tail_nil, ih, List.zipWith_cons_cons, List.flatten_cons]
            show [] ++ _ ++ _ = _
            rw [List.nil_append]
            congr 1
            unfold fateOf
            split
            · rfl
            · split <;> rfl
  unfold Production.children
  rw [hgaps]
  exact hleavings _ _

theorem fateOf_mark (n : String) (t : Tree) : fateOf false (mark n) t = [] := rfl

theorem fateOf_kept (n : String) (t : Tree) : fateOf false (kept n) t = [t] := rfl

theorem fateOf_part (n : String) (t : Tree) :
    fateOf false (part n) t = if n.startsWith "_" then inlined t else [t] := by
  show (if (Symbol.rule n).isInlined then inlined else fun t => [t]) t = _
  rw [show (Symbol.rule n).isInlined = n.startsWith "_" from rfl]
  split <;> rfl

/-- The tree of a form that does not collapse. -/
theorem tree_of_form (n : String) (items : List Item) (ts : List Tree) :
    ({ origin := n, items := items } : Production).tree ts =
      .rule n (List.zipWith (fateOf false) items ts).flatten := by
  have htree : ({ origin := n, items := items } : Production).tree ts =
      .rule n (({ origin := n, items := items } : Production).children ts) := rfl
  rw [htree, children_eq _ rfl]

/-- A rule in the forms of grammar texts, which does not collapse, by its ways. -/
theorem of_form {n : String} (ways : List (List Item))
    (hways : allProductions.filter (·.origin = n) = ways.map fun items => { origin := n, items := items })
    {xs : List Lexeme} {t : Tree} (h : Makes allProductions [.rule n] xs [t]) :
    ∃ items ∈ ways, ∃ ts, Makes allProductions (items.map (·.symbol)) xs ts ∧
      t = .rule n (List.zipWith (fateOf false) items ts).flatten := by
  obtain ⟨p, hp, ts, hmade, rfl⟩ := h.of_rule
  rw [hways] at hp
  obtain ⟨items, hitems, rfl⟩ := List.mem_map.mp hp
  exact ⟨items, hitems, ts, hmade, tree_of_form n items ts⟩

variable {xs : List Lexeme} {t : Tree}

/-- The modifiers of a rule are at most one lexeme. -/
theorem of_modifiers (h : Makes allProductions [.rule "rule_modifiers"] xs [t]) :
    xs.map (·.terminal) ∈ [[], ["RULE_MODIFIERS"]] := by
  obtain ⟨items, hitems, ts, hmade, -⟩ :=
    of_form [[kept "RULE_MODIFIERS"], []] (by decide +kernel) h
  rcases List.mem_cons.mp hitems with rfl | hitems
  · have h₀ : Makes allProductions [.terminal "RULE_MODIFIERS"] xs ts := hmade
    obtain ⟨x, zs, us, hx, rfl, rfl, h₁⟩ := h₀.of_terminal
    rw [h₁.eq_nil.1, List.map_singleton, hx]
    simp
  · rw [List.mem_singleton.mp hitems] at hmade
    rw [hmade.eq_nil.1]
    simp

/-- The priority of a rule is a dot and a number, or nothing. -/
theorem of_priority (h : Makes allProductions [.rule "priority"] xs [t]) :
    xs.map (·.terminal) ∈ [[], ["_DOT", "NUMBER"]] := by
  obtain ⟨items, hitems, ts, hmade, -⟩ :=
    of_form [[mark "_DOT", kept "NUMBER"], []] (by decide +kernel) h
  rcases List.mem_cons.mp hitems with rfl | hitems
  · have h₀ : Makes allProductions [.terminal "_DOT", .terminal "NUMBER"] xs ts := hmade
    obtain ⟨x, zs, us, hx, rfl, rfl, h₁⟩ := h₀.of_terminal
    obtain ⟨y, zs, us, hy, rfl, rfl, h₂⟩ := h₁.of_terminal
    rw [h₂.eq_nil.1, List.map_cons, List.map_singleton, hx, hy]
    simp
  · rw [List.mem_singleton.mp hitems] at hmade
    rw [hmade.eq_nil.1]
    simp

/-- The parameters of a rule: none, or some names in braces. -/
structure Params (xs : List Lexeme) : Prop where
  among : ∀ x ∈ xs, x.terminal ∈ ["_LBRACE", "RULE", "_COMMA", "_RBRACE"]
  first : ∀ x ∈ xs.head?, x.terminal = "_LBRACE"

def paramSymbols : List Symbol :=
  [.rule "_template_params", .terminal "RULE", .terminal "_COMMA"]

theorem closed_paramSymbols :
    ∀ p ∈ allProductions, .rule p.origin ∈ paramSymbols → ∀ s ∈ p.symbols, s ∈ paramSymbols := by
  decide +kernel

/-- The names of the parameters are at least one. -/
theorem of_names (h : Makes allProductions [.rule "_template_params"] xs [t]) :
    (∀ x ∈ xs, x.terminal = "RULE" ∨ x.terminal = "_COMMA") ∧ inlined t ≠ [] := by
  refine ⟨fun x hx => ?_, ?_⟩
  · have hmem := h.among closed_paramSymbols (by simp [paramSymbols]) x hx
    simpa [paramSymbols] using hmem
  · obtain ⟨items, hitems, ts, hmade, rfl⟩ :=
      of_form [[kept "RULE"], [part "_template_params", mark "_COMMA", kept "RULE"]]
        (by decide +kernel) h
    rcases List.mem_cons.mp hitems with rfl | hitems
    · have h₀ : Makes allProductions [.terminal "RULE"] xs ts := hmade
      obtain ⟨x, zs, us, -, rfl, rfl, h₁⟩ := h₀.of_terminal
      simp [inlined, fateOf_kept]
    · obtain rfl := List.mem_singleton.mp hitems
      have h₀ : Makes allProductions
        [.rule "_template_params", .terminal "_COMMA", .terminal "RULE"] xs ts := hmade
      obtain ⟨_, _, u, us, rfl, rfl, -, h₁⟩ := h₀.split
      obtain ⟨x, zs, us, -, rfl, rfl, h₂⟩ := h₁.of_terminal
      obtain ⟨y, zs, us, -, rfl, rfl, h₃⟩ := h₂.of_terminal
      simp [inlined, fateOf_kept]

/-- The parameters of a rule, and whether their tree has children. -/
theorem of_params (h : Makes allProductions [.rule "template_params"] xs [t]) :
    Params xs ∧ ∃ children, t = .rule "template_params" children ∧ (children = [] ↔ xs = []) := by
  obtain ⟨items, hitems, ts, hmade, rfl⟩ :=
    of_form [[mark "_LBRACE", part "_template_params", mark "_RBRACE"], []] (by decide +kernel) h
  rcases List.mem_cons.mp hitems with rfl | hitems
  · have h₀ : Makes allProductions
      [.terminal "_LBRACE", .rule "_template_params", .terminal "_RBRACE"] xs ts := hmade
    obtain ⟨x, zs, us, hx, rfl, rfl, h₁⟩ := h₀.of_terminal
    obtain ⟨ys, _, u, us, rfl, rfl, hnames, h₂⟩ := h₁.split
    obtain ⟨y, zs, us, hy, rfl, rfl, h₃⟩ := h₂.of_terminal
    obtain ⟨rfl, rfl⟩ := h₃.eq_nil
    obtain ⟨hamong, hne⟩ := of_names hnames
    refine ⟨⟨fun z hz => ?_, fun z hz => ?_⟩, _, rfl, ?_⟩
    · rcases List.mem_cons.mp hz with rfl | hz
      · simp [hx]
      · rcases List.mem_append.mp hz with hz | hz
        · rcases hamong z hz with h | h <;> simp [h]
        · rw [List.mem_singleton.mp hz, hy]
          simp
    · rw [← Option.some.inj hz, hx]
    · simp [fateOf_mark, fateOf_part, show "_template_params".startsWith "_" = true by decide +kernel, hne]
  · obtain rfl := List.mem_singleton.mp hitems
    obtain ⟨rfl, rfl⟩ := hmade.eq_nil
    exact ⟨⟨by simp, by simp⟩, _, rfl, by simp⟩

/-! ## Definitions -/

/-- The name of the rule that a rule statement defines in the open, if its parameters are the given ones. -/
def openRule (name : Lexeme) (params : List Lexeme) : Option Lexeme :=
  if params.isEmpty && !name.text.startsWith "_" then some name else none

theorem eq_of_openRule {name x : Lexeme} {params : List Lexeme} (h : openRule name params = some x) : x = name := by
  unfold openRule at h
  split at h
  · exact (Option.some.inj h).symm
  · cases h

/-- A statement that defines a rule. -/
structure IsRule (xs : List Lexeme) (mods : List Lexeme) (name : Lexeme) (params prio : List Lexeme)
    (colon : Lexeme) (body : List Lexeme) (nl : Lexeme) : Prop where
  whole : xs = mods ++ name :: (params ++ (prio ++ colon :: (body ++ [nl])))
  mods : mods.map (·.terminal) ∈ [[], ["RULE_MODIFIERS"]]
  name : name.terminal = "RULE"
  params : Params params
  prio : prio.map (·.terminal) ∈ [[], ["_DOT", "NUMBER"]]
  colon : colon.terminal = "_COLON"
  body : ∀ x ∈ body, .terminal x.terminal ∈ insideSymbols
  nl : nl.terminal = "_NL"

/-- What a rule statement is made of, and the name that it defines in the open. -/
theorem of_ruleStatement (h : Makes allProductions [.rule "rule"] xs [t]) :
    ∃ mods name params prio colon body nl, IsRule xs mods name params prio colon body nl ∧
      Statement.openName? t = openRule name params := by
  obtain ⟨items, hitems, ts, hmade, rfl⟩ :=
    of_form [[part "rule_modifiers", kept "RULE", part "template_params", part "priority", mark "_COLON",
      part "expansions", mark "_NL"]] (by decide +kernel) h
  obtain rfl := List.mem_singleton.mp hitems
  have h₀ : Makes allProductions [.rule "rule_modifiers", .terminal "RULE", .rule "template_params",
    .rule "priority", .terminal "_COLON", .rule "expansions", .terminal "_NL"] xs ts := hmade
  obtain ⟨mods, _, modsTree, _, rfl, rfl, hmods, h₁⟩ := h₀.split
  obtain ⟨name, _, _, hname, rfl, rfl, h₂⟩ := h₁.of_terminal
  obtain ⟨params, _, paramsTree, _, rfl, rfl, hparams, h₃⟩ := h₂.split
  obtain ⟨prio, _, prioTree, _, rfl, rfl, hprio, h₄⟩ := h₃.split
  obtain ⟨colon, _, _, hcolon, rfl, rfl, h₅⟩ := h₄.of_terminal
  obtain ⟨body, _, bodyTree, _, rfl, rfl, hbody, h₆⟩ := h₅.split
  obtain ⟨nl, _, _, hnl, rfl, rfl, h₇⟩ := h₆.of_terminal
  obtain ⟨rfl, rfl⟩ := h₇.eq_nil
  obtain ⟨hparamsShape, children, rfl, hchildren⟩ := of_params hparams
  refine ⟨mods, name, params, prio, colon, body, nl, ⟨rfl, of_modifiers hmods, hname, hparamsShape,
    of_priority hprio, hcolon, hbody.among closed_insideSymbols (by simp [insideSymbols]), hnl⟩, ?_⟩
  have htree : (List.zipWith (fateOf false) [part "rule_modifiers", kept "RULE", part "template_params",
      part "priority", mark "_COLON", part "expansions", mark "_NL"] [modsTree, .lexeme name,
      .rule "template_params" children, prioTree, .lexeme colon, bodyTree, .lexeme nl]).flatten =
      [modsTree, .lexeme name, .rule "template_params" children, prioTree, bodyTree] := by
    simp [fateOf_mark, fateOf_kept, fateOf_part,
      show "rule_modifiers".startsWith "_" = false by decide +kernel,
      show "template_params".startsWith "_" = false by decide +kernel,
      show "priority".startsWith "_" = false by decide +kernel,
      show "expansions".startsWith "_" = false by decide +kernel]
  have hparamsEmpty : children.isEmpty = params.isEmpty := by
    rw [Bool.eq_iff_iff, List.isEmpty_iff, List.isEmpty_iff]
    exact hchildren
  rw [htree]
  show (if children.isEmpty && _ then some name else none) = _
  rw [hparamsEmpty]
  rfl

/-- What a terminal statement is made of. -/
theorem of_termStatement (h : Makes allProductions [.rule "term"] xs [t]) :
    ∃ pre colon body nl, xs = pre ++ colon :: (body ++ [nl]) ∧
      pre.map (·.terminal) ∈ [["TERMINAL"], ["TERMINAL", "_DOT", "NUMBER"]] ∧ colon.terminal = "_COLON" ∧
      (∀ x ∈ body, .terminal x.terminal ∈ insideSymbols) ∧ nl.terminal = "_NL" ∧
      ∃ children, t = .rule "term" children := by
  obtain ⟨items, hitems, ts, hmade, rfl⟩ :=
    of_form [[kept "TERMINAL", mark "_COLON", part "expansions", mark "_NL"],
      [kept "TERMINAL", mark "_DOT", kept "NUMBER", mark "_COLON", part "expansions", mark "_NL"]]
      (by decide +kernel) h
  rcases List.mem_cons.mp hitems with rfl | hitems
  · have h₀ : Makes allProductions
      [.terminal "TERMINAL", .terminal "_COLON", .rule "expansions", .terminal "_NL"] xs ts := hmade
    obtain ⟨name, _, _, hname, rfl, rfl, h₁⟩ := h₀.of_terminal
    obtain ⟨colon, _, _, hcolon, rfl, rfl, h₂⟩ := h₁.of_terminal
    obtain ⟨body, _, bodyTree, _, rfl, rfl, hbody, h₃⟩ := h₂.split
    obtain ⟨nl, _, _, hnl, rfl, rfl, h₄⟩ := h₃.of_terminal
    obtain ⟨rfl, rfl⟩ := h₄.eq_nil
    exact ⟨[name], colon, body, nl, rfl, by simp [hname], hcolon,
      hbody.among closed_insideSymbols (by simp [insideSymbols]), hnl, _, rfl⟩
  · obtain rfl := List.mem_singleton.mp hitems
    have h₀ : Makes allProductions [.terminal "TERMINAL", .terminal "_DOT", .terminal "NUMBER",
      .terminal "_COLON", .rule "expansions", .terminal "_NL"] xs ts := hmade
    obtain ⟨name, _, _, hname, rfl, rfl, h₁⟩ := h₀.of_terminal
    obtain ⟨dot, _, _, hdot, rfl, rfl, h₂⟩ := h₁.of_terminal
    obtain ⟨number, _, _, hnumber, rfl, rfl, h₃⟩ := h₂.of_terminal
    obtain ⟨colon, _, _, hcolon, rfl, rfl, h₄⟩ := h₃.of_terminal
    obtain ⟨body, _, bodyTree, _, rfl, rfl, hbody, h₅⟩ := h₄.split
    obtain ⟨nl, _, _, hnl, rfl, rfl, h₆⟩ := h₅.of_terminal
    obtain ⟨rfl, rfl⟩ := h₆.eq_nil
    exact ⟨[name, dot, number], colon, body, nl, rfl, by simp [hname, hdot, hnumber], hcolon,
      hbody.among closed_insideSymbols (by simp [insideSymbols]), hnl, _, rfl⟩

/-! ## Items -/

/-- The lexemes of an item of a grammar text, with the name of the rule that it defines in the open. -/
inductive IsItem : List Lexeme → Option Lexeme → Prop
  | rule {lead xs mods params prio body : List Lexeme} {name colon nl : Lexeme} :
      lead.map (·.terminal) ∈ [[], ["_OVERRIDE"], ["_EXTEND"]] →
      IsRule xs mods name params prio colon body nl →
      IsItem (lead ++ xs) (if lead = [] then openRule name params else none)
  | term {lead pre body : List Lexeme} {colon nl : Lexeme} :
      lead.map (·.terminal) ∈ [[], ["_OVERRIDE"], ["_EXTEND"]] →
      pre.map (·.terminal) ∈ [["TERMINAL"], ["TERMINAL", "_DOT", "NUMBER"]] → colon.terminal = "_COLON" →
      (∀ x ∈ body, .terminal x.terminal ∈ insideSymbols) → nl.terminal = "_NL" →
      IsItem (lead ++ (pre ++ colon :: (body ++ [nl]))) none
  | other {lead init : List Lexeme} {nl : Lexeme} :
      lead.map (·.terminal) ∈ [["_IGNORE"], ["_IMPORT"], ["_DECLARE"]] →
      (∀ x ∈ init, .terminal x.terminal ∈ insideSymbols) → nl.terminal = "_NL" →
      IsItem (lead ++ (init ++ [nl])) none
  | blank {nl : Lexeme} : nl.terminal = "_NL" → IsItem [nl] none

theorem openNames_append (l : String) (cs ds : List Tree) :
    openNames (.rule l (cs ++ ds)) = openNames (.rule l cs) ++ openNames (.rule l ds) :=
  List.filterMap_append

theorem openNames_singleton (l : String) (t : Tree) :
    openNames (.rule l [t]) = (Statement.openName? t).toList := by
  show List.filterMap Statement.openName? [t] = _
  rw [List.filterMap_cons, List.filterMap_nil]
  cases Statement.openName? t <;> rfl

/-- A definition that changes one of an imported grammar. -/
theorem of_changing {n : String} (lead : String)
    (hways : allProductions.filter (·.origin = n) =
      [[mark lead, part "rule"], [mark lead, part "term"]].map fun items => { origin := n, items := items })
    (hlead : [lead] ∈ [[], ["_OVERRIDE"], ["_EXTEND"]]) (h : Makes allProductions [.rule n] xs [t]) :
    IsItem xs none ∧ ∃ children, t = .rule n children := by
  obtain ⟨items, hitems, ts, hmade, rfl⟩ := of_form _ hways h
  rcases List.mem_cons.mp hitems with rfl | hitems
  · have h₀ : Makes allProductions [.terminal lead, .rule "rule"] xs ts := hmade
    obtain ⟨x, zs, us, hx, rfl, rfl, h₁⟩ := h₀.of_terminal
    obtain ⟨_, _, u, _, rfl, rfl, hrule, h₂⟩ := h₁.split
    obtain ⟨rfl, rfl⟩ := h₂.eq_nil
    obtain ⟨mods, name, params, prio, colon, body, nl, hshape, -⟩ := of_ruleStatement hrule
    rw [List.append_nil]
    have hx' : [x].map (·.terminal) ∈ [[], ["_OVERRIDE"], ["_EXTEND"]] := by rwa [List.map_singleton, hx]
    exact ⟨IsItem.rule hx' hshape, _, rfl⟩
  · obtain rfl := List.mem_singleton.mp hitems
    have h₀ : Makes allProductions [.terminal lead, .rule "term"] xs ts := hmade
    obtain ⟨x, zs, us, hx, rfl, rfl, h₁⟩ := h₀.of_terminal
    obtain ⟨_, _, u, _, rfl, rfl, hterm, h₂⟩ := h₁.split
    obtain ⟨rfl, rfl⟩ := h₂.eq_nil
    obtain ⟨pre, colon, body, nl, rfl, hpre, hcolon, hbody, hnl, -⟩ := of_termStatement hterm
    rw [List.append_nil]
    have hx' : [x].map (·.terminal) ∈ [[], ["_OVERRIDE"], ["_EXTEND"]] := by rwa [List.map_singleton, hx]
    exact ⟨IsItem.term hx' hpre hcolon hbody hnl, _, rfl⟩

/-- A statement that defines nothing: a word and its arguments. -/
theorem of_other {n : String} (lead : String) (ways : List (List Item))
    (hways : allProductions.filter (·.origin = n) =
      (ways.map fun items => mark lead :: (items ++ [mark "_NL"])).map fun items =>
        { origin := n, items := items })
    (hlead : [lead] ∈ [["_IGNORE"], ["_IMPORT"], ["_DECLARE"]])
    (hinside : ∀ items ∈ ways, ∀ i ∈ items, i.symbol ∈ insideSymbols)
    (h : Makes allProductions [.rule n] xs [t]) : IsItem xs none ∧ ∃ children, t = .rule n children := by
  obtain ⟨items, hitems, ts, hmade, rfl⟩ := of_form _ hways h
  obtain ⟨init, hinit, rfl⟩ := List.mem_map.mp hitems
  have h₀ : Makes allProductions (.terminal lead :: (init ++ [mark "_NL"]).map (·.symbol)) xs ts := hmade
  obtain ⟨x, rest, _, hx, rfl, rfl, h₁⟩ := h₀.of_terminal
  rw [List.map_append] at h₁
  obtain ⟨ys, zs, us, vs, rfl, rfl, hys, hzs⟩ := h₁.split_append
  have h₂ : Makes allProductions [.terminal "_NL"] zs vs := hzs
  obtain ⟨nl, _, _, hnl, rfl, rfl, h₃⟩ := h₂.of_terminal
  obtain ⟨rfl, rfl⟩ := h₃.eq_nil
  have hx' : [x].map (·.terminal) ∈ [["_IGNORE"], ["_IMPORT"], ["_DECLARE"]] := by
    rwa [List.map_singleton, hx]
  refine ⟨IsItem.other hx' (hys.among closed_insideSymbols fun s hs => ?_) hnl, _, rfl⟩
  obtain ⟨i, hi, rfl⟩ := List.mem_map.mp hs
  exact hinside init hinit i hi

/-- The item that a tree is made of. -/
theorem of_item (h : Makes allProductions [.rule "_item"] xs [t]) :
    ∃ o cs, IsItem xs o ∧ t = .rule "_item" cs ∧ openNames (.rule "start" cs) = o.toList := by
  obtain ⟨items, hitems, ts, hmade, rfl⟩ :=
    of_form [[part "rule"], [part "term"], [part "ignore"], [part "import"], [part "declare"],
      [part "override"], [part "extend"], [mark "_NL"]] (by decide +kernel) h
  have hpart {n : String} (hn : n.startsWith "_" = false) (hmade : Makes allProductions [.rule n] xs ts) :
      ∃ u, ts = [u] ∧ Makes allProductions [.rule n] xs [u] ∧
        (List.zipWith (fateOf false) [part n] ts).flatten = [u] := by
    obtain ⟨_, _, u, _, rfl, rfl, hone, h₁⟩ := hmade.split
    obtain ⟨rfl, rfl⟩ := h₁.eq_nil
    rw [List.append_nil] at hmade ⊢
    refine ⟨u, rfl, hmade, ?_⟩
    rw [List.zipWith_cons_cons, List.zipWith_nil_left, fateOf_part, hn]
    rfl
  simp only [List.mem_cons, List.not_mem_nil, or_false] at hitems
  rcases hitems with rfl | rfl | rfl | rfl | rfl | rfl | rfl | rfl
  · obtain ⟨u, rfl, hone, hfate⟩ := hpart (by decide +kernel) hmade
    obtain ⟨mods, name, params, prio, colon, body, nl, hshape, hname⟩ := of_ruleStatement hone
    refine ⟨_, _, IsItem.rule (show List.map _ [] ∈ _ by simp) hshape, by rw [hfate], ?_⟩
    rw [openNames_singleton, hname, if_pos rfl]
  · obtain ⟨u, rfl, hone, hfate⟩ := hpart (by decide +kernel) hmade
    obtain ⟨pre, colon, body, nl, rfl, hpre, hcolon, hbody, hnl, children, rfl⟩ := of_termStatement hone
    exact ⟨_, _, IsItem.term (show List.map _ [] ∈ _ by simp) hpre hcolon hbody hnl, by rw [hfate], rfl⟩
  · obtain ⟨u, rfl, hone, hfate⟩ := hpart (by decide +kernel) hmade
    obtain ⟨hitem, children, rfl⟩ :=
      of_other "_IGNORE" [[part "expansions"]] (by decide +kernel) (by simp) (by decide +kernel) hone
    exact ⟨_, _, hitem, by rw [hfate], rfl⟩
  · obtain ⟨u, rfl, hone, hfate⟩ := hpart (by decide +kernel) hmade
    obtain ⟨hitem, children, rfl⟩ :=
      of_other "_IMPORT" [[part "_import_path"],
        [part "_import_path", mark "_LPAR", part "name_list", mark "_RPAR"],
        [part "_import_path", mark "_TO", part "name"]] (by decide +kernel) (by simp) (by decide +kernel) hone
    exact ⟨_, _, hitem, by rw [hfate], rfl⟩
  · obtain ⟨u, rfl, hone, hfate⟩ := hpart (by decide +kernel) hmade
    obtain ⟨hitem, children, rfl⟩ :=
      of_other "_DECLARE" [[part "_declare_args"]] (by decide +kernel) (by simp) (by decide +kernel) hone
    exact ⟨_, _, hitem, by rw [hfate], rfl⟩
  · obtain ⟨u, rfl, hone, hfate⟩ := hpart (by decide +kernel) hmade
    obtain ⟨hitem, children, rfl⟩ := of_changing "_OVERRIDE" (by decide +kernel) (by simp) hone
    exact ⟨_, _, hitem, by rw [hfate], rfl⟩
  · obtain ⟨u, rfl, hone, hfate⟩ := hpart (by decide +kernel) hmade
    obtain ⟨hitem, children, rfl⟩ := of_changing "_EXTEND" (by decide +kernel) (by simp) hone
    exact ⟨_, _, hitem, by rw [hfate], rfl⟩
  · have h₀ : Makes allProductions [.terminal "_NL"] xs ts := hmade
    obtain ⟨nl, _, _, hnl, rfl, rfl, h₁⟩ := h₀.of_terminal
    obtain ⟨rfl, rfl⟩ := h₁.eq_nil
    exact ⟨none, _, IsItem.blank hnl, rfl, rfl⟩

theorem IsItem.ne_nil {o : Option Lexeme} (h : IsItem xs o) : xs ≠ [] := by
  cases h with
  | rule _ hshape => simp [hshape.whole]
  | term => simp
  | other => simp
  | blank => simp

/-- The items of a text one behind the other, each with the rule that it defines in the open. -/
structure Items (xs : List Lexeme) (segments : List (List Lexeme × Option Lexeme)) : Prop where
  whole : xs = segments.flatMap (·.1)
  items : ∀ g ∈ segments, IsItem g.1 g.2

theorem items_of_list (h : Makes allProductions [.rule "_list"] xs [t]) :
    ∃ segments cs, Items xs segments ∧ t = .rule "_list" cs ∧
      openNames (.rule "start" cs) = segments.filterMap (·.2) := by
  have hinlined (n : String) (hn : n.startsWith "_" = true) (t : Tree) : fateOf false (part n) t = inlined t := by
    rw [fateOf_part, if_pos hn]
  have hitem := hinlined "_item" (by decide +kernel)
  have hlist := hinlined "_list" (by decide +kernel)
  induction hlength : xs.length using Nat.strongRecOn generalizing xs t with
  | ind n ih =>
      obtain ⟨items, hitems, ts, hmade, rfl⟩ :=
        of_form [[part "_item"], [part "_list", part "_item"]] (by decide +kernel) h
      rcases List.mem_cons.mp hitems with rfl | hitems
      · have h₀ : Makes allProductions [.rule "_item"] xs ts := hmade
        obtain ⟨ys, _, u, _, rfl, rfl, hone, h₁⟩ := h₀.split
        obtain ⟨rfl, rfl⟩ := h₁.eq_nil
        obtain ⟨o, cs, ho, rfl, hnames⟩ := of_item hone
        refine ⟨[(ys, o)], cs, ⟨by simp, by simpa using ho⟩, ?_, ?_⟩
        · simp [hitem, inlined]
        · rw [hnames]
          cases o <;> rfl
      · obtain rfl := List.mem_singleton.mp hitems
        have h₀ : Makes allProductions [.rule "_list", .rule "_item"] xs ts := hmade
        obtain ⟨ys, _, u, _, rfl, rfl, hfirst, h₁⟩ := h₀.split
        obtain ⟨zs, _, v, _, rfl, rfl, hlast, h₂⟩ := h₁.split
        obtain ⟨rfl, rfl⟩ := h₂.eq_nil
        obtain ⟨o, cs, ho, rfl, hnames⟩ := of_item hlast
        -- An item has lexemes, so fewer are left to the list before it.
        have hfewer : ys.length < n := by
          have hne := List.length_pos_iff.mpr ho.ne_nil
          simp only [List.length_append, List.length_nil] at hlength
          omega
        obtain ⟨segments, ds, ⟨hwhole, hall⟩, rfl, hnames'⟩ := ih _ hfewer hfirst rfl
        refine ⟨segments ++ [(zs, o)], ds ++ cs, ⟨by simp [hwhole], ?_⟩, ?_, ?_⟩
        · intro g hg
          rcases List.mem_append.mp hg with hg | hg
          · exact hall g hg
          · rw [List.mem_singleton.mp hg]
            exact ho
        · simp [hitem, hlist, inlined]
        · rw [openNames_append, hnames', hnames, List.filterMap_append]
          cases o <;> rfl

/-- The items that the tree of a grammar text is made of. -/
theorem items_of_start (h : Makes allProductions [.rule "start"] xs [t]) :
    ∃ segments, Items xs segments ∧ openNames t = segments.filterMap (·.2) := by
  obtain ⟨items, hitems, ts, hmade, rfl⟩ := of_form [[part "_list"]] (by decide +kernel) h
  obtain rfl := List.mem_singleton.mp hitems
  have h₀ : Makes allProductions [.rule "_list"] xs ts := hmade
  obtain ⟨_, _, u, _, rfl, rfl, hone, h₁⟩ := h₀.split
  obtain ⟨rfl, rfl⟩ := h₁.eq_nil
  obtain ⟨segments, cs, hsegments, rfl, hnames⟩ := items_of_list hone
  rw [List.append_nil]
  refine ⟨segments, hsegments, ?_⟩
  rw [← hnames, List.zipWith_cons_cons, List.zipWith_nil_left, fateOf_part, if_pos (by decide +kernel)]
  simp [inlined]

end Source

end GrammarBench.Grammar
