import Mathlib.Data.List.Duplicate
import Mathlib.Data.Set.Subsingleton
import GrammarBench.Module.Choice
import GrammarBench.Proofs.Outcome
import GrammarBench.Proofs.Worlds

/-!
# The choice of classes, by what a module exposes

A class can be exposed under several names. What comes of a choice depends on the set of classes that can
play a role, and on whether the only one of them is exposed twice.

* `Module.Exposes`, `Module.ExposesTwice`: the classes that a module exposes.
* `Module.Suits`: the classes that can play a role for a grammar.
* `Module.chosen_iff`: what comes of the choice for one role.
* `Module.resolves_iff`: what comes of both choices, whatever the order of the names.
-/

namespace GrammarBench

namespace Module

variable {m m' : Module} {list : Option (List String)} {r : Role} {grammar : Option String} {c d : Class}

/-! ## What is exposed -/

/-- The list of names that a module says it offers, if it has one. -/
def Lists (m : Module) : Option (List String) → Prop
  | none => m.get? listName = none ∨ m.get? listName = some (.value .null)
  | some names => ∃ v, m.get? listName = some (.value v) ∧
      RuleTable.pieces? v = some (names.map Value.text)

/-- The names that a module shows, with what they stand for: those it lists, or all of its own. -/
def shown (m : Module) : Option (List String) → List (String × Bound)
  | none => m.names
  | some names => names.filterMap fun n => (m.get? n).map fun b => (n, b)

/-- Without a list, only classes that say they belong to the module are exposed. -/
def Admits (m : Module) (list : Option (List String)) (c : Class) : Prop :=
  list = none → c.home = m.ownName

/-- A name of the module exposes a class. -/
def Exposes (m : Module) (list : Option (List String)) (c : Class) : Prop :=
  m.Admits list c ∧ ∃ n, (n, .type c) ∈ m.shown list

/-- A class is exposed at two places: under two names, or under one that is listed twice. -/
def ExposesTwice (m : Module) (list : Option (List String)) (c : Class) : Prop :=
  m.Admits list c ∧ ∃ n k, [(n, .type c), (k, .type c)].Sublist (m.shown list)

instance : Decidable (m.Admits list c) :=
  inferInstanceAs (Decidable (list = none → c.home = m.ownName))

def classOf? (m : Module) (list : Option (List String)) (e : String × Bound) : Option Class :=
  match e.2 with
  | .type c => if m.Admits list c then some c else none
  | _ => none

theorem classOf?_eq_some {e : String × Bound} :
    m.classOf? list e = some c ↔ e.2 = .type c ∧ m.Admits list c := by
  obtain ⟨n, b⟩ := e
  unfold classOf?
  cases b with
  | type d =>
      dsimp only
      constructor
      · intro h
        split at h
        · next hadmits =>
            cases h
            exact ⟨rfl, hadmits⟩
        · cases h
      · rintro ⟨h, hadmits⟩
        cases h
        rw [if_pos hadmits]
  | value v => simp
  | module n => simp

/-- Every exposed class, once for each place at which it is exposed. -/
def exposed (m : Module) (list : Option (List String)) : List Class :=
  (m.shown list).filterMap (m.classOf? list)

theorem mem_exposed : c ∈ m.exposed list ↔ m.Exposes list c := by
  unfold exposed Exposes
  rw [List.mem_filterMap]
  constructor
  · rintro ⟨⟨n, b⟩, hmem, h⟩
    obtain ⟨hb, hadmits⟩ := classOf?_eq_some.mp h
    cases hb
    exact ⟨hadmits, n, hmem⟩
  · rintro ⟨hadmits, n, hmem⟩
    exact ⟨_, hmem, classOf?_eq_some.mpr ⟨rfl, hadmits⟩⟩

/-- What two places of a list are taken to stands at two places of the outcome. -/
theorem duplicate_filterMap {α β : Type} {f : α → Option β} {b : β} {as : List α} :
    List.Duplicate b (as.filterMap f) ↔
      ∃ x y, [x, y].Sublist as ∧ f x = some b ∧ f y = some b := by
  constructor
  · intro h
    induction as with
    | nil => cases h
    | cons a rest ih =>
        cases ha : f a with
        | none =>
            rw [List.filterMap_cons_none ha] at h
            obtain ⟨x, y, hsub, hx, hy⟩ := ih h
            exact ⟨x, y, hsub.cons a, hx, hy⟩
        | some b' =>
            rw [List.filterMap_cons_some ha, List.duplicate_cons_iff] at h
            rcases h with ⟨rfl, hmem⟩ | h
            · obtain ⟨y, hy, hfy⟩ := List.mem_filterMap.mp hmem
              exact ⟨a, y, (List.singleton_sublist.mpr hy).cons_cons a, ha, hfy⟩
            · obtain ⟨x, y, hsub, hx, hy⟩ := ih h
              exact ⟨x, y, hsub.cons a, hx, hy⟩
  · rintro ⟨x, y, hsub, hx, hy⟩
    rw [List.duplicate_iff_sublist]
    have hmapped := hsub.filterMap f
    rwa [List.filterMap_cons_some hx, List.filterMap_cons_some hy] at hmapped

theorem duplicate_exposed : List.Duplicate c (m.exposed list) ↔ m.ExposesTwice list c := by
  unfold exposed ExposesTwice
  rw [duplicate_filterMap]
  constructor
  · rintro ⟨⟨n, a⟩, ⟨k, b⟩, hsub, hn, hk⟩
    obtain ⟨ha, hadmits⟩ := classOf?_eq_some.mp hn
    obtain ⟨hb, -⟩ := classOf?_eq_some.mp hk
    cases ha
    cases hb
    exact ⟨hadmits, n, k, hsub⟩
  · rintro ⟨hadmits, n, k, hsub⟩
    exact ⟨_, _, hsub, classOf?_eq_some.mpr ⟨rfl, hadmits⟩, classOf?_eq_some.mpr ⟨rfl, hadmits⟩⟩

theorem listed_texts (m : Module) (names : List String) :
    m.listed (names.map Value.text) = .ok (names.filterMap m.get?) := by
  unfold listed
  rw [Outcome.mapM_map_ok (g := Value.text) ?_]
  · rfl
  · exact fun n _ => rfl

theorem offered_listed {names : List String} (h : m.Lists (some names)) :
    m.offered = .ok (typesOf (names.filterMap m.get?)) := by
  obtain ⟨v, hv, hpieces⟩ := h
  unfold offered
  rw [hv]
  cases v with
  | null => cases hpieces
  | _ =>
      dsimp only
      rw [hpieces]
      dsimp only
      rw [listed_texts]
      rfl

/-- The classes that a module offers are those that it exposes. -/
theorem offered_eq (h : m.Lists list) : m.offered = .ok (m.exposed list) := by
  cases list with
  | none =>
      have hadmits : ∀ c, m.Admits none c ↔ c.home = m.ownName := fun c => ⟨fun h => h rfl, fun h _ => h⟩
      have hoffered : m.offered =
          .ok ((typesOf (m.names.map (·.2))).filter fun c => c.home = m.ownName) := by
        unfold offered
        rcases h with h | h <;> rw [h]
      rw [hoffered]
      congr 1
      unfold exposed shown typesOf
      rw [List.filterMap_map, List.filter_filterMap]
      refine List.filterMap_congr fun e _ => ?_
      obtain ⟨n, b⟩ := e
      unfold classOf?
      cases b with
      | type c =>
          show Option.filter _ (some c) = _
          simp only [hadmits]
          by_cases hc : c.home = m.ownName <;> simp [hc]
      | value v => rfl
      | module n => rfl
  | some names =>
      have hadmits : ∀ c, m.Admits (some names) c := fun c h => nomatch h
      rw [offered_listed h]
      congr 1
      unfold exposed shown typesOf
      rw [List.filterMap_filterMap, List.filterMap_filterMap]
      refine List.filterMap_congr fun n _ => ?_
      cases m.get? n with
      | none => rfl
      | some b =>
          cases b with
          | type c =>
              show some c = if m.Admits (some names) c then some c else none
              rw [if_pos (hadmits c)]
          | value v => rfl
          | module n => rfl

/-! ## Who can play a role -/

/-- The names of the grammars of the classes that can play a role are there when they are asked for. -/
def Named (m : Module) (list : Option (List String)) (grammar : Option String) (r : Role) : Prop :=
  grammar ≠ none → ∀ c, m.Exposes list c → r.fits c = true → ∃ name, c.grammarName r.suffix = .ok name

/-- An exposed class can play a role for a grammar. -/
structure Suits (m : Module) (list : Option (List String)) (grammar : Option String) (r : Role)
    (c : Class) : Prop where
  exposed : m.Exposes list c
  fits : r.fits c = true
  named : ∀ g, grammar = some g → c.grammarName r.suffix = .ok (Text.toLower g)

/-- Whether a class that can play a role is for a grammar. -/
def isFor (grammar : Option String) (r : Role) (c : Class) : Bool :=
  match grammar with
  | none => true
  | some g => match c.grammarName r.suffix with
    | .ok name => name = Text.toLower g
    | .error _ => false

theorem isFor_iff :
    isFor grammar r c = true ↔ ∀ g, grammar = some g → c.grammarName r.suffix = .ok (Text.toLower g) := by
  unfold isFor
  cases grammar with
  | none => simp
  | some g => cases c.grammarName r.suffix <;> simp

/-- Every class that can play a role, once for each place at which it is exposed. -/
def suitable (m : Module) (list : Option (List String)) (grammar : Option String) (r : Role) : List Class :=
  (m.exposed list).filter fun c => r.fits c && isFor grammar r c

theorem mem_suitable : c ∈ m.suitable list grammar r ↔ m.Suits list grammar r c := by
  unfold suitable
  rw [List.mem_filter, mem_exposed, Bool.and_eq_true, isFor_iff]
  exact ⟨fun ⟨h, hfits, hnamed⟩ => ⟨h, hfits, hnamed⟩, fun ⟨h, hfits, hnamed⟩ => ⟨h, hfits, hnamed⟩⟩

theorem duplicate_suitable :
    List.Duplicate c (m.suitable list grammar r) ↔
      m.Suits list grammar r c ∧ m.ExposesTwice list c := by
  unfold suitable
  rw [← duplicate_exposed, ← List.filterMap_eq_filter, duplicate_filterMap]
  simp only [Option.guard_eq_some_iff]
  constructor
  · rintro ⟨x, y, hsub, ⟨hxc, hc⟩, hyc, -⟩
    rw [hxc, hyc] at hsub
    rw [hxc] at hc
    have hmem : c ∈ m.exposed list := hsub.subset List.mem_cons_self
    exact ⟨mem_suitable.mp (List.mem_filter.mpr ⟨hmem, hc⟩), List.duplicate_iff_sublist.mpr hsub⟩
  · rintro ⟨hsuits, htwice⟩
    have hc := (List.mem_filter.mp (mem_suitable.mpr hsuits)).2
    exact ⟨c, c, List.duplicate_iff_sublist.mp htwice, ⟨rfl, hc⟩, rfl, hc⟩

theorem candidates_eq (h : m.Lists list) (hnamed : m.Named list grammar r) :
    m.candidates r grammar = .ok (m.suitable list grammar r) := by
  unfold candidates
  rw [offered_eq h]
  show (match grammar with
    | none => Except.ok ((m.exposed list).filter r.fits)
    | some g => ((m.exposed list).filter r.fits).filterM fun c => do
        return (← c.grammarName r.suffix) = Text.toLower g) = _
  unfold suitable
  rw [← List.filter_filter, List.filter_comm]
  cases grammar with
  | none => simp [isFor]
  | some g =>
      dsimp only
      refine Outcome.filterM_ok fun c hc => ?_
      obtain ⟨hmem, hfits⟩ := List.mem_filter.mp hc
      obtain ⟨name, hname⟩ := hnamed nofun c (mem_exposed.mp hmem) hfits
      unfold isFor
      rw [hname]
      rfl

/-! ## What comes of a choice -/

/-- The classes that can play a role for a grammar. -/
def suits (m : Module) (list : Option (List String)) (grammar : Option String) (r : Role) : Set Class :=
  {c | m.Suits list grammar r c}

/-- A class is the only one that can play a role, and is exposed at one place only. -/
def Sole (m : Module) (list : Option (List String)) (grammar : Option String) (r : Role) (c : Class) :
    Prop :=
  m.suits list grammar r = {c} ∧ ¬ m.ExposesTwice list c

/-- Several classes can play a role, or one that is exposed twice. -/
def Several (m : Module) (list : Option (List String)) (grammar : Option String) (r : Role) : Prop :=
  (m.suits list grammar r).Nontrivial ∨ ∃ c ∈ m.suits list grammar r, m.ExposesTwice list c

/-- The failure of a role that no class can play. -/
def absent (m : Module) (grammar : Option String) (r : Role) : Failure :=
  .report
    { kind := r.kind
      message :=
        match grammar with
        | some g => "No " ++ r.name ++ " for grammar '" ++ g ++ "' in module '" ++ m.ownName ++ "'"
        | none => "No " ++ r.name ++ " found in module '" ++ m.ownName ++ "'" }

/-- The failure of a role that several classes could play. -/
def tooMany (r : Role) (classes : List Class) : Failure :=
  .report (.ambiguous r.name (classes.map (·.name)))

theorem chosen_eq (h : m.Lists list) (hnamed : m.Named list grammar r) :
    m.chosen r grammar = match m.suitable list grammar r with
      | [] => .error (m.absent grammar r)
      | [c] => .ok c
      | several => .error (tooMany r several) := by
  unfold chosen
  rw [candidates_eq h hnamed]
  rcases m.suitable list grammar r with _ | ⟨c, _ | ⟨d, rest⟩⟩ <;> rfl

theorem suitable_eq_nil : m.suitable list grammar r = [] ↔ m.suits list grammar r = ∅ := by
  rw [List.eq_nil_iff_forall_not_mem, Set.eq_empty_iff_forall_notMem]
  exact forall_congr' fun c => not_congr mem_suitable

theorem suitable_eq_singleton : m.suitable list grammar r = [c] ↔ m.Sole list grammar r c := by
  constructor
  · intro h
    have hmem : ∀ d, m.Suits list grammar r d ↔ d = c := by
      intro d
      rw [← mem_suitable, h, List.mem_singleton]
    refine ⟨Set.ext hmem, fun htwice => ?_⟩
    have hduplicate := duplicate_suitable.mpr ⟨(hmem c).mpr rfl, htwice⟩
    rw [h] at hduplicate
    exact List.not_duplicate_singleton c c hduplicate
  · rintro ⟨hset, honce⟩
    have hmem : ∀ d, d ∈ m.suitable list grammar r ↔ d = c := by
      intro d
      rw [mem_suitable]
      exact Set.ext_iff.mp hset d
    have hsuits : m.Suits list grammar r c := mem_suitable.mp ((hmem c).mpr rfl)
    have honce' : ¬ List.Duplicate c (m.suitable list grammar r) := fun h =>
      honce (duplicate_suitable.mp h).2
    match hlist : m.suitable list grammar r with
    | [] =>
        rw [hlist] at hmem
        cases (hmem c).mpr rfl
    | [d] =>
        rw [hlist] at hmem
        rw [(hmem d).mp List.mem_cons_self]
    | d :: e :: rest =>
        rw [hlist] at hmem honce'
        rw [(hmem d).mp List.mem_cons_self,
          (hmem e).mp (List.mem_cons_of_mem _ List.mem_cons_self)] at honce'
        exact absurd (List.Mem.duplicate_cons_self List.mem_cons_self) honce'

theorem two_le_suitable : 2 ≤ (m.suitable list grammar r).length ↔ m.Several list grammar r := by
  constructor
  · intro h
    match hlist : m.suitable list grammar r with
    | [] =>
        rw [hlist] at h
        cases h
    | [d] =>
        rw [hlist] at h
        exact absurd h (Nat.not_succ_le_self 1)
    | d :: e :: rest =>
        have hd : m.Suits list grammar r d := by
          rw [← mem_suitable, hlist]
          exact List.mem_cons_self
        have he : m.Suits list grammar r e := by
          rw [← mem_suitable, hlist]
          exact List.mem_cons_of_mem _ List.mem_cons_self
        by_cases heq : d = e
        · have hduplicate : List.Duplicate d (m.suitable list grammar r) := by
            rw [hlist, ← heq]
            exact List.Mem.duplicate_cons_self List.mem_cons_self
          exact Or.inr ⟨d, hd, (duplicate_suitable.mp hduplicate).2⟩
        · exact Or.inl ⟨d, hd, e, he, heq⟩
  · rintro (⟨d, hd, e, he, hne⟩ | ⟨d, hd, htwice⟩)
    · by_contra hless
      have hd' := mem_suitable.mpr hd
      have he' := mem_suitable.mpr he
      rcases hlist : m.suitable list grammar r with _ | ⟨c, _ | ⟨_, _⟩⟩ <;>
        rw [hlist] at hless hd' he'
      · cases hd'
      · exact hne ((List.mem_singleton.mp hd').trans (List.mem_singleton.mp he').symm)
      · exact hless (by simp)
    · exact (List.duplicate_iff_sublist.mp (duplicate_suitable.mpr ⟨hd, htwice⟩)).length_le

theorem absent_injective {r r' : Role} (h : m.absent grammar r = m.absent grammar r') : r = r' := by
  have hkind := congrArg Report.kind (Failure.report.inj h)
  cases r <;> cases r' <;> first | rfl | cases hkind

theorem absent_ne_tooMany (m : Module) (grammar : Option String) (r r' : Role) (classes : List Class) :
    m.absent grammar r ≠ tooMany r' classes := by
  intro h
  have hkind := congrArg Report.kind (Failure.report.inj h)
  cases r <;> cases hkind

theorem tooMany_injective {r r' : Role} {classes classes' : List Class}
    (h : tooMany r classes = tooMany r' classes') : r = r' := by
  have hmessage := congrArg (fun f => f.message.toList) (Failure.report.inj h)
  simp only [Report.ambiguous, String.toList_append, List.append_assoc] at hmessage
  have hname := List.append_cancel_left hmessage
  cases r <;> cases r' <;> first | rfl | cases (List.cons.inj hname).1

/-- **The choice for one role.** A class is chosen just if it is the only one that can play the role and is
exposed once; none is found just if no class can play the role; and there are too many just if several can, or
one that is exposed twice. -/
theorem chosen_iff (h : m.Lists list) (hnamed : m.Named list grammar r) :
    (∀ c, m.chosen r grammar = .ok c ↔ m.Sole list grammar r c) ∧
      (m.chosen r grammar = .error (m.absent grammar r) ↔ m.suits list grammar r = ∅) ∧
      (m.chosen r grammar = .error (tooMany r (m.suitable list grammar r)) ↔
        m.Several list grammar r) := by
  rw [chosen_eq h hnamed, ← suitable_eq_nil, ← two_le_suitable]
  simp only [← suitable_eq_singleton]
  rcases m.suitable list grammar r with _ | ⟨c, _ | ⟨d, rest⟩⟩
  · refine ⟨fun c => ?_, ?_, ?_⟩
    · simp
    · simp
    · simp [absent_ne_tooMany]
  · refine ⟨fun c => ?_, ?_, ?_⟩ <;> simp
  · refine ⟨fun c => ?_, ?_, ?_⟩
    · simp
    · simp [Ne.symm (absent_ne_tooMany m grammar r r _)]
    · simp

/-- A choice fails for its own role only. -/
theorem chosen_error (h : m.Lists list) (hnamed : m.Named list grammar r) {f : Failure}
    (hf : m.chosen r grammar = .error f) :
    f = m.absent grammar r ∨ f = tooMany r (m.suitable list grammar r) := by
  rw [chosen_eq h hnamed] at hf
  rcases hlist : m.suitable list grammar r with _ | ⟨c, _ | ⟨d, rest⟩⟩ <;> rw [hlist] at hf
  · exact Or.inl (Except.error.inj hf).symm
  · cases hf
  · exact Or.inr (Except.error.inj hf).symm

/-! ## Both choices -/

/-- What can come of the two choices. -/
inductive Verdict where
  | pair (lexer parser : Class)
  /-- No class is found for a role. -/
  | absent (r : Role)
  /-- There are too many classes for a role. -/
  | several (r : Role)

/-- What the choice of a lexer class and a parser class comes to. -/
def Resolves (m : Module) (grammar : Option String) (w : World) : Verdict → Prop
  | .pair lexer parser => (w.run (m.resolve grammar)).1 = .ok (lexer, parser)
  | .absent r => (w.run (m.resolve grammar)).1 = .error (m.absent grammar r)
  | .several r => ∃ classes, (w.run (m.resolve grammar)).1 = .error (tooMany r classes)

/-- What the choice of a lexer class and a parser class should come to, by the sets of classes that can play
the roles and by what is exposed twice. -/
def Warrants (m : Module) (list : Option (List String)) (grammar : Option String) : Verdict → Prop
  | .pair lexer parser => m.Sole list grammar .lexer lexer ∧ m.Sole list grammar .parser parser
  | .absent .lexer => m.suits list grammar .lexer = ∅
  | .several .lexer => m.Several list grammar .lexer
  | .absent .parser =>
    (∃ lexer, m.Sole list grammar .lexer lexer) ∧ m.suits list grammar .parser = ∅
  | .several .parser => (∃ lexer, m.Sole list grammar .lexer lexer) ∧ m.Several list grammar .parser

theorem run_resolve (m : Module) (grammar : Option String) (w : World) :
    (w.run (m.resolve grammar)).1 =
      match m.chosen .lexer grammar, m.chosen .parser grammar with
      | .ok lexer, .ok parser => .ok (lexer, parser)
      | .ok _, .error f => .error f
      | .error f, _ => .error f := by
  unfold resolve lexerType parserType
  rw [World.run_bind, World.run_lift]
  cases m.chosen .lexer grammar with
  | error f => rfl
  | ok lexer =>
      dsimp only
      rw [World.run_bind, World.run_lift]
      cases m.chosen .parser grammar with
      | error f => rfl
      | ok parser => rfl

theorem resolve_ok (w : World) {lexer parser : Class} :
    (w.run (m.resolve grammar)).1 = .ok (lexer, parser) ↔
      m.chosen .lexer grammar = .ok lexer ∧ m.chosen .parser grammar = .ok parser := by
  rw [run_resolve]
  cases m.chosen .lexer grammar <;> cases m.chosen .parser grammar <;> simp

theorem resolve_error (w : World) {f : Failure} :
    (w.run (m.resolve grammar)).1 = .error f ↔ m.chosen .lexer grammar = .error f ∨
      (∃ lexer, m.chosen .lexer grammar = .ok lexer) ∧ m.chosen .parser grammar = .error f := by
  rw [run_resolve]
  cases m.chosen .lexer grammar <;> cases m.chosen .parser grammar <;> simp

theorem chosen_absent (h : m.Lists list) (hnamed : m.Named list grammar r) {r' : Role} :
    m.chosen r grammar = .error (m.absent grammar r') ↔ r = r' ∧ m.suits list grammar r = ∅ := by
  constructor
  · intro hf
    rcases chosen_error h hnamed hf with hsame | hsame
    · obtain rfl := absent_injective hsame
      exact ⟨rfl, (chosen_iff h hnamed).2.1.mp hf⟩
    · exact absurd hsame (absent_ne_tooMany _ _ _ _ _)
  · rintro ⟨rfl, hempty⟩
    exact (chosen_iff h hnamed).2.1.mpr hempty

theorem chosen_several (h : m.Lists list) (hnamed : m.Named list grammar r) {r' : Role} :
    (∃ classes, m.chosen r grammar = .error (tooMany r' classes)) ↔ r = r' ∧ m.Several list grammar r := by
  constructor
  · rintro ⟨classes, hf⟩
    rcases chosen_error h hnamed hf with hsame | hsame
    · exact absurd hsame.symm (absent_ne_tooMany _ _ _ _ _)
    · obtain rfl := tooMany_injective hsame
      rw [hsame] at hf
      exact ⟨rfl, (chosen_iff h hnamed).2.2.mp hf⟩
  · rintro ⟨rfl, hseveral⟩
    exact ⟨_, (chosen_iff h hnamed).2.2.mpr hseveral⟩

/-- What comes of both choices is what the sets of suitable classes and the doubled ones warrant. -/
theorem resolves_iff_warrants (h : m.Lists list) (hnamed : ∀ r, m.Named list grammar r) (w : World)
    (v : Verdict) : m.Resolves grammar w v ↔ m.Warrants list grammar v := by
  have hsole (r : Role) (c : Class) : m.chosen r grammar = .ok c ↔ m.Sole list grammar r c :=
    (chosen_iff h (hnamed r)).1 c
  unfold Resolves
  cases v with
  | pair lexer parser =>
      dsimp only
      rw [resolve_ok, hsole, hsole]
      rfl
  | absent r =>
      dsimp only
      rw [resolve_error, chosen_absent h (hnamed _), chosen_absent h (hnamed _)]
      simp only [hsole]
      cases r <;> simp [Warrants]
  | several r =>
      simp only [resolve_error, hsole, exists_or, exists_and_left]
      rw [chosen_several h (hnamed _), chosen_several h (hnamed _)]
      cases r <;> simp [Warrants]

end Module

end GrammarBench
