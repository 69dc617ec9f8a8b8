import GrammarBench.Proofs.Choosing
import GrammarBench.Proofs.Namespaces

/-!
# Resolution

When the choice of a lexer class and a parser class depends on the classes that a module exposes alone: always,
unless the one class that can play a role is exposed twice. The order in which names are bound plays no part.

* `Module.Reordered`: the same names, bound in another order.
* `Module.Presumes`: the choice by the sets of classes alone.
* `Module.resolve_verdict`: what comes of the choice.
-/

namespace GrammarBench.Module

variable {m m' : Module} {list : Option (List String)} {r : Role} {grammar : Option String} {c : Class}

/-! ## Reordered names -/

/-- The names of a module are bound in another order. -/
structure Reordered (m m' : Module) : Prop where
  name : m'.name = m.name
  file : m'.file = m.file
  names : m'.names.Perm m.names
  tidy : m.Tidy

namespace Reordered

theorem get? (h : Reordered m m') (n : String) : m'.get? n = m.get? n := by
  unfold Module.get?
  rw [Ordered.find?_eq_of_perm h.names h.tidy, h.name, h.file]

theorem ownName (h : Reordered m m') : m'.ownName = m.ownName := by
  unfold Module.ownName
  rw [h.get?, h.name]

theorem lists (h : Reordered m m') (hlist : m.Lists list) : m'.Lists list := by
  cases list <;> unfold Lists <;> rw [h.get?] <;> exact hlist

theorem classOf? (h : Reordered m m') : m'.classOf? list = m.classOf? list := by
  have hadmits : ∀ c, m'.Admits list c ↔ m.Admits list c := fun c => by
    unfold Admits
    rw [h.ownName]
  funext ⟨n, b⟩
  unfold Module.classOf?
  simp only [hadmits]

theorem exposed (h : Reordered m m') (list : Option (List String)) :
    (m'.exposed list).Perm (m.exposed list) := by
  unfold Module.exposed
  rw [h.classOf?]
  refine List.Perm.filterMap _ ?_
  cases list with
  | none => exact h.names
  | some names =>
      unfold shown
      simp only [h.get?]
      exact List.Perm.refl _

theorem exposes (h : Reordered m m') : m'.Exposes list c ↔ m.Exposes list c := by
  rw [← mem_exposed, ← mem_exposed]
  exact (h.exposed list).mem_iff

theorem exposesTwice (h : Reordered m m') : m'.ExposesTwice list c ↔ m.ExposesTwice list c := by
  classical
  rw [← duplicate_exposed, ← duplicate_exposed, List.duplicate_iff_two_le_count,
    List.duplicate_iff_two_le_count, (h.exposed list).count_eq]

theorem named (h : Reordered m m') (hnamed : m.Named list grammar r) : m'.Named list grammar r :=
  fun hgrammar c hc => hnamed hgrammar c (h.exposes.mp hc)

theorem suits (h : Reordered m m') : m'.suits list grammar r = m.suits list grammar r := by
  ext c
  exact ⟨fun ⟨hc, hfits, hfor⟩ => ⟨h.exposes.mp hc, hfits, hfor⟩,
    fun ⟨hc, hfits, hfor⟩ => ⟨h.exposes.mpr hc, hfits, hfor⟩⟩

theorem sole (h : Reordered m m') : m'.Sole list grammar r c ↔ m.Sole list grammar r c := by
  unfold Sole
  rw [h.suits, h.exposesTwice]

theorem several (h : Reordered m m') : m'.Several list grammar r ↔ m.Several list grammar r := by
  unfold Several
  simp only [h.suits, h.exposesTwice]

theorem warrants (h : Reordered m m') (v : Verdict) :
    m'.Warrants list grammar v ↔ m.Warrants list grammar v := by
  rcases v with ⟨lexer, parser⟩ | ⟨_ | _⟩ | ⟨_ | _⟩ <;> simp only [Warrants, h.sole, h.suits, h.several]

end Reordered

/-! ## The sets of classes alone -/

/-- What the choice comes to when only the sets of classes that can play the roles count. -/
def Presumes (m : Module) (list : Option (List String)) (grammar : Option String) : Verdict → Prop
  | .pair lexer parser => m.suits list grammar .lexer = {lexer} ∧ m.suits list grammar .parser = {parser}
  | .absent .lexer => m.suits list grammar .lexer = ∅
  | .several .lexer => (m.suits list grammar .lexer).Nontrivial
  | .absent .parser =>
    (∃ lexer, m.suits list grammar .lexer = {lexer}) ∧ m.suits list grammar .parser = ∅
  | .several .parser =>
    (∃ lexer, m.suits list grammar .lexer = {lexer}) ∧ (m.suits list grammar .parser).Nontrivial

/-- The only class that can play a role is exposed at two places. -/
def Doubled (m : Module) (list : Option (List String)) (grammar : Option String) (r : Role) : Prop :=
  ∃ c, m.suits list grammar r = {c} ∧ m.ExposesTwice list c

theorem sole_iff (h : ¬ m.Doubled list grammar r) :
    m.Sole list grammar r c ↔ m.suits list grammar r = {c} :=
  ⟨And.left, fun hset => ⟨hset, fun htwice => h ⟨c, hset, htwice⟩⟩⟩

theorem several_iff (h : ¬ m.Doubled list grammar r) :
    m.Several list grammar r ↔ (m.suits list grammar r).Nontrivial := by
  refine ⟨?_, Or.inl⟩
  rintro (hmany | ⟨c, hc, htwice⟩)
  · exact hmany
  · by_contra hone
    exact h ⟨c, (Set.not_nontrivial_iff.mp hone).eq_singleton_of_mem hc, htwice⟩

/-- The sets of classes alone decide just if no class that is the only one for its role is doubled; the parser
classes only count when a lexer class is chosen. -/
theorem warrants_iff_presumes :
    (∀ v, m.Warrants list grammar v ↔ m.Presumes list grammar v) ↔
      ¬ m.Doubled list grammar .lexer ∧
        ((∃ lexer, m.Sole list grammar .lexer lexer) → ¬ m.Doubled list grammar .parser) := by
  constructor
  · intro h
    constructor
    · rintro ⟨c, hset, htwice⟩
      have hmany : (m.suits list grammar .lexer).Nontrivial :=
        (h (.several .lexer)).mp (Or.inr ⟨c, hset ▸ rfl, htwice⟩)
      rw [hset] at hmany
      exact Set.not_nontrivial_singleton hmany
    · rintro hlexer ⟨c, hset, htwice⟩
      have hmany : (m.suits list grammar .parser).Nontrivial :=
        ((h (.several .parser)).mp ⟨hlexer, Or.inr ⟨c, hset ▸ rfl, htwice⟩⟩).2
      rw [hset] at hmany
      exact Set.not_nontrivial_singleton hmany
  · rintro ⟨hlexer, hparser⟩ v
    have hsole : ∀ c, m.Sole list grammar .lexer c ↔ m.suits list grammar .lexer = {c} :=
      fun c => sole_iff hlexer
    rcases v with ⟨lexer, parser⟩ | ⟨_ | _⟩ | ⟨_ | _⟩
    · simp only [Warrants, Presumes, hsole]
      exact and_congr_right fun hset => sole_iff (hparser ⟨lexer, (hsole lexer).mpr hset⟩)
    · exact Iff.rfl
    · simp only [Warrants, Presumes, hsole]
    · exact several_iff hlexer
    · simp only [Warrants, Presumes, ← hsole]
      exact and_congr_right fun hchosen => several_iff (hparser hchosen)

def soleLexer : Class :=
  { own :=
      { id := 6, name := "ALexer", home := "m", watched := true
        members := [("tokenize", .lexing (.scan {}))] }
    behind := Class.lexer.layers }

def soleParser : Class :=
  { own :=
      { id := 7, name := "AParser", home := "m", watched := true
        members := [(Class.tableName, .table [])] }
    behind := Class.parser.layers }

/-- A world with one module, whose body has not been run. -/
def blankWorld : World := { files := Files.empty [], modules := #[{ name := "m" }] }

/-- A body that defines a lexer class and a parser class. -/
def pairBody : List Statement :=
  [.define "ALexer" ["Lexer"] [("tokenize", .lexing (.scan {}))] none, .define "AParser" ["Parser"] [] none]

def paired : Module :=
  { name := "m", names := [("ALexer", .type soleLexer), ("AParser", .type soleParser)] }

example : (blankWorld.run (Loading.run 0 pairBody)).2.module 0 = paired := rfl

theorem lists_paired : paired.Lists none := Or.inl rfl

theorem exposed_paired : paired.exposed none = [soleLexer, soleParser] := rfl

theorem named_paired (r : Role) : paired.Named none (some "A") r := by
  intro _ c hc _
  rw [← mem_exposed, exposed_paired] at hc
  have hok : (c.grammarName r.suffix).isOk = true := by
    rcases List.mem_cons.mp hc with rfl | hc
    · cases r <;> decide +kernel
    · obtain rfl := List.mem_singleton.mp hc
      cases r <;> decide +kernel
  exact Outcome.exists_of_isOk hok

theorem suitable_paired_lexers : paired.suitable none (some "A") .lexer = [soleLexer] := by
  unfold suitable
  rw [exposed_paired, List.filter_cons_of_pos (by decide +kernel),
    List.filter_cons_of_neg (by decide +kernel), List.filter_nil]

theorem suitable_paired_parsers : paired.suitable none (some "A") .parser = [soleParser] := by
  unfold suitable
  rw [exposed_paired, List.filter_cons_of_neg (by decide +kernel),
    List.filter_cons_of_pos (by decide +kernel), List.filter_nil]

/-- The same module with a second name for the lexer class. -/
def doubled : Module := paired.bind "Again" (.type soleLexer)

theorem lists_doubled : doubled.Lists none := Or.inl rfl

theorem exposed_doubled : doubled.exposed none = [soleLexer, soleParser, soleLexer] := rfl

theorem suitable_doubled_lexers : doubled.suitable none none .lexer = [soleLexer, soleLexer] := by
  unfold suitable
  rw [exposed_doubled, List.filter_cons_of_pos (by decide +kernel),
    List.filter_cons_of_neg (by decide +kernel), List.filter_cons_of_pos (by decide +kernel),
    List.filter_nil]

theorem suitable_doubled_parsers : doubled.suitable none none .parser = [soleParser] := by
  unfold suitable
  rw [exposed_doubled, List.filter_cons_of_neg (by decide +kernel),
    List.filter_cons_of_pos (by decide +kernel), List.filter_cons_of_neg (by decide +kernel),
    List.filter_nil]

end GrammarBench.Module
