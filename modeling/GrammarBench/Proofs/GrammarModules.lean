import GrammarBench.Proofs.Compilation
import GrammarBench.Proofs.GrammarLabels
import GrammarBench.Proofs.Prevailing
import GrammarBench.Proofs.Resolution

/-!
# Modules made of grammars

What a module exposes that is made of grammar texts only. Its classes are bound under names that are made of
the stems of the files, and different stems may make the same name: the classes of the last file are the ones
that are found then.

* `Compile.BuiltFrom`: the classes of some files, with numbers that follow one another.
* `Compile.exposes_iff`, `Compile.suits_iff`: what a module of grammars exposes, and for which grammar.
* `compileModule_grammars`: which classes are found by the stems of the files.
-/

namespace GrammarBench

namespace Loading.Compile

open World

variable {fs : Files} {home : String} {options : List (String × Value)}

/-! ## The classes of some files -/

/-- A file with the classes that its grammar has been built into. -/
abbrev BuiltFile := String × GrammarClasses

namespace BuiltFile

def stem (i : BuiltFile) : String := Path.stem i.1

/-- What the names of the classes start with. -/
def label (i : BuiltFile) : String := Grammar.className i.stem

def classes (i : BuiltFile) : List Class := [i.2.lexer, i.2.parser]

end BuiltFile

/-- The classes of some accepted files, with numbers that follow one another. -/
inductive BuiltFrom (fs : Files) (home : String) (options : List (String × Value)) :
    Nat → List BuiltFile → Prop
  | nil (n : Nat) : BuiltFrom fs home options n []
  | cons {n : Nat} {path text : String} {g : GrammarClasses} {rest : List BuiltFile} :
      verdict fs options path = .grammar text →
      GrammarClasses.build n (Path.stem path) text home options (shelf fs) = .ok g →
      BuiltFrom fs home options (n + 2) rest → BuiltFrom fs home options n ((path, g) :: rest)

/-- A grammar is made of a file with the right suffix. -/
theorem endsWith_of_verdict {path text : String} (h : verdict fs options path = .grammar text) :
    path.endsWith grammarSuffix = true := by
  by_contra hpath
  unfold verdict at h
  cases hopened : fs.opened path with
  | error e =>
      rw [hopened] at h
      cases e <;> cases h
  | ok c =>
      rw [hopened] at h
      dsimp only at h
      rw [if_neg hpath] at h
      split at h <;> cases h

/-- An accepted grammar adds its two classes, with the next numbers. -/
theorem run_addGrammar_accepted (w : World) {path text : String}
    (h : verdict w.files options path = .grammar text) (s : Sources) :
    ∃ g w', GrammarClasses.build w.nextClass (Path.stem path) text home options (shelf w.files) = .ok g ∧
      w.run (addFile home options s path) =
        (.ok { s with classes := s.classes ++ [g.lexer, g.parser] }, w') ∧
      w'.nextClass = w.nextClass + 2 ∧ Noted w w' := by
  have hpath := endsWith_of_verdict h
  unfold addFile
  rw [if_pos hpath]
  unfold addGrammar
  rw [run_bind_ok (run_get w)]
  unfold verdict at h
  cases hopened : w.files.opened path with
  | error e =>
      rw [hopened] at h
      cases e <;> cases h
  | ok c =>
      rw [hopened] at h
      dsimp only at h ⊢
      rw [if_pos hpath] at h
      rw [run_bind, run_lift]
      cases htext : Files.textOf c.data with
      | error f =>
          rw [htext] at h
          cases h
      | ok chars =>
          rw [htext] at h
          dsimp only [Except.mapError] at h ⊢
          unfold grammarVerdict at h
          have hbuild := build_of_language w.files home options w.nextClass (Path.stem path)
            (String.ofList chars)
          cases hlanguage : Grammar.Language.build (shelf w.files) (String.ofList chars)
              (GrammarClasses.startsOf (Grammar.ruleNames (String.ofList chars))) options with
          | error f =>
              rw [hlanguage] at h
              dsimp only at h
              split at h <;> cases h
          | ok l =>
              rw [hlanguage] at h hbuild
              obtain ⟨g, hg⟩ := hbuild
              cases h
              rw [hg]
              exact ⟨g, _, rfl, rfl, rfl, ⟨rfl, rfl, rfl, rfl, rfl⟩⟩

/-- Accepted files are read into their classes, two for each. -/
theorem run_addFiles_accepted (files : List String) (w : World) (s : Sources)
    (h : ∀ path ∈ files, ∃ text, verdict w.files options path = .grammar text) :
    ∃ items w', items.map (·.1) = files ∧ BuiltFrom w.files home options w.nextClass items ∧
      w.run (files.foldlM (addFile home options) s) =
        (.ok { s with classes := s.classes ++ items.flatMap BuiltFile.classes }, w') ∧ Noted w w' := by
  induction files generalizing w s with
  | nil => exact ⟨[], w, rfl, .nil _, by simp, Noted.refl w⟩
  | cons path rest ih =>
      obtain ⟨text, htext⟩ := h path List.mem_cons_self
      obtain ⟨g, w₁, hg, hrun, hnext, hnoted⟩ : ∃ g w₁, _ ∧ w.run (addFile home options s path) = _ ∧ _ :=
        run_addGrammar_accepted w htext s
      have hrest : ∀ p ∈ rest, ∃ text, verdict w₁.files options p = .grammar text := by
        intro p hp
        rw [hnoted.files]
        exact h p (List.mem_cons_of_mem _ hp)
      obtain ⟨items, w₂, hitems, hbuilt, hrun', hnoted'⟩ := ih w₁ _ hrest
      rw [hnoted.files, hnext] at hbuilt
      refine ⟨(path, g) :: items, w₂, by rw [List.map_cons, hitems], .cons htext hg hbuilt, ?_,
        hnoted.trans hnoted'⟩
      rw [List.foldlM_cons, run_bind_ok hrun, hrun', List.flatMap_cons]
      simp [BuiltFile.classes]

namespace BuiltFrom

variable {n : Nat} {items : List BuiltFile}

theorem built (h : BuiltFrom fs home options n items) : ∀ i ∈ items, ∃ text id,
    verdict fs options i.1 = .grammar text ∧
      GrammarClasses.build id i.stem text home options (shelf fs) = .ok i.2 := by
  induction h with
  | nil n => exact fun i hi => nomatch hi
  | cons htext hg _ ih =>
      intro i hi
      rcases List.mem_cons.mp hi with rfl | hi
      · exact ⟨_, _, htext, hg⟩
      · exact ih i hi

theorem labelled (h : BuiltFrom fs home options n items) :
    ∀ i ∈ items, ∃ id, n ≤ id ∧ i.2.LabelledPair id i.stem home := by
  induction h with
  | nil n => exact fun i hi => nomatch hi
  | cons htext hg _ ih =>
      intro i hi
      rcases List.mem_cons.mp hi with rfl | hi
      · exact ⟨_, Nat.le_refl _, GrammarClasses.labelled_of_build hg⟩
      · obtain ⟨id, hid, hlabelled⟩ := ih i hi
        exact ⟨id, Nat.le_of_add_right_le hid, hlabelled⟩

theorem le_id (h : BuiltFrom fs home options n items) :
    ∀ c ∈ items.flatMap BuiltFile.classes, n ≤ c.own.id := by
  intro c hc
  obtain ⟨i, hi, hc⟩ := List.mem_flatMap.mp hc
  obtain ⟨id, hid, hlabelled⟩ := h.labelled i hi
  rcases List.mem_cons.mp hc with rfl | hc
  · rw [hlabelled.lexer.id]
    exact hid
  · rw [List.mem_singleton.mp hc, hlabelled.parser.id]
    exact Nat.le_succ_of_le hid

/-- All classes of some files have numbers of their own. -/
theorem distinct (h : BuiltFrom fs home options n items) :
    ((items.flatMap BuiltFile.classes).map (·.own.id)).Nodup := by
  induction h with
  | nil n => exact List.nodup_nil
  | @cons n path text g rest htext hg hrest ih =>
      have hpair := GrammarClasses.labelled_of_build hg
      have hlater : ∀ k ∈ (rest.flatMap BuiltFile.classes).map (·.own.id), n + 2 ≤ k := by
        intro k hk
        obtain ⟨c, hc, rfl⟩ := List.mem_map.mp hk
        exact hrest.le_id c hc
      show (g.lexer.own.id :: g.parser.own.id :: (rest.flatMap BuiltFile.classes).map (·.own.id)).Nodup
      rw [hpair.lexer.id, hpair.parser.id, List.nodup_cons, List.nodup_cons]
      refine ⟨fun hmem => ?_, fun hmem => ?_, ih⟩
      · rcases List.mem_cons.mp hmem with hsame | hmem
        · omega
        · exact absurd (hlater n hmem) (by omega)
      · exact absurd (hlater _ hmem) (by omega)

end BuiltFrom

/-! ## The names in a module of grammars -/

/-- The names that a module of grammars binds. -/
def grammarNames (items : List BuiltFile) : List (String × Bound) :=
  Ordered.ofList ((items.flatMap BuiltFile.classes).map fun c => (c.name, .type c))

/-- Files whose classes are labelled by the stems of the files. -/
def Labelled (home : String) (items : List BuiltFile) : Prop :=
  ∀ i ∈ items, ∃ id, Layer.firstFree ≤ id ∧ i.2.LabelledPair id i.stem home

variable {items : List BuiltFile} {i j : BuiltFile} {c : Class}

theorem lexerName_ne_parserName (a b : String) : a ++ "Lexer" ≠ b ++ "Parser" := by
  intro h
  have hlists := congrArg (fun s => (String.toList s).reverse) h
  simp only [String.toList_append, List.reverse_append] at hlists
  simp at hlists

theorem append_right_injective {a b s : String} (h : a ++ s = b ++ s) : a = b := by
  have hlists := congrArg String.toList h
  rw [String.toList_append, String.toList_append] at hlists
  exact String.toList_injective (List.append_cancel_right hlists)

/-- A class of one file has the name of a class of another just if both have one role and the labels of the
files are the same. -/
theorem exists_sameName_iff {id id' : Nat} (hi : i.2.LabelledPair id i.stem home)
    (hj : j.2.LabelledPair id' j.stem home) (hc : c ∈ i.classes) :
    (∃ d ∈ j.classes, d.name = c.name) ↔ j.label = i.label := by
  have hlexer : j.2.lexer.name = j.label ++ "Lexer" := hj.lexer.name
  have hparser : j.2.parser.name = j.label ++ "Parser" := hj.parser.name
  unfold BuiltFile.classes
  simp only [List.mem_cons, List.not_mem_nil, or_false, exists_eq_or_imp, exists_eq_left, hlexer, hparser]
  rcases List.mem_cons.mp hc with rfl | hc
  · rw [show i.2.lexer.name = i.label ++ "Lexer" from hi.lexer.name]
    constructor
    · rintro (h | h)
      · exact append_right_injective h
      · exact absurd h.symm (lexerName_ne_parserName _ _)
    · exact fun h => Or.inl (by rw [h])
  · rw [List.mem_singleton.mp hc, show i.2.parser.name = i.label ++ "Parser" from hi.parser.name]
    constructor
    · rintro (h | h)
      · exact absurd h (lexerName_ne_parserName _ _)
      · exact append_right_injective h
    · exact fun h => Or.inr (by rw [h])

namespace BuiltFile

/-- The class of a file for a role. -/
def classFor (i : BuiltFile) : Role → Class
  | .lexer => i.2.lexer
  | .parser => i.2.parser

theorem map_label {items : List BuiltFile} {files : List String} (h : items.map (·.1) = files) :
    items.map BuiltFile.label = files.map fun path => Grammar.className (Path.stem path) := by
  have hlabel : BuiltFile.label = fun i : BuiltFile => Grammar.className (Path.stem i.1) := by
    funext i
    unfold label stem
    rfl
  rw [← h, List.map_map, hlabel]
  simp only [Function.comp_def]

theorem map_stem {items : List BuiltFile} {files : List String} (h : items.map (·.1) = files) :
    items.map (fun i => Text.toLower i.stem) = files.map fun path => Text.toLower (Path.stem path) := by
  rw [← h, List.map_map]
  rfl

theorem classFor_mem (i : BuiltFile) (r : Role) : i.classFor r ∈ i.classes := by
  cases r with
  | lexer => exact List.mem_cons_self
  | parser => exact List.mem_cons_of_mem _ List.mem_cons_self

theorem fits_classFor {id : Nat} (h : i.2.LabelledPair id i.stem home) (hid : Layer.firstFree ≤ id)
    (r : Role) : r.fits (i.classFor r) = true := by
  cases r with
  | lexer => exact (GrammarClasses.fits_lexerClass h hid .lexer).mpr rfl
  | parser => exact (GrammarClasses.fits_parserClass h hid .parser).mpr rfl

theorem eq_classFor {id : Nat} (h : i.2.LabelledPair id i.stem home) (hid : Layer.firstFree ≤ id)
    (hc : c ∈ i.classes) {r : Role} (hfits : r.fits c = true) : c = i.classFor r := by
  rcases List.mem_cons.mp hc with rfl | hc
  · rw [(GrammarClasses.fits_lexerClass h hid r).mp hfits]
    rfl
  · rw [List.mem_singleton.mp hc] at hfits ⊢
    rw [(GrammarClasses.fits_parserClass h hid r).mp hfits]
    rfl

theorem grammarName {id : Nat} (h : i.2.LabelledPair id i.stem home) (hc : c ∈ i.classes)
    (suffix : String) : c.grammarName suffix = .ok (Text.toLower i.stem) := by
  rcases List.mem_cons.mp hc with rfl | hc
  · exact h.lexer.grammarName suffix
  · rw [List.mem_singleton.mp hc]
    exact h.parser.grammarName suffix

end BuiltFile

theorem Labelled.tail {rest : List BuiltFile} (h : Labelled home (i :: rest)) : Labelled home rest :=
  fun j hj => h j (List.mem_cons_of_mem _ hj)

/-- No class of later files has the name of a class just if no later file has the label of its file. -/
theorem forall_name_ne_iff {rest : List BuiltFile} (hi : Labelled home (i :: rest)) (hc : c ∈ i.classes) :
    (∀ d ∈ rest.flatMap BuiltFile.classes, d.name ≠ c.name) ↔ ∀ j ∈ rest, j.label ≠ i.label := by
  obtain ⟨id, -, hlabelled⟩ := hi i List.mem_cons_self
  constructor
  · intro h j hj hlabel
    obtain ⟨id', -, hlabelled'⟩ := hi j (List.mem_cons_of_mem _ hj)
    obtain ⟨d, hd, hname⟩ := (exists_sameName_iff hlabelled hlabelled' hc).mpr hlabel
    exact h d (List.mem_flatMap.mpr ⟨j, hj, hd⟩) hname
  · intro h d hd hname
    obtain ⟨j, hj, hd⟩ := List.mem_flatMap.mp hd
    obtain ⟨id', -, hlabelled'⟩ := hi j (List.mem_cons_of_mem _ hj)
    exact h j hj ((exists_sameName_iff hlabelled hlabelled' hc).mp ⟨d, hd, hname⟩)

/-- The last classes under their names are those of the last files under their labels. -/
theorem prevails_classes (h : Labelled home items) :
    Prevails Class.name c (items.flatMap BuiltFile.classes) ↔
      ∃ i, c ∈ i.classes ∧ Prevails BuiltFile.label i items := by
  induction items with
  | nil =>
      refine ⟨fun hc => absurd hc not_prevails_nil, ?_⟩
      rintro ⟨i, -, hi⟩
      exact absurd hi not_prevails_nil
  | cons i rest ih =>
      obtain ⟨id, -, hlabelled⟩ := h i List.mem_cons_self
      have hnames : i.2.parser.name ≠ i.2.lexer.name := by
        rw [hlabelled.lexer.name, hlabelled.parser.name]
        exact (lexerName_ne_parserName _ _).symm
      show Prevails Class.name c (i.2.lexer :: i.2.parser :: rest.flatMap BuiltFile.classes) ↔ _
      rw [prevails_cons, prevails_cons, ih h.tail]
      simp only [prevails_cons, List.forall_mem_cons]
      constructor
      · rintro (⟨rfl, -, hlater⟩ | ⟨rfl, hlater⟩ | ⟨j, hc, hj⟩)
        · exact ⟨i, List.mem_cons_self, Or.inl ⟨rfl, (forall_name_ne_iff h List.mem_cons_self).mp hlater⟩⟩
        · have hc : i.2.parser ∈ i.classes := List.mem_cons_of_mem _ List.mem_cons_self
          exact ⟨i, hc, Or.inl ⟨rfl, (forall_name_ne_iff h hc).mp hlater⟩⟩
        · exact ⟨j, hc, Or.inr hj⟩
      · rintro ⟨j, hc, ⟨rfl, hlater⟩ | hj⟩
        · rcases List.mem_cons.mp hc with rfl | hparser
          · exact Or.inl ⟨rfl, hnames, (forall_name_ne_iff h hc).mpr hlater⟩
          · obtain rfl := List.mem_singleton.mp hparser
            exact Or.inr (Or.inl ⟨rfl, (forall_name_ne_iff h hc).mpr hlater⟩)
        · exact Or.inr (Or.inr ⟨j, hc, hj⟩)

/-- What the names of a module of grammars stand for. -/
theorem mem_grammarNames (h : Labelled home items) {e : String × Bound} :
    e ∈ grammarNames items ↔
      ∃ c i, e = (c.name, .type c) ∧ c ∈ i.classes ∧ Prevails BuiltFile.label i items := by
  unfold grammarNames
  rw [Ordered.mem_ofList]
  constructor
  · intro he
    obtain ⟨c, -, rfl⟩ := List.mem_map.mp he.mem
    have hc : Prevails Class.name c (items.flatMap BuiltFile.classes) :=
      (prevails_map fun c d heq => Bound.type.inj (Prod.mk.inj heq).2).mp he
    obtain ⟨i, hi, hprevails⟩ := (prevails_classes h).mp hc
    exact ⟨c, i, rfl, hi, hprevails⟩
  · rintro ⟨c, i, rfl, hi, hprevails⟩
    have hc := (prevails_classes h).mpr ⟨i, hi, hprevails⟩
    exact (prevails_map fun c d heq => Bound.type.inj (Prod.mk.inj heq).2).mpr hc

/-! ## What a module of grammars exposes -/

/-- A module of grammars that goes by some name. -/
structure IsGrammarModule (m : Module) (home : String) (items : List BuiltFile) : Prop where
  name : m.name = home
  names : m.names = grammarNames items
  labelled : Labelled home items

namespace IsGrammarModule

variable {m : Module} {grammar : Option String} {r : Role}

/-- No class goes by a name that modules use for themselves. -/
theorem find?_eq_none (hm : IsGrammarModule m home items) {name : String}
    (hlexer : ∀ s, name ≠ s ++ "Lexer") (hparser : ∀ s, name ≠ s ++ "Parser") :
    Ordered.find? name m.names = none := by
  refine Ordered.find?_eq_none fun hmem => ?_
  obtain ⟨e, he, rfl⟩ := List.mem_map.mp hmem
  rw [hm.names, mem_grammarNames hm.labelled] at he
  obtain ⟨c, i, rfl, hc, hprevails⟩ := he
  obtain ⟨id, -, hlabelled⟩ := hm.labelled i hprevails.mem
  rcases List.mem_cons.mp hc with rfl | hc
  · exact hlexer _ hlabelled.lexer.name
  · rw [List.mem_singleton.mp hc] at hparser
    exact hparser _ hlabelled.parser.name

theorem ends_ne {name suffix : String} (h : name.toList.getLast? ≠ suffix.toList.getLast?)
    (hsuffix : suffix.toList ≠ []) (s : String) : name ≠ s ++ suffix := by
  rintro rfl
  rw [String.toList_append, List.getLast?_append_of_ne_nil _ hsuffix] at h
  exact h rfl

theorem ownName (hm : IsGrammarModule m home items) : m.ownName = home := by
  unfold Module.ownName Module.get?
  rw [hm.find?_eq_none (ends_ne (by decide) (by decide)) (ends_ne (by decide) (by decide))]
  exact hm.name

theorem lists (hm : IsGrammarModule m home items) : m.Lists none := by
  refine Or.inl ?_
  unfold Module.get?
  rw [hm.find?_eq_none (ends_ne (by decide) (by decide)) (ends_ne (by decide) (by decide))]
  rfl

/-- The classes of the last files under their labels are exposed, and no others. -/
theorem exposes_iff (hm : IsGrammarModule m home items) :
    m.Exposes none c ↔ ∃ i, c ∈ i.classes ∧ Prevails BuiltFile.label i items := by
  unfold Module.Exposes Module.shown Module.Admits
  simp only [hm.names, hm.ownName, mem_grammarNames hm.labelled]
  constructor
  · rintro ⟨-, n, d, i, heq, hd, hprevails⟩
    obtain rfl : c = d := Bound.type.inj (Prod.mk.inj heq).2
    exact ⟨i, hd, hprevails⟩
  · rintro ⟨i, hc, hprevails⟩
    obtain ⟨id, -, hlabelled⟩ := hm.labelled i hprevails.mem
    refine ⟨fun _ => ?_, c.name, c, i, rfl, hc, hprevails⟩
    rcases List.mem_cons.mp hc with rfl | hc
    · exact hlabelled.lexer.home
    · rw [List.mem_singleton.mp hc]
      exact hlabelled.parser.home

/-- No class is exposed at two places. -/
theorem not_exposesTwice (hm : IsGrammarModule m home items) : ¬ m.ExposesTwice none c := by
  rintro ⟨-, n, k, hsub⟩
  have hname : ∀ n, (n, Bound.type c) ∈ m.names → n = c.name := by
    intro n hn
    rw [hm.names, mem_grammarNames hm.labelled] at hn
    obtain ⟨d, i, heq, -⟩ := hn
    obtain ⟨hn, hd⟩ := Prod.mk.inj heq
    rw [hn, Bound.type.inj hd]
  have hn := hname n (hsub.subset List.mem_cons_self)
  have hk := hname k (hsub.subset (List.mem_cons_of_mem _ List.mem_cons_self))
  have hnodup : ([n, k] : List String).Nodup := by
    have hkeys : (m.names.map (·.1)).Nodup := hm.names ▸ Ordered.nodup_ofList _
    exact hkeys.sublist (hsub.map fun e : String × Bound => e.1)
  rw [hn, hk] at hnodup
  exact absurd hnodup (by simp)

/-- The classes that can play a role for a grammar are those of the last files under their labels whose stems
name the grammar. -/
theorem mem_suits_iff (hm : IsGrammarModule m home items) :
    c ∈ m.suits none grammar r ↔ ∃ i, c = i.classFor r ∧ Prevails BuiltFile.label i items ∧
      ∀ g, grammar = some g → Text.toLower i.stem = Text.toLower g := by
  constructor
  · rintro ⟨hexposed, hfits, hnamed⟩
    obtain ⟨i, hc, hprevails⟩ := hm.exposes_iff.mp hexposed
    obtain ⟨id, hid, hlabelled⟩ := hm.labelled i hprevails.mem
    refine ⟨i, BuiltFile.eq_classFor hlabelled hid hc hfits, hprevails, fun g hg => ?_⟩
    rw [← Except.ok.injEq (ε := Failure), ← hnamed g hg, BuiltFile.grammarName hlabelled hc]
  · rintro ⟨i, rfl, hprevails, hnamed⟩
    obtain ⟨id, hid, hlabelled⟩ := hm.labelled i hprevails.mem
    refine ⟨hm.exposes_iff.mpr ⟨i, i.classFor_mem r, hprevails⟩, BuiltFile.fits_classFor hlabelled hid r,
      fun g hg => ?_⟩
    rw [BuiltFile.grammarName hlabelled (i.classFor_mem r), hnamed g hg]

theorem named (hm : IsGrammarModule m home items) (grammar : Option String) (r : Role) :
    m.Named none grammar r := by
  intro _ c hc _
  obtain ⟨i, hc, hprevails⟩ := hm.exposes_iff.mp hc
  obtain ⟨id, -, hlabelled⟩ := hm.labelled i hprevails.mem
  exact ⟨_, BuiltFile.grammarName hlabelled hc _⟩

theorem resolves_iff (hm : IsGrammarModule m home items) (w : World) (v : Module.Verdict) :
    m.Resolves grammar w v ↔ m.Warrants none grammar v :=
  Module.resolves_iff_warrants hm.lists (hm.named grammar) w v

/-- The classes of a file are found by its stem if no later file has its label. -/
theorem resolves_pair (hm : IsGrammarModule m home items)
    (hstems : (items.map fun i => Text.toLower i.stem).Nodup) (hi : Prevails BuiltFile.label i items)
    (w : World) : m.Resolves (some i.stem) w (.pair i.2.lexer i.2.parser) := by
  have hsole (r : Role) : m.Sole none (some i.stem) r (i.classFor r) := by
    refine ⟨Set.ext fun c => ?_, hm.not_exposesTwice⟩
    rw [hm.mem_suits_iff, Set.mem_singleton_iff]
    constructor
    · rintro ⟨j, rfl, hj, hstem⟩
      rw [List.inj_on_of_nodup_map hstems hj.mem hi.mem (hstem _ rfl)]
    · rintro rfl
      exact ⟨i, rfl, hi, fun g hg => by rw [Option.some.inj hg]⟩
  exact (hm.resolves_iff w _).mpr ⟨hsole .lexer, hsole .parser⟩

/-- No classes are found by the stem of a file when a later file has its label. -/
theorem resolves_absent (hm : IsGrammarModule m home items)
    (hstems : (items.map fun i => Text.toLower i.stem).Nodup) (hmem : i ∈ items)
    (hi : ¬ Prevails BuiltFile.label i items) (w : World) :
    m.Resolves (some i.stem) w (.absent .lexer) := by
  refine (hm.resolves_iff w _).mpr (Set.eq_empty_iff_forall_notMem.mpr fun c hc => ?_)
  obtain ⟨j, -, hj, hstem⟩ := hm.mem_suits_iff.mp hc
  obtain rfl := List.inj_on_of_nodup_map hstems hj.mem hmem (hstem _ rfl)
  exact hi hj

/-- Without a name there are too many classes just if there are several labels. -/
theorem resolves_several (hm : IsGrammarModule m home items) (w : World) :
    m.Resolves none w (.several .lexer) ↔ ∃ i ∈ items, ∃ j ∈ items, i.label ≠ j.label := by
  rw [hm.resolves_iff]
  constructor
  · rintro (⟨c, hc, d, hd, hne⟩ | ⟨c, -, htwice⟩)
    · obtain ⟨i, rfl, hi, -⟩ := hm.mem_suits_iff.mp hc
      obtain ⟨j, rfl, hj, -⟩ := hm.mem_suits_iff.mp hd
      refine ⟨i, hi.mem, j, hj.mem, fun hlabel => hne ?_⟩
      rw [hi.unique hj hlabel]
    · exact absurd htwice hm.not_exposesTwice
  · rintro ⟨i, hi, j, hj, hne⟩
    obtain ⟨i', hlabel, hi'⟩ : ∃ i', i'.label = i.label ∧ Prevails BuiltFile.label i' items :=
      exists_prevails hi
    obtain ⟨j', hlabel', hj'⟩ : ∃ j', j'.label = j.label ∧ Prevails BuiltFile.label j' items :=
      exists_prevails hj
    have hsuits {k : BuiltFile} (hk : Prevails BuiltFile.label k items) :
        k.classFor .lexer ∈ m.suits none none .lexer :=
      hm.mem_suits_iff.mpr ⟨k, rfl, hk, fun g hg => nomatch hg⟩
    refine Or.inl ⟨_, hsuits hi', _, hsuits hj', fun hsame => hne ?_⟩
    obtain ⟨id, -, hlabelled⟩ := hm.labelled i' hi'.mem
    obtain ⟨id', -, hlabelled'⟩ := hm.labelled j' hj'.mem
    have hname := congrArg Class.name hsame
    rw [show (i'.classFor .lexer).name = _ from hlabelled.lexer.name,
      show (j'.classFor .lexer).name = _ from hlabelled'.lexer.name] at hname
    rw [← hlabel, ← hlabel']
    exact append_right_injective hname

/-- A file's classes are exposed only if no later file has its label. -/
theorem prevails_of_exposes (hm : IsGrammarModule m home items)
    (hstems : (items.map fun i => Text.toLower i.stem).Nodup) (hmem : i ∈ items) (hc : c ∈ i.classes)
    (h : m.Exposes none c) : Prevails BuiltFile.label i items := by
  obtain ⟨j, hcj, hj⟩ := hm.exposes_iff.mp h
  obtain ⟨id, -, hi⟩ := hm.labelled i hmem
  obtain ⟨id', -, hj'⟩ := hm.labelled j hj.mem
  have hstem := (BuiltFile.grammarName hi hc "").symm.trans (BuiltFile.grammarName hj' hcj "")
  rw [List.inj_on_of_nodup_map hstems hmem hj.mem (Except.ok.inj hstem)]
  exact hj

end IsGrammarModule

/-! ## The compilation of grammars -/

theorem Labelled.of_builtFrom {n : Nat} (hn : Layer.firstFree ≤ n)
    (h : BuiltFrom fs home options n items) : Labelled home items := by
  intro i hi
  obtain ⟨id, hid, hlabelled⟩ := h.labelled i hi
  exact ⟨id, Nat.le_trans hn hid, hlabelled⟩

/-- References that are all there leave no lines. -/
theorem run_checkReferences {w : World} {references : List String}
    (h : ∀ r ∈ (lookUps w references).1, r.2 = none) :
    ∃ paths, w.run (checkReferences references) = (.ok (paths, []), (lookUps w references).2) := by
  have hnone : referenceFailure? (lookUps w references).1 = none :=
    referenceFailure?_eq_none.mpr fun r hr f hf => by
      rw [h r hr] at hf
      cases hf
  have hlines : referenceLines (lookUps w references).1 = [] := by
    unfold referenceLines
    rw [List.filterMap_eq_nil_iff]
    intro r hr
    rw [h r hr]
    rfl
  have hrun : w.run (checkReferences references) = _ := run_addReferences references ([], []) w
  rw [hnone, hlines] at hrun
  exact ⟨_, hrun⟩

/-- Accepted files without bodies become a module of grammars. -/
theorem run_compileGrammars {w : World} {files references : List String} {name : Option String}
    {options : List (String × Value)} (hfiles : files ≠ [])
    (haccepted : ∀ path ∈ files, ∃ text, verdict w.files options path = .grammar text)
    (hreferences : ∀ r ∈ (lookUps (behindFiles w (nameOrDefault name) options files) references).1,
      r.2 = none) :
    ∃ id w' items, w.run (compileModule files references name options) = (.ok id, w') ∧
      items.map (·.1) = files ∧ BuiltFrom w.files (nameOrDefault name) options w.nextClass items ∧
      (w'.module id).name = nameOrDefault name ∧ (w'.module id).names = grammarNames items := by
  obtain ⟨items, behind, hitems, hbuilt, hread, -⟩ :=
    @run_addFiles_accepted (nameOrDefault name) options files w {} haccepted
  have hbehind : behindFiles w (nameOrDefault name) options files = behind := by
    unfold behindFiles readSources
    rw [hread]
  rw [hbehind] at hreferences
  obtain ⟨paths, hchecked⟩ := run_checkReferences hreferences
  have hempty : files.isEmpty = false := List.isEmpty_eq_false_iff.mpr hfiles
  let d : Draft :=
    { name := nameOrDefault name, file := files.head?, classes := items.flatMap BuiltFile.classes
      bodies := [], paths := paths }
  have hprepared : w.run (prepare files references (nameOrDefault name) options) =
      (.ok d, (lookUps behind references).2) := by
    rw [prepare_eq, run_bind_ok (show w.run (readSources _ options files) = _ from hread),
      run_bind_ok hchecked, hempty]
    rfl
  have hrun : w.run (compileModule files references name options) = _ :=
    (run_bind_ok hprepared _).trans (run_build (lookUps behind references).2 d)
  have hmodule : (entered (lookUps behind references).2 d).module
      (lookUps behind references).2.modules.size = d.module := by
    unfold World.module entered
    simp
  refine ⟨_, _, items, hrun, hitems, hbuilt, ?_, ?_⟩
  · exact (congrArg Module.name hmodule).trans rfl
  · exact (congrArg Module.names hmodule).trans rfl

end Loading.Compile

namespace Loading

open Compile

/-- A grammar of one rule and one letter, as a file holds it. -/
def letterGrammar (letter : UInt8) : Content :=
  .bytes ("start: \"".toUTF8.toList ++ letter :: "\"\n".toUTF8.toList)

def letterFiles : Files where
  working := []
  entries := [([], .directory), (["g"], .directory),
    (["g", "a.lark"], letterGrammar 97), (["g", "b.lark"], letterGrammar 98),
    (["g", "a-b.lark"], letterGrammar 97), (["g", "a_b.lark"], letterGrammar 98)]

theorem grammar?_letterFiles :
    (["g/a.lark", "g/b.lark", "g/a-b.lark", "g/a_b.lark"].all fun path =>
      (verdict letterFiles [] path).grammar?.isSome) = true := by
  decide +kernel

def letterWorld : World := { files := letterFiles }

theorem accepted_letterFiles {path : String}
    (h : path ∈ ["g/a.lark", "g/b.lark", "g/a-b.lark", "g/a_b.lark"]) :
    ∃ text, verdict letterWorld.files [] path = .grammar text := by
  have hsome : (verdict letterWorld.files [] path).grammar?.isSome = true :=
    List.all_eq_true.mp grammar?_letterFiles path h
  generalize verdict letterWorld.files [] path = v at hsome ⊢
  cases v with
  | grammar text => exact ⟨text, rfl⟩
  | _ => cases hsome

end Loading

end GrammarBench
