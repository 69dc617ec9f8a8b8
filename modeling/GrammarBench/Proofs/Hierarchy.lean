import GrammarBench.Proofs.ClassOrder
import GrammarBench.Proofs.RuleLine

/-!
# Hierarchies

The classes that definitions give one after the other, each with any bases among the earlier ones,
and the tables of their rules.

* `Extends`, `Hierarchy`: one more class, and all classes after some definitions.
* `Hierarchy.closed`: the layers of every class are those of earlier classes.
* `Hierarchy.table_eq`: the table of every class, from its line.
* `Hierarchy.mem_layers_of_mem_line`: the line of a class goes through its own layers.
-/

namespace GrammarBench

open GrammarBench.Class

/-! ## Hierarchies -/

/-- The classes that are there before any definition, the latest one first. -/
def builtinClasses : List Class :=
  [grammarParser, grammarLexer, Class.parser, Class.lexer, watch, root]

theorem mem_builtinClasses {c : Class} (h : c ∈ builtinClasses) :
    c = grammarParser ∨ c = grammarLexer ∨ c = Class.parser ∨ c = Class.lexer ∨ c = watch ∨
      c = root := by
  unfold builtinClasses at h
  simpa only [List.mem_cons, List.not_mem_nil, or_false] using h

/-- A new class over those that are there already. It has a number of its own, and its members have
different names, none of them that of the table of rules. -/
structure Extends (classes : List Class) (own : Layer) (bases : List Class) (c : Class) : Prop where
  defined : define own bases = .ok c
  known : ∀ b ∈ bases, b ∈ classes
  fresh : ∀ d ∈ classes, d.own.id ≠ own.id
  keys : (own.members.map (·.1)).Nodup
  noTable : tableName ∉ own.members.map (·.1)

/-- The classes after some definitions, the latest one first. -/
inductive Hierarchy : List Class → Prop
  | builtins : Hierarchy builtinClasses
  | define {classes : List Class} {own : Layer} {bases : List Class} {c : Class} :
      Hierarchy classes → Extends classes own bases c → Hierarchy (c :: classes)

/-- Every layer behind a class is the own one of a class, and all layers of that one stand behind
the first class too. -/
def Backed (classes : List Class) (c : Class) : Prop :=
  ∀ l ∈ c.behind, ∃ d ∈ classes, d.own = l ∧ ∀ k ∈ d.layers, k ∈ c.behind

/-- Classes with different numbers that are backed by each other. -/
structure Closed (classes : List Class) : Prop where
  distinct : ∀ c ∈ classes, ∀ d ∈ classes, c.own.id = d.own.id → c = d
  backed : ∀ c ∈ classes, Backed classes c

theorem Closed.own_of_mem_layers {classes : List Class} (h : Closed classes) {c : Class}
    (hc : c ∈ classes) {l : Layer} (hl : l ∈ c.layers) : ∃ d ∈ classes, d.own = l := by
  rcases List.mem_cons.mp hl with rfl | hl
  · exact ⟨c, hc, rfl⟩
  · obtain ⟨d, hd, hown, -⟩ := h.backed c hc l hl
    exact ⟨d, hd, hown⟩

/-- A class with all layers of a backed one behind it is backed. -/
theorem Backed.derived {classes : List Class} {c d : Class} (h : Backed classes d)
    (hd : d ∈ classes) (hbehind : c.behind = d.layers) : Backed classes c := by
  intro l hl
  rw [hbehind] at hl ⊢
  rcases List.mem_cons.mp hl with rfl | hl
  · exact ⟨d, hd, rfl, fun _ hk => hk⟩
  · obtain ⟨e, he, hown, hlayers⟩ := h l hl
    exact ⟨e, he, hown, fun k hk => List.mem_cons_of_mem _ (hlayers k hk)⟩

theorem closed_builtins : Closed builtinClasses := by
  have hroot : Backed builtinClasses root := fun l hl => nomatch hl
  have hwatch : Backed builtinClasses watch := hroot.derived (by simp [builtinClasses]) rfl
  have hlexer : Backed builtinClasses Class.lexer := hwatch.derived (by simp [builtinClasses]) rfl
  have hparser : Backed builtinClasses Class.parser := hwatch.derived (by simp [builtinClasses]) rfl
  have hgrammarLexer : Backed builtinClasses grammarLexer :=
    hlexer.derived (by simp [builtinClasses]) rfl
  have hgrammarParser : Backed builtinClasses grammarParser :=
    hparser.derived (by simp [builtinClasses]) rfl
  constructor
  · intro c hc d hd hid
    rcases mem_builtinClasses hc with rfl | rfl | rfl | rfl | rfl | rfl <;>
      rcases mem_builtinClasses hd with rfl | rfl | rfl | rfl | rfl | rfl <;>
        first | rfl | cases hid
  · intro c hc
    rcases mem_builtinClasses hc with rfl | rfl | rfl | rfl | rfl | rfl <;> assumption

namespace Extends

variable {classes : List Class} {own : Layer} {bases : List Class} {c : Class}

/-- Behind a new class stand earlier classes with all their layers. -/
theorem backed (h : Extends classes own bases c) (hclosed : Closed classes)
    (hroot : root ∈ classes) : Backed classes c := by
  have hknown : ∀ b ∈ basesOr bases, b ∈ classes := by
    unfold basesOr
    split
    · intro b hb
      rw [List.mem_singleton.mp hb]
      exact hroot
    · exact h.known
  have howned : ∀ l ∈ ((basesOr bases).map layers ++ [(basesOr bases).map (·.own)]).flatten,
      ∃ d ∈ classes, d.own = l := by
    intro l hl
    rw [List.flatten_append, List.flatten_singleton, List.mem_append] at hl
    rcases hl with hl | hl
    · obtain ⟨ls, hls, hl⟩ := List.mem_flatten.mp hl
      obtain ⟨b, hb, rfl⟩ := List.mem_map.mp hls
      exact hclosed.own_of_mem_layers (hknown b hb) hl
    · obtain ⟨b, hb, rfl⟩ := List.mem_map.mp hl
      exact ⟨b, hknown b hb, rfl⟩
  have htold : Told ((basesOr bases).map layers ++ [(basesOr bases).map (·.own)]) := by
    intro a ha b hb hid
    obtain ⟨d, hd, rfl⟩ := howned a ha
    obtain ⟨e, he, rfl⟩ := howned b hb
    rw [hclosed.distinct d hd e he hid]
  have hmem := mem_order (defines_of_define h.defined).behind htold
  intro l hl
  obtain ⟨b, hb, hlayer⟩ := (hmem l).mp hl
  rcases List.mem_cons.mp hlayer with rfl | hbehind
  · exact ⟨b, hknown b hb, rfl, fun k hk => (hmem k).mpr ⟨b, hb, hk⟩⟩
  · obtain ⟨d, hd, hown, hlayers⟩ := hclosed.backed b (hknown b hb) l hbehind
    exact ⟨d, hd, hown, fun k hk => (hmem k).mpr ⟨b, hb, List.mem_cons_of_mem _ (hlayers k hk)⟩⟩

theorem closed (h : Extends classes own bases c) (hclosed : Closed classes)
    (hroot : root ∈ classes) : Closed (c :: classes) := by
  have hid : ∀ d ∈ classes, d.own.id ≠ c.own.id := by
    rw [(defines_of_define h.defined).id]
    exact h.fresh
  constructor
  · intro d hd e he heq
    rcases List.mem_cons.mp hd with hdc | hdc <;> rcases List.mem_cons.mp he with hec | hec
    · rw [hdc, hec]
    · rw [hdc] at heq
      exact absurd heq.symm (hid e hec)
    · rw [hec] at heq
      exact absurd heq (hid d hdc)
    · exact hclosed.distinct d hdc e hec heq
  · intro d hd l hl
    have hback : Backed classes d := by
      rcases List.mem_cons.mp hd with rfl | hd
      · exact h.backed hclosed hroot
      · exact hclosed.backed d hd
    obtain ⟨e, he, hown, hlayers⟩ := hback l hl
    exact ⟨e, List.mem_cons_of_mem _ he, hown, hlayers⟩

end Extends

namespace Hierarchy

variable {classes : List Class}

theorem root_mem (h : Hierarchy classes) : root ∈ classes := by
  induction h with
  | builtins => simp [builtinClasses]
  | define _ _ ih => exact List.mem_cons_of_mem _ ih

theorem closed (h : Hierarchy classes) : Closed classes := by
  induction h with
  | builtins => exact closed_builtins
  | define hclasses hextends ih => exact hextends.closed ih hclasses.root_mem

end Hierarchy

/-! ## Tables of hierarchies -/

/-- A parser class holds the table of its line, and no other class holds a table. -/
structure Tabled (classes : List Class) (c : Class) : Prop where
  table : c.isParser = true → ∃ table, Ordered.find? tableName c.own.members = some (.table table) ∧
    ∀ name, Ordered.find? name table = RuleTable.ofLine (line classes c.own.id) name
  noTable : c.isParser = false → Ordered.find? tableName c.own.members = none

/-- No class that is there before any definition marks anything. -/
theorem unmarked_builtins {c : Class} (hc : c ∈ builtinClasses) :
    ∀ m ∈ c.own.members, m.2.isMarked = false := by
  rcases mem_builtinClasses hc with rfl | rfl | rfl | rfl | rfl | rfl <;> decide

theorem ofLine_builtins (id : Nat) (name : String) :
    RuleTable.ofLine (line builtinClasses id) name = none := by
  refine RuleTable.ofLine_eq_none (fun l hl m hm => ?_) name
  obtain ⟨c, hc, rfl⟩ := own_of_mem_line hl
  exact unmarked_builtins hc m hm

theorem tabled_builtins {c : Class} (hc : c ∈ builtinClasses) : Tabled builtinClasses c := by
  have hcases : Ordered.find? tableName c.own.members = some (.table []) ∧ c.isParser = true ∨
      Ordered.find? tableName c.own.members = none ∧ c.isParser = false := by
    rcases mem_builtinClasses hc with rfl | rfl | rfl | rfl | rfl | rfl
    · exact Or.inl ⟨rfl, rfl⟩
    · exact Or.inr ⟨rfl, rfl⟩
    · exact Or.inl ⟨rfl, rfl⟩
    · exact Or.inr ⟨rfl, rfl⟩
    · exact Or.inr ⟨rfl, rfl⟩
    · exact Or.inr ⟨rfl, rfl⟩
  rcases hcases with ⟨hfind, hparser⟩ | ⟨hfind, hparser⟩
  · refine ⟨fun _ => ⟨[], hfind, fun name => (ofLine_builtins _ name).symm⟩, fun h => ?_⟩
    rw [hparser] at h
    cases h
  · refine ⟨fun h => ?_, fun _ => hfind⟩
    rw [hparser] at h
    cases h

theorem line_subset_builtins {c : Class} (hc : c ∈ builtinClasses) :
    line builtinClasses c.own.id ⊆ c.layers := by
  have hone (l : Layer) (rest : List Layer) : [l] ⊆ l :: rest :=
    List.cons_subset_cons l (List.nil_subset rest)
  rcases mem_builtinClasses hc with rfl | rfl | rfl | rfl | rfl | rfl
  · show [Layer.grammarParser, Layer.parser] ⊆ grammarParser.layers
    exact List.cons_subset_cons _ (hone _ _)
  all_goals exact hone _ _

/-- The table behind a new class is that of the line of the first class behind it that has one. -/
theorem Backed.tableBehind {classes : List Class} {c : Class} (hbacked : Backed classes c)
    (htabled : ∀ d ∈ classes, Tabled classes d) :
    ∃ table, RuleTable.ofMember ((memberOf? c.behind tableName).getD (.table [])) = .ok table ∧
      ∀ name, Ordered.find? name table =
        RuleTable.ofLine ((c.behind.find? hasTable).elim [] fun l => line classes l.id) name := by
  rw [memberOf?_tableName]
  cases hfirst : c.behind.find? hasTable with
  | none => exact ⟨[], rfl, fun name => rfl⟩
  | some l =>
      obtain ⟨d, hd, hown, -⟩ := hbacked l (List.mem_of_find?_eq_some hfirst)
      have htable : hasTable d.own = true := hown ▸ List.find?_some hfirst
      cases hparser : d.isParser with
      | false =>
          unfold hasTable at htable
          rw [(htabled d hd).noTable hparser] at htable
          cases htable
      | true =>
          obtain ⟨table, hfind, hline⟩ := (htabled d hd).table hparser
          refine ⟨table, ?_, ?_⟩
          · rw [Option.bind_some, ← hown, hfind]
            rfl
          · rw [Option.elim_some, ← hown]
            exact hline

namespace Extends

variable {classes : List Class} {own : Layer} {bases : List Class} {c : Class}

/-- The number of a new class is not that of an earlier one. -/
theorem id_ne (h : Extends classes own bases c) {d : Class} (hd : d ∈ classes) :
    c.own.id ≠ d.own.id := by
  rw [(defines_of_define h.defined).id]
  exact Ne.symm (h.fresh d hd)

theorem find?_tableName (h : Extends classes own bases c) :
    Ordered.find? tableName (located own).members = none := by
  rw [find?_located, Ordered.find?_eq_none h.noTable, Option.map_none]

theorem keys_located (h : Extends classes own bases c) :
    ((located own).members.map (·.1)).Nodup := by
  have hkeys := h.keys
  unfold located
  dsimp only
  rw [List.map_map]
  exact hkeys

theorem tabled (h : Extends classes own bases c) (hbacked : Backed classes c)
    (htabled : ∀ d ∈ classes, Tabled classes d) : Tabled (c :: classes) c := by
  constructor
  · intro hparser
    obtain ⟨behind, hof, hline⟩ := hbacked.tableBehind htabled
    obtain ⟨table, hof', hmembers⟩ := table_of_define h.defined hparser
    rw [h.find?_tableName, Option.none_or, hof] at hof'
    cases hof'
    refine ⟨_, by rw [hmembers, Ordered.find?_insert_self], fun name => ?_⟩
    rw [RuleTable.find?_extended _ _ h.keys_located, line_cons_self, RuleTable.ofLine_cons, hline,
      (defines_of_define h.defined).name]
    by_cases hname : name = tableName
    · rw [hname, h.find?_tableName, hmembers, Ordered.find?_insert_self]
      rfl
    · rw [hmembers, Ordered.find?_insert_ne hname]
  · intro hparser
    rw [members_of_define h.defined hparser, h.find?_tableName]

end Extends

namespace Hierarchy

variable {classes : List Class}

theorem tabled (h : Hierarchy classes) : ∀ c ∈ classes, Tabled classes c := by
  induction h with
  | builtins => exact fun c hc => tabled_builtins hc
  | @define older own bases c holder hextends ih =>
      intro d hd
      rcases List.mem_cons.mp hd with rfl | hd
      · exact hextends.tabled (hextends.backed holder.closed holder.root_mem) ih
      · obtain ⟨htable, hnone⟩ := ih d hd
        exact ⟨by rwa [line_cons_ne (hextends.id_ne hd)], hnone⟩

/-- The line of a class goes through layers of that class. -/
theorem mem_layers_of_mem_line (h : Hierarchy classes) :
    ∀ c ∈ classes, ∀ l ∈ line classes c.own.id, l ∈ c.layers := by
  induction h with
  | builtins => exact fun c hc => line_subset_builtins hc
  | @define older own bases c holder hextends ih =>
      intro d hd l hl
      rcases List.mem_cons.mp hd with rfl | hd
      · rw [line_cons_self] at hl
        rcases List.mem_cons.mp hl with rfl | hl
        · exact List.mem_cons_self
        · cases hfirst : d.behind.find? hasTable with
          | none =>
              rw [hfirst] at hl
              cases hl
          | some first =>
              rw [hfirst, Option.elim_some] at hl
              obtain ⟨e, he, hown, hlayers⟩ := hextends.backed holder.closed holder.root_mem first
                (List.mem_of_find?_eq_some hfirst)
              rw [← hown] at hl
              exact List.mem_cons_of_mem _ (hlayers l (ih e he l hl))
      · rw [line_cons_ne (hextends.id_ne hd)] at hl
        exact ih d hd l hl

/-- The table of every parser class, from its line. -/
theorem table_eq (h : Hierarchy classes) {c : Class} (hc : c ∈ classes)
    (hparser : c.isParser = true) :
    ∃ table, c.member? tableName = some (.table table) ∧
      ∀ name, Ordered.find? name table = RuleTable.ofLine (line classes c.own.id) name := by
  obtain ⟨table, hfind, hline⟩ := (h.tabled c hc).table hparser
  refine ⟨table, ?_, hline⟩
  rw [member?_eq, hfind]
  rfl

end Hierarchy

end GrammarBench
