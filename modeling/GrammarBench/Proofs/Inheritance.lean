import GrammarBench.Proofs.Hierarchy

/-!
# Inherited rules

Under which names the table of a class and the look-up of members agree. The look-up goes through
all layers of a class, the table through those of its line: bases off the line give the class
members but no rules. With one base each there is nothing off the line.

* `Keeps`: a table keeps a name as the look-up of members wants it.
* `Hierarchy.keeps_iff`: when the table of a class keeps a name.
* `Lineage.keeps`: with one base each, every name is kept.
-/

namespace GrammarBench

open GrammarBench.Class

/-! ## What a table keeps -/

/-- What the look-up of members finds under a name, if that can be called. -/
def Class.attribute? (c : Class) (name : String) : Option Entry :=
  (c.layers.find? fun l => (Ordered.find? name l.members).isSome).bind (·.callable? name)

/-- A table keeps a name as the look-up of members wants it: the name stands in the table just if
some layer of the class marks it, and then with what the look-up finds, if that can be called. -/
structure Keeps (c : Class) (table : RuleTable) (name : String) : Prop where
  listed : (Ordered.find? name table).isSome = c.layers.any (·.decorates name)
  directed : c.layers.any (·.decorates name) = true →
    ∀ e, c.attribute? name = some e → Ordered.find? name table = some e

/-- When a table with the rules of a line keeps a name. -/
theorem keeps_iff_ofLine {c : Class} {table : RuleTable} {line : List Layer} {name : String}
    (hline : Ordered.find? name table = RuleTable.ofLine line name)
    (hsubset : ∀ l ∈ line, l ∈ c.layers) :
    Keeps c table name ↔ (c.layers.any (·.decorates name) = true →
      line.any (·.decorates name) = true ∧
      ∀ e, c.attribute? name = some e → line.findSome? (·.callable? name) = some e) := by
  have hsome : (Ordered.find? name table).isSome = line.any (·.decorates name) := by
    rw [hline, RuleTable.isSome_ofLine]
  constructor
  · intro hkeeps hmarked
    have hany : line.any (·.decorates name) = true := by
      rw [← hsome, hkeeps.listed, hmarked]
    refine ⟨hany, fun e he => ?_⟩
    have hfind := hkeeps.directed hmarked e he
    rw [hline, RuleTable.ofLine, if_pos hany] at hfind
    exact hfind
  · intro hwanted
    constructor
    · rw [hsome, Bool.eq_iff_iff]
      constructor
      · intro hany
        obtain ⟨l, hl, hdecorates⟩ := List.any_eq_true.mp hany
        exact List.any_eq_true.mpr ⟨l, hsubset l hl, hdecorates⟩
      · exact fun hmarked => (hwanted hmarked).1
    · intro hmarked e he
      obtain ⟨hany, hdirected⟩ := hwanted hmarked
      rw [hline, RuleTable.ofLine, if_pos hany]
      exact hdirected e he

/-- **Inherited rules.** The table of a parser class has the names that the layers of its line
mark, each with the first thing on the line that can be called. It keeps a name just if a name
that any layer of the class marks is marked on the line, and what the look-up of members finds, if
that can be called, is that first thing. -/
theorem Hierarchy.keeps_iff {classes : List Class} (h : Hierarchy classes) {c : Class}
    (hc : c ∈ classes) (hparser : c.isParser = true) :
    ∃ table, c.member? tableName = some (.table table) ∧
      ∀ name, Ordered.find? name table = RuleTable.ofLine (line classes c.own.id) name ∧
        (Keeps c table name ↔ (c.layers.any (·.decorates name) = true →
          (line classes c.own.id).any (·.decorates name) = true ∧
          ∀ e, c.attribute? name = some e →
            (line classes c.own.id).findSome? (·.callable? name) = some e)) := by
  obtain ⟨table, htable, hline⟩ := h.table_eq hc hparser
  exact ⟨table, htable, fun name => ⟨hline name,
    keeps_iff_ofLine (hline name) (h.mem_layers_of_mem_line c hc)⟩⟩

/-- A layer with one rule, which gives a text. -/
def ruleLayer (id : Nat) (name rule text : String) : Layer :=
  { id := id, name := name, home := "module"
    members := [(rule, .function true { body := .give (.leaf (.text text)) })] }

/-- The same layer once it is defined. -/
def ruleClass (id : Nat) (name rule text : String) : Class :=
  { own := { ruleLayer id name rule text with
      watched := true
      members := [(rule, .function true { body := .give (.leaf (.text text)) }),
        (tableName, .table [(rule, .function { body := .give (.leaf (.text text)) }
          (name ++ "." ++ rule))])] }
    behind := Class.parser.layers }

def leftClass : Class := ruleClass 6 "A" "x" "a"

def rightClass : Class := ruleClass 7 "B" "y" "b"

/-- A class with two bases that have a rule each. -/
def jointClass : Class :=
  { own :=
      { id := 8, name := "C", home := "module", watched := true
        members := [(tableName,
          .table [("x", .function { body := .give (.leaf (.text "a")) } "A.x")])] }
    behind := leftClass.own :: rightClass.own :: Class.parser.layers }

theorem extends_leftClass :
    Extends builtinClasses (ruleLayer 6 "A" "x" "a") [Class.parser] leftClass :=
  ⟨rfl, by simp [builtinClasses], by decide, by decide, by decide⟩

theorem extends_rightClass :
    Extends (leftClass :: builtinClasses) (ruleLayer 7 "B" "y" "b") [Class.parser] rightClass :=
  ⟨rfl, by simp [builtinClasses], by decide, by decide, by decide⟩

theorem extends_jointClass :
    Extends (rightClass :: leftClass :: builtinClasses) { id := 8, name := "C", home := "module" }
      [leftClass, rightClass] jointClass :=
  ⟨rfl, by simp, by decide, by decide, by decide⟩

theorem hierarchy_jointClass :
    Hierarchy (jointClass :: rightClass :: leftClass :: builtinClasses) :=
  ((Hierarchy.builtins.define extends_leftClass).define extends_rightClass).define
    extends_jointClass

theorem keeps_jointClass :
    ∃ table, jointClass.member? tableName = some (.table table) ∧ Keeps jointClass table "x" := by
  obtain ⟨table, htable, hnames⟩ := hierarchy_jointClass.keeps_iff List.mem_cons_self rfl
  refine ⟨table, htable, (hnames "x").2.mpr fun _ => ⟨by decide, fun e he => ?_⟩⟩
  exact he

/-- The rule of the second base is lost. -/
theorem lost_jointClass :
    ∃ (classes : List Class) (c : Class) (table : RuleTable), Hierarchy classes ∧ c ∈ classes ∧
      c.isParser = true ∧ c.member? tableName = some (.table table) ∧ ¬ Keeps c table "y" := by
  refine ⟨_, jointClass, _, hierarchy_jointClass, List.mem_cons_self, rfl, rfl, fun hkeeps => ?_⟩
  exact absurd hkeeps.listed (by decide)

/-! ## One base each -/

/-- A class whose layers are its line, and behind it layers without members. -/
structure Straight (classes : List Class) (c : Class) : Prop where
  apart : (c.layers.map (·.id)).Nodup
  whole : ∃ rest, c.layers = line classes c.own.id ++ rest ∧ ∀ l ∈ rest, l.members = []

theorem decorates_eq_false {l : Layer} (h : l.members = []) (name : String) :
    l.decorates name = false := by
  unfold Layer.decorates
  rw [h]
  rfl

theorem callable?_eq_none {l : Layer} (h : l.members = []) (name : String) :
    l.callable? name = none := by
  unfold Layer.callable?
  rw [h]
  rfl

/-- What the look-up finds and can be called is the first thing that can be called. -/
theorem findSome?_of_attribute? {c : Class} {name : String} {e : Entry}
    (h : c.attribute? name = some e) :
    c.layers.findSome? (·.callable? name) = some e := by
  unfold attribute? at h
  generalize c.layers = all at h ⊢
  induction all with
  | nil => cases h
  | cons l rest ih =>
      rw [List.find?_cons] at h
      rw [List.findSome?_cons]
      cases hfind : Ordered.find? name l.members with
      | none =>
          have hnone : l.callable? name = none := by
            unfold Layer.callable?
            rw [hfind]
            rfl
          rw [hfind] at h
          rw [hnone]
          exact ih h
      | some m =>
          rw [hfind] at h
          rw [show l.callable? name = some e from h]

/-- The table of a straight class keeps every name. -/
theorem Straight.keeps {classes : List Class} {c : Class} (h : Straight classes c)
    {table : RuleTable} {name : String}
    (hline : Ordered.find? name table = RuleTable.ofLine (line classes c.own.id) name) :
    Keeps c table name := by
  obtain ⟨rest, hlayers, hrest⟩ := h.whole
  refine (keeps_iff_ofLine hline fun l hl => ?_).mpr fun hmarked => ⟨?_, fun e he => ?_⟩
  · rw [hlayers]
    exact List.mem_append_left _ hl
  · rw [hlayers, List.any_append, Bool.or_eq_true] at hmarked
    refine hmarked.resolve_right fun hany => ?_
    obtain ⟨l, hl, hdecorates⟩ := List.any_eq_true.mp hany
    rw [decorates_eq_false (hrest l hl)] at hdecorates
    cases hdecorates
  · have hfirst := findSome?_of_attribute? he
    rw [hlayers, List.findSome?_append] at hfirst
    have hnone : rest.findSome? (·.callable? name) = none :=
      List.findSome?_eq_none_iff.mpr fun l hl => callable?_eq_none (hrest l hl) name
    rwa [hnone, Option.or_none] at hfirst

/-- A new class with a straight parser class for its only base is straight. -/
theorem Extends.straight {classes : List Class} {own : Layer} {b c : Class}
    (h : Extends classes own [b] c) (hclosed : Closed classes) (hbase : Straight classes b)
    (htable : hasTable b.own = true) : Straight (c :: classes) c := by
  have hbehind : c.behind = b.layers :=
    (defines_of_define h.defined).behind_eq (order_single hbase.apart)
  have hb : b ∈ classes := h.known b List.mem_cons_self
  have hlayers : c.layers = c.own :: b.layers := by
    rw [← hbehind]
    rfl
  constructor
  · rw [hlayers, List.map_cons, List.nodup_cons]
    refine ⟨fun hmem => ?_, hbase.apart⟩
    obtain ⟨l, hl, hid⟩ := List.mem_map.mp hmem
    obtain ⟨d, hd, rfl⟩ := hclosed.own_of_mem_layers hb hl
    exact h.id_ne hd hid.symm
  · obtain ⟨rest, hwhole, hrest⟩ := hbase.whole
    refine ⟨rest, ?_, hrest⟩
    have hfirst : c.behind.find? hasTable = some b.own := by
      rw [hbehind]
      unfold layers
      rw [List.find?_cons, htable]
    rw [line_cons_self, hfirst, hlayers, hwhole]
    rfl

theorem straight_builtins {c : Class} (hc : c ∈ builtinClasses) (hparser : c.isParser = true) :
    Straight builtinClasses c := by
  have hrest : ∀ l ∈ watch.layers, l.members = [] := by
    intro l hl
    rcases List.mem_cons.mp hl with rfl | hl
    · rfl
    · rw [List.mem_singleton.mp hl]
      rfl
  rcases mem_builtinClasses hc with rfl | rfl | rfl | rfl | rfl | rfl
  · exact ⟨by decide, watch.layers, rfl, hrest⟩
  · cases hparser
  · exact ⟨by decide, watch.layers, rfl, hrest⟩
  · cases hparser
  · cases hparser
  · cases hparser

/-- The classes after some definitions with one parser class for a base each. -/
inductive Lineage : List Class → Prop
  | builtins : Lineage builtinClasses
  | define {classes : List Class} {own : Layer} {b c : Class} :
      Lineage classes → Extends classes own [b] c → b.isParser = true → Lineage (c :: classes)

namespace Lineage

variable {classes : List Class}

theorem hierarchy (h : Lineage classes) : Hierarchy classes := by
  induction h with
  | builtins => exact Hierarchy.builtins
  | define _ hextends _ ih => exact ih.define hextends

theorem straight (h : Lineage classes) :
    ∀ c ∈ classes, c.isParser = true → Straight classes c := by
  induction h with
  | builtins => exact fun c hc hparser => straight_builtins hc hparser
  | @define older own b c holder hextends hbase ih =>
      intro d hd hparser
      rcases List.mem_cons.mp hd with rfl | hd
      · have hb := hextends.known b List.mem_cons_self
        obtain ⟨table, hfind, -⟩ := (holder.hierarchy.tabled b hb).table hbase
        refine hextends.straight holder.hierarchy.closed (ih b hb hbase) ?_
        unfold hasTable
        rw [hfind]
        rfl
      · obtain ⟨hapart, hwhole⟩ := ih d hd hparser
        exact ⟨hapart, by rwa [line_cons_ne (hextends.id_ne hd)]⟩

/-- With one base each, no rule is lost and none is misdirected. -/
theorem keeps (h : Lineage classes) {c : Class} (hc : c ∈ classes) (hparser : c.isParser = true) :
    ∃ table, c.member? tableName = some (.table table) ∧ ∀ name, Keeps c table name := by
  obtain ⟨table, htable, hline⟩ := h.hierarchy.table_eq hc hparser
  exact ⟨table, htable, fun name => (h.straight c hc hparser).keeps (hline name)⟩

end Lineage

end GrammarBench
