import GrammarBench.Module.RuleTable
import GrammarBench.Proofs.Outcome

/-!
# New classes

What the definition of a class leaves as it was written. Apart from the paths in its tables and
from the table of rules, a new class holds the members it was given, and it is followed by the
layers of its bases.

* `Class.member?_eq`: a member is the class's own, or one of the layers behind.
* `Class.rule_of_table`: what the table of a class has under the name of a rule.
* `Class.Defines`, `Class.defines_of_define`: a new class with its own layer and what is behind
  it.
* `Class.table_of_define`: the table of rules of a new parser class.
-/

namespace GrammarBench

namespace Class

theorem find?_located (own : Layer) (name : String) :
    Ordered.find? name (located own).members =
      (Ordered.find? name own.members).map (locatedMember own.name name) := by
  obtain ⟨-, owner, -, members, -, -, -⟩ := own
  unfold located Ordered.find?
  dsimp only
  induction members with
  | nil => rfl
  | cons m rest ih =>
      obtain ⟨key, m⟩ := m
      rw [List.map_cons, List.lookup_cons, List.lookup_cons]
      cases hkey : name == key with
      | true =>
          rw [eq_of_beq hkey]
          rfl
      | false => exact ih

/-- A member is the class's own one, or that of the layers behind. -/
theorem member?_eq (c : Class) (name : String) :
    c.member? name = (Ordered.find? name c.own.members).or (memberOf? c.behind name) := by
  unfold member? layers memberOf?
  rw [List.findSome?_cons]
  cases Ordered.find? name c.own.members <;> rfl

/-- A name is looked up in the table of a class that has one, or in none. -/
theorem rule_of_table {c : Class} {table : RuleTable}
    (htable : (c.member? tableName).getD (.table []) = .table table) (name : String) :
    c.rule name = (Ordered.find? name table).elim
      (.error (.report (.noSuchRule name (table.map (·.1))))) .ok := by
  unfold rule
  cases hmember : c.member? tableName with
  | none =>
      rw [hmember] at htable
      cases htable
      rfl
  | some m =>
      rw [hmember] at htable
      cases htable
      dsimp only
      cases Ordered.find? name table <;> rfl

theorem hasLayer_of_behind {c d : Class} (hbehind : c.behind = d.layers) {id : Nat}
    (h : d.hasLayer id = true) : c.hasLayer id = true := by
  unfold hasLayer at h ⊢
  unfold layers
  rw [List.any_cons, hbehind, h, Bool.or_true]

theorem language?_of_own {c : Class} {l : Grammar.Language} (h : c.own.language = some l) :
    c.language? = some l := by
  unfold language? layers
  rw [List.findSome?_cons, h]

/-- The bases of a class that names none. -/
def basesOr (bases : List Class) : List Class := if bases.isEmpty then [root] else bases

/-- A class as it was written: its own layer, with what stands behind it. -/
structure Defines (own : Layer) (bases : List Class) (c : Class) : Prop where
  behind : order (basesOr bases) = .ok c.behind
  id : c.own.id = own.id
  name : c.own.name = own.name
  language : c.own.language = own.language
  find : ∀ name, name ≠ tableName → Ordered.find? name c.own.members =
    (Ordered.find? name own.members).map (locatedMember own.name name)

theorem Defines.behind_eq {own : Layer} {bases : List Class} {c : Class} (h : Defines own bases c)
    {behind : List Layer} (horder : order (basesOr bases) = .ok behind) : c.behind = behind :=
  Except.ok.inj (h.behind.symm.trans horder)

theorem derive_ok {own : Layer} {bases : List Class} {c : Class} (h : derive own bases = .ok c) :
    order (basesOr bases) = .ok c.behind ∧ c.own.id = own.id ∧ c.own.name = own.name ∧
      c.own.language = own.language ∧ c.own.members = own.members := by
  unfold derive at h
  obtain ⟨behind, horder, h⟩ := Outcome.bind_ok h
  cases h
  exact ⟨horder, rfl, rfl, rfl, rfl⟩

/-- A class keeps all its members but the table of rules when that is worked out. -/
theorem withTable_ok {c d : Class} (h : c.withTable = .ok d) :
    d.behind = c.behind ∧ d.own.id = c.own.id ∧ d.own.name = c.own.name ∧
      d.own.language = c.own.language ∧
      ∀ name, name ≠ tableName →
        Ordered.find? name d.own.members = Ordered.find? name c.own.members := by
  unfold withTable at h
  split at h
  · obtain ⟨table, -, h⟩ := Outcome.bind_ok h
    cases h
    exact ⟨rfl, rfl, rfl, rfl, fun name hname => Ordered.find?_insert_ne hname _ _⟩
  · cases h
    exact ⟨rfl, rfl, rfl, rfl, fun _ _ => rfl⟩

/-- A new class is what was written. -/
theorem defines_of_define {own : Layer} {bases : List Class} {c : Class}
    (h : define own bases = .ok c) : Defines own bases c := by
  obtain ⟨d, hderive, htable⟩ := Outcome.bind_ok h
  obtain ⟨horder, hid, hname, hlanguage, hmembers⟩ := derive_ok hderive
  obtain ⟨hbehind, hid', hname', hlanguage', hfind⟩ := withTable_ok htable
  refine ⟨hbehind ▸ horder, hid'.trans hid, hname'.trans hname, hlanguage'.trans hlanguage, ?_⟩
  intro name hne
  rw [hfind name hne, hmembers, find?_located]

/-- A class can be defined when its table can be worked out. -/
theorem exists_define {own : Layer} {bases : List Class} {c : Class} {table : RuleTable}
    (hderive : derive (located own) bases = .ok c)
    (htable : RuleTable.ofMember ((c.member? tableName).getD (.table [])) = .ok table) :
    ∃ d, define own bases = .ok d := by
  unfold define
  rw [hderive]
  show ∃ d, c.withTable = .ok d
  unfold withTable
  split
  · rw [htable]
    exact ⟨_, rfl⟩
  · exact ⟨c, rfl⟩

theorem isParser_eq {c d : Class} (hid : c.own.id = d.own.id) (hbehind : c.behind = d.behind) :
    c.isParser = d.isParser := by
  unfold isParser hasLayer layers
  rw [List.any_cons, List.any_cons, hid, hbehind]

/-- A new class that is no parser class holds what it was given. -/
theorem members_of_define {own : Layer} {bases : List Class} {c : Class}
    (h : define own bases = .ok c) (hparser : c.isParser = false) :
    c.own.members = (located own).members := by
  obtain ⟨d, hderive, htable⟩ := Outcome.bind_ok h
  obtain ⟨-, -, -, -, hmembers⟩ := derive_ok hderive
  obtain ⟨hbehind, hid, -⟩ := withTable_ok htable
  unfold withTable at htable
  rw [if_neg (by rw [← isParser_eq hid hbehind, hparser]; decide)] at htable
  cases htable
  exact hmembers

/-- The table of rules of a new parser class: the one it sets, or finds behind, with its own
members taken into account. -/
theorem table_of_define {own : Layer} {bases : List Class} {c : Class}
    (h : define own bases = .ok c) (hparser : c.isParser = true) :
    ∃ table, RuleTable.ofMember (((Ordered.find? tableName (located own).members).or
        (memberOf? c.behind tableName)).getD (.table [])) = .ok table ∧
      c.own.members = Ordered.insert tableName
        (.table (table.extended own.name (located own).members)) (located own).members := by
  obtain ⟨d, hderive, htable⟩ := Outcome.bind_ok h
  obtain ⟨-, hid, hname, -, hmembers⟩ := derive_ok hderive
  obtain ⟨hbehind, hid', -⟩ := withTable_ok htable
  unfold withTable at htable
  rw [if_pos ((isParser_eq hid' hbehind).symm.trans hparser)] at htable
  obtain ⟨table, hof, htable⟩ := Outcome.bind_ok htable
  cases htable
  refine ⟨table, ?_, ?_⟩
  · rw [← hmembers, ← member?_eq]
    exact hof
  · dsimp only
    rw [hmembers, show d.name = own.name from hname]

end Class

end GrammarBench
