import GrammarBench.Proofs.Classes

/-!
# Tables along a line

The table of a class goes on from that of the next class behind it that has one. The classes
passed in this way are its line, and the line alone says what stands in the table.

* `RuleTable.find?_extended`: a table with the members of one class taken into account.
* `RuleTable.ofLine`, `RuleTable.ofLine_cons`: what a table has from the layers of a line.
* `Class.line`: the line of a class.
-/

namespace GrammarBench

open GrammarBench.Class

/-! ## Tables and layers -/

/-- A member that is marked can be called. -/
theorem RuleTable.callable?_of_isMarked {m : Member} (h : m.isMarked = true) (owner name : String) :
    (callable? owner name m).isSome = true := by
  cases m with
  | function marked f => rfl
  | _ => cases h

namespace Layer

/-- What can be called under a name of a layer. -/
def callable? (l : Layer) (name : String) : Option Entry :=
  (Ordered.find? name l.members).bind (RuleTable.callable? l.name name)

/-- Whether a layer marks a name as a rule. -/
def decorates (l : Layer) (name : String) : Bool :=
  (Ordered.find? name l.members).any Member.isMarked

/-- What is marked as a rule can be called. -/
theorem callable?_of_decorates {l : Layer} {name : String} (h : l.decorates name = true) :
    (l.callable? name).isSome = true := by
  unfold decorates at h
  unfold callable?
  obtain ⟨m, hfind, hmarked⟩ := (Option.any_eq_true _ _).mp h
  rw [hfind, Option.bind_some]
  exact RuleTable.callable?_of_isMarked hmarked l.name name

end Layer

namespace RuleTable

/-- What stands under a name when a class has a member there, and the table something else or
nothing. -/
def taken (owner name : String) (found : Option Entry) : Option Member → Option Entry
  | none => found
  | some m =>
    match callable? owner name m with
    | some e => if m.isMarked || found.isSome then some e else found
    | none => found

theorem find?_enter (owner name key : String) (table : RuleTable) (m : Member) :
    Ordered.find? name (enter owner table (key, m)) =
      if key = name then taken owner name (Ordered.find? name table) (some m)
      else Ordered.find? name table := by
  unfold enter
  dsimp only
  by_cases hkey : key = name
  · subst hkey
    rw [if_pos rfl]
    unfold taken
    dsimp only
    cases callable? owner key m with
    | none => rfl
    | some e =>
        dsimp only
        split
        · rw [Ordered.find?_insert_self]
        · rfl
  · rw [if_neg hkey]
    split
    · split
      · rw [Ordered.find?_insert_ne (Ne.symm hkey)]
      · rfl
    · rfl

/-- A table with the members of a class taken into account. -/
theorem find?_extended (owner name : String) {members : List (String × Member)}
    (hkeys : (members.map (·.1)).Nodup) (table : RuleTable) :
    Ordered.find? name (table.extended owner members) =
      taken owner name (Ordered.find? name table) (Ordered.find? name members) := by
  induction members generalizing table with
  | nil => rfl
  | cons member rest ih =>
      obtain ⟨key, m⟩ := member
      rw [List.map_cons, List.nodup_cons] at hkeys
      show Ordered.find? name ((enter owner table (key, m)).extended owner rest) = _
      rw [ih hkeys.2, find?_enter]
      by_cases hkey : key = name
      · subst hkey
        rw [if_pos rfl, Ordered.find?_eq_none hkeys.1]
        simp [Ordered.find?, taken]
      · rw [if_neg hkey]
        have hne : (name == key) = false := by simpa using Ne.symm hkey
        simp [Ordered.find?, List.lookup_cons, hne]

/-- What the table of a class has under a name, from the layers it is made of: nothing unless one
of them marks the name, and then the first that can be called there. -/
def ofLine (line : List Layer) (name : String) : Option Entry :=
  if line.any (·.decorates name) then line.findSome? (·.callable? name) else none

theorem isSome_ofLine (line : List Layer) (name : String) :
    (ofLine line name).isSome = line.any (·.decorates name) := by
  unfold ofLine
  split
  · rename_i hany
    obtain ⟨l, hl, hdecorates⟩ := List.any_eq_true.mp hany
    rw [hany, List.findSome?_isSome_iff]
    exact ⟨l, hl, Layer.callable?_of_decorates hdecorates⟩
  · rename_i hany
    simpa using hany

/-- Where no layer marks anything, there are no rules. -/
theorem ofLine_eq_none {line : List Layer} (h : ∀ l ∈ line, ∀ m ∈ l.members, m.2.isMarked = false)
    (name : String) : ofLine line name = none := by
  unfold ofLine
  rw [if_neg]
  intro hany
  obtain ⟨l, hl, hdecorates⟩ := List.any_eq_true.mp hany
  unfold Layer.decorates at hdecorates
  cases hfind : Ordered.find? name l.members with
  | none =>
      rw [hfind] at hdecorates
      cases hdecorates
  | some m =>
      rw [hfind, Option.any_some] at hdecorates
      obtain ⟨before, behind, hmembers, -⟩ := List.lookup_eq_some_iff.mp hfind
      have hm := h l hl (name, m) (by rw [hmembers]; simp)
      rw [hdecorates] at hm
      cases hm

/-- One more layer in front of a line takes its own members into account. -/
theorem ofLine_cons (own : Layer) (line : List Layer) (name : String) :
    ofLine (own :: line) name =
      taken own.name name (ofLine line name) (Ordered.find? name own.members) := by
  cases hcallable : own.callable? name with
  | none =>
      have hdecorates : own.decorates name = false := by
        cases hdec : own.decorates name with
        | false => rfl
        | true =>
            have hsome := Layer.callable?_of_decorates hdec
            rw [hcallable] at hsome
            cases hsome
      have hofLine : ofLine (own :: line) name = ofLine line name := by
        unfold ofLine
        rw [List.any_cons, hdecorates, Bool.false_or, List.findSome?_cons, hcallable]
      rw [hofLine]
      unfold Layer.callable? at hcallable
      cases hfind : Ordered.find? name own.members with
      | none => rfl
      | some m =>
          rw [hfind, Option.bind_some] at hcallable
          unfold taken
          dsimp only
          rw [hcallable]
  | some e =>
      obtain ⟨m, hfind, hm⟩ := Option.bind_eq_some_iff.mp hcallable
      have hdecorates : own.decorates name = m.isMarked := by
        unfold Layer.decorates
        rw [hfind, Option.any_some]
      have htaken : taken own.name name (ofLine line name) (some m) =
          if m.isMarked || (ofLine line name).isSome then some e else ofLine line name := by
        unfold taken
        dsimp only
        rw [hm]
      rw [hfind, htaken, isSome_ofLine, ← hdecorates]
      have hcons : ofLine (own :: line) name =
          if own.decorates name || line.any (·.decorates name) then some e else none := by
        unfold ofLine
        rw [List.any_cons, List.findSome?_cons, hcallable]
      rw [hcons]
      split
      · rfl
      · -- Nothing is marked, so the table of the line has nothing there either.
        rename_i hany
        unfold ofLine
        rw [if_neg (fun hline => hany (by rw [hline, Bool.or_true]))]

end RuleTable

namespace Class

/-! ## Lines -/

/-- Whether a layer holds a table of rules. -/
def hasTable (l : Layer) : Bool := (Ordered.find? tableName l.members).isSome

/-- The layers that the table of a class is made of: its own one, and then the line of the next
class behind it that has a table. -/
def line : List Class → Nat → List Layer
  | [], _ => []
  | c :: older, id =>
    if c.own.id = id then
      c.own :: (c.behind.find? hasTable).elim [] fun l => line older l.id
    else line older id

theorem line_cons_self (c : Class) (older : List Class) :
    line (c :: older) c.own.id =
      c.own :: (c.behind.find? hasTable).elim [] fun l => line older l.id := by
  rw [line, if_pos rfl]

theorem line_cons_ne {c : Class} {id : Nat} (h : c.own.id ≠ id) (older : List Class) :
    line (c :: older) id = line older id := by
  rw [line, if_neg h]

theorem own_of_mem_line {classes : List Class} {id : Nat} {l : Layer} (h : l ∈ line classes id) :
    ∃ c ∈ classes, c.own = l := by
  induction classes generalizing id with
  | nil => cases h
  | cons c older ih =>
      have holder : ∀ {id}, l ∈ line older id → ∃ d ∈ c :: older, d.own = l := by
        intro id h
        obtain ⟨d, hd, hown⟩ := ih h
        exact ⟨d, List.mem_cons_of_mem c hd, hown⟩
      by_cases hid : c.own.id = id
      · rw [← hid, line_cons_self] at h
        rcases List.mem_cons.mp h with rfl | h
        · exact ⟨c, List.mem_cons_self, rfl⟩
        · cases hfirst : c.behind.find? hasTable with
          | none =>
              rw [hfirst] at h
              cases h
          | some l =>
              rw [hfirst] at h
              exact holder h
      · rw [line_cons_ne hid] at h
        exact holder h

/-- The table that a class finds behind it is that of the first layer with one. -/
theorem memberOf?_tableName (layers : List Layer) :
    memberOf? layers tableName =
      (layers.find? hasTable).bind fun l => Ordered.find? tableName l.members := by
  unfold memberOf?
  induction layers with
  | nil => rfl
  | cons l rest ih =>
      rw [List.findSome?_cons, List.find?_cons]
      unfold hasTable at ih ⊢
      cases hfind : Ordered.find? tableName l.members with
      | none => exact ih
      | some m => exact hfind.symm

end Class

end GrammarBench
