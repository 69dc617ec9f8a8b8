/-!
# Plain values

The values of configuration files and of class attributes: null, truth values, integers, floating-point
numbers, texts, lists and maps from texts, which keep the order of their keys.

* `find?`, `insert`: look-up and update of an ordered map.
* `Value.truthy`: which values count as true.
-/

namespace GrammarBench

inductive Value where
  | null
  | bool (b : Bool)
  | int (n : Int)
  | float (x : Float)
  | text (s : String)
  | list (items : List Value)
  | dict (entries : List (String × Value))
  deriving Repr, Inhabited

namespace Ordered

def find? {α : Type} (key : String) (entries : List (String × α)) : Option α := entries.lookup key

/-- The entries with a key set: a key that is there keeps its place, a new one comes last. -/
def insert {α : Type} (key : String) (value : α) : List (String × α) → List (String × α)
  | [] => [(key, value)]
  | (k, v) :: rest => if k = key then (k, value) :: rest else (k, v) :: insert key value rest

def erase {α : Type} (key : String) (entries : List (String × α)) : List (String × α) :=
  entries.filter (·.1 ≠ key)

def ofList {α : Type} (entries : List (String × α)) : List (String × α) :=
  entries.foldl (fun m (k, v) => insert k v m) []

theorem find?_insert_self {α : Type} (key : String) (value : α) (entries : List (String × α)) :
    find? key (insert key value entries) = some value := by
  induction entries with
  | nil => simp [insert, find?]
  | cons e rest ih =>
    obtain ⟨k, v⟩ := e
    by_cases h : k = key
    · simp [insert, find?, h]
    · have hne : (key == k) = false := by simpa using fun h' : key = k => h h'.symm
      simpa [insert, find?, h, List.lookup_cons, hne] using ih

theorem find?_insert_ne {α : Type} {key other : String} (h : other ≠ key) (value : α)
    (entries : List (String × α)) : find? other (insert key value entries) = find? other entries := by
  induction entries with
  | nil =>
    have hne : (other == key) = false := by simpa using h
    simp [insert, find?, List.lookup_cons, hne]
  | cons e rest ih =>
    obtain ⟨k, v⟩ := e
    by_cases hk : k = key
    · subst hk
      have hne : (other == k) = false := by simpa using h
      simp [insert, find?, List.lookup_cons, hne]
    · simp only [insert, hk, if_false, find?, List.lookup_cons]
      split
      · rfl
      · simpa [find?] using ih

theorem find?_erase_self {α : Type} (key : String) (entries : List (String × α)) :
    find? key (erase key entries) = none := by
  unfold find? erase
  rw [List.lookup_eq_none_iff]
  intro e he
  have hne : e.1 ≠ key := by simpa using (List.mem_filter.mp he).2
  simpa using hne.symm

theorem find?_erase_ne {α : Type} {key other : String} (h : other ≠ key)
    (entries : List (String × α)) : find? other (erase key entries) = find? other entries := by
  unfold find? erase
  induction entries with
  | nil => rfl
  | cons e rest ih =>
    obtain ⟨k, v⟩ := e
    by_cases hk : k = key
    · subst hk
      have hne : (other == k) = false := by simpa using h
      simpa [List.lookup_cons, hne] using ih
    · rw [List.filter_cons_of_pos (by simpa using hk), List.lookup_cons, List.lookup_cons, ih]

theorem find?_eq_none {α : Type} {key : String} {entries : List (String × α)}
    (h : key ∉ entries.map (·.1)) : find? key entries = none := by
  unfold find?
  rw [List.lookup_eq_none_iff]
  intro e he
  have hmem : e.1 ∈ entries.map (·.1) := List.mem_map_of_mem he
  have hne : key ≠ e.1 := fun heq => h (heq ▸ hmem)
  simpa using hne

end Ordered

namespace Value

/-- Null, false, zero and whatever is empty count as false. -/
def truthy : Value → Bool
  | null => false
  | bool b => b
  | int n => n ≠ 0
  | float x => x != 0
  | text s => s ≠ ""
  | list items => !items.isEmpty
  | dict entries => !entries.isEmpty

def typeName : Value → String
  | null => "NoneType"
  | bool _ => "bool"
  | int _ => "int"
  | float _ => "float"
  | text _ => "str"
  | list _ => "list"
  | dict _ => "dict"

def isNull : Value → Bool
  | null => true
  | _ => false

def text? : Value → Option String
  | text s => some s
  | _ => none

/-- The texts of a list, `none` when it is no list or holds something else. -/
def texts? : Value → Option (List String)
  | list items => items.mapM text?
  | _ => none

end Value

end GrammarBench
