import Mathlib.Data.String.Basic

/-!
# Texts and their pieces

A text falls into pieces at each divider, and the pieces with the divider between them are the text again.

* `Text.pieces`: the pieces of a text.
* `Text.pieces_intercalate`, `Text.intercalate_pieces`: texts and their pieces stand for each other.
-/

namespace GrammarBench.Text

/-- The pieces of a text between the places of a character. -/
def pieces (c : Char) (s : String) : List String := (s.toList.splitOn c).map String.ofList

variable {c : Char}

theorem not_mem_of_mem_splitOn {α : Type} [BEq α] [LawfulBEq α] {x : α} {xs l : List α} (h : l ∈ xs.splitOn x) :
    x ∉ l := by
  induction xs generalizing l with
  | nil =>
      rw [List.splitOn_nil, List.mem_singleton] at h
      rw [h]
      exact List.not_mem_nil
  | cons y ys ih =>
      rw [List.splitOn_cons_eq_if_modifyHead] at h
      split at h
      · rcases List.mem_cons.mp h with rfl | h
        · exact List.not_mem_nil
        · exact ih h
      · next hne =>
        cases hsplit : ys.splitOn x with
        | nil => exact absurd hsplit (List.splitOn_ne_nil x ys)
        | cons first rest =>
            rw [hsplit] at h ih
            rcases List.mem_cons.mp h with rfl | h
            · rintro (_ | ⟨_, hmem⟩)
              · exact hne (beq_self_eq_true x)
              · exact ih List.mem_cons_self hmem
            · exact ih (List.mem_cons_of_mem _ h)

/-- No piece has the divider in it. -/
theorem undivided_of_mem_pieces {s piece : String} (h : piece ∈ pieces c s) : c ∉ piece.toList := by
  obtain ⟨l, hl, rfl⟩ := List.mem_map.mp h
  rw [String.toList_ofList]
  exact not_mem_of_mem_splitOn hl

theorem pieces_ne_nil (c : Char) (s : String) : pieces c s ≠ [] := by
  unfold pieces
  rw [Ne, List.map_eq_nil_iff]
  exact List.splitOn_ne_nil _ _

theorem map_toList_pieces (c : Char) (s : String) : (pieces c s).map String.toList = s.toList.splitOn c := by
  unfold pieces
  rw [List.map_map]
  exact (List.map_congr_left fun l _ => String.toList_ofList).trans (List.map_id _)

theorem intercalate_pieces (c : Char) (s : String) : (String.singleton c).intercalate (pieces c s) = s := by
  rw [← String.toList_inj, String.toList_intercalate, map_toList_pieces, String.toList_singleton]
  exact List.intercalate_splitOn c

/-- Texts put together fall into what they are put together of. -/
theorem pieces_intercalate {names : List String} (hne : names ≠ []) (h : ∀ n ∈ names, c ∉ n.toList) :
    pieces c ((String.singleton c).intercalate names) = names := by
  unfold pieces
  rw [String.toList_intercalate, String.toList_singleton, List.splitOn_intercalate, List.map_map]
  · exact (List.map_congr_left fun s _ => String.ofList_toList).trans (List.map_id _)
  · intro l hl
    obtain ⟨n, hn, rfl⟩ := List.mem_map.mp hl
    exact h n hn
  · rwa [Ne, List.map_eq_nil_iff]

theorem pieces_append (c : Char) (front back : String) :
    pieces c (front ++ String.singleton c ++ back) = pieces c front ++ pieces c back := by
  unfold pieces
  rw [String.toList_append, String.toList_append, String.toList_singleton, List.append_assoc, List.singleton_append,
    List.splitOn_append_cons_self, List.map_append]

theorem pieces_undivided {s : String} (h : c ∉ s.toList) : pieces c s = [s] := by
  unfold pieces
  rw [List.splitOn_eq_singleton h, List.map_singleton, String.ofList_toList]

end GrammarBench.Text
