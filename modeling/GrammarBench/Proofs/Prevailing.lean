import Mathlib.Data.List.Induction
import GrammarBench.Proofs.Namespaces

/-!
# What comes last under its key

Where several elements of a list share a key, the last one counts.

* `Prevails`: an element with a key that no element behind it has.
* `forall_prevails_iff`: all elements prevail just if their keys are different.
* `Ordered.mem_ofList`: the entries that are made of a list with repeated keys.
-/

namespace GrammarBench

/-- An element with a key that no element behind it has. -/
def Prevails {α β : Type} (key : α → β) (a : α) (as : List α) : Prop :=
  ∃ before behind, as = before ++ a :: behind ∧ ∀ b ∈ behind, key b ≠ key a

variable {α β : Type} {key : α → β} {a b : α} {as : List α}

theorem not_prevails_nil : ¬ Prevails key a [] := by
  rintro ⟨before, behind, heq, -⟩
  exact List.append_ne_nil_of_right_ne_nil before (List.cons_ne_nil a behind) heq.symm

theorem prevails_cons :
    Prevails key a (b :: as) ↔ (b = a ∧ ∀ x ∈ as, key x ≠ key a) ∨ Prevails key a as := by
  constructor
  · rintro ⟨before, behind, heq, hbehind⟩
    cases before with
    | nil =>
        cases heq
        exact Or.inl ⟨rfl, hbehind⟩
    | cons x before =>
        cases heq
        exact Or.inr ⟨before, behind, rfl, hbehind⟩
  · rintro (⟨rfl, hbehind⟩ | ⟨before, behind, rfl, hbehind⟩)
    · exact ⟨[], as, rfl, hbehind⟩
    · exact ⟨b :: before, behind, rfl, hbehind⟩

theorem Prevails.mem (h : Prevails key a as) : a ∈ as := by
  obtain ⟨before, behind, rfl, -⟩ := h
  exact List.mem_append_right _ List.mem_cons_self

theorem prevails_concat {b : α} :
    Prevails key a (as ++ [b]) ↔ b = a ∨ (key b ≠ key a ∧ Prevails key a as) := by
  induction as with
  | nil =>
      rw [List.nil_append, prevails_cons]
      simp [not_prevails_nil]
  | cons c rest ih =>
      rw [List.cons_append, prevails_cons, ih, prevails_cons]
      simp only [List.mem_append, List.mem_singleton]
      constructor
      · rintro (⟨rfl, hbehind⟩ | rfl | ⟨hne, hprevails⟩)
        · exact Or.inr ⟨hbehind b (Or.inr rfl), Or.inl ⟨rfl, fun x hx => hbehind x (Or.inl hx)⟩⟩
        · exact Or.inl rfl
        · exact Or.inr ⟨hne, Or.inr hprevails⟩
      · rintro (rfl | ⟨hne, ⟨rfl, hbehind⟩ | hprevails⟩)
        · exact Or.inr (Or.inl rfl)
        · refine Or.inl ⟨rfl, fun x hx => ?_⟩
          rcases hx with hx | rfl
          · exact hbehind x hx
          · exact hne
        · exact Or.inr (Or.inr ⟨hne, hprevails⟩)

theorem Prevails.unique (h : Prevails key a as) (h' : Prevails key b as) (hkey : key a = key b) : a = b := by
  induction as with
  | nil => exact absurd h not_prevails_nil
  | cons c rest ih =>
      rcases prevails_cons.mp h with ⟨rfl, hlater⟩ | hrest <;>
        rcases prevails_cons.mp h' with ⟨rfl, hlater'⟩ | hrest'
      · rfl
      · exact absurd hkey.symm (hlater b hrest'.mem)
      · exact absurd hkey (hlater' a hrest.mem)
      · exact ih hrest hrest'

/-- What comes last stays last under an injective map. -/
theorem prevails_map {γ : Type} {f : α → γ} {key' : γ → β} (hf : Function.Injective f) :
    Prevails key' (f a) (as.map f) ↔ Prevails (key' ∘ f) a as := by
  induction as with
  | nil => exact ⟨fun h => absurd h not_prevails_nil, fun h => absurd h not_prevails_nil⟩
  | cons c rest ih =>
      rw [List.map_cons, prevails_cons, prevails_cons, ih, hf.eq_iff, List.forall_mem_map]
      rfl

/-- Under every key there is an element that comes last. -/
theorem exists_prevails (h : a ∈ as) : ∃ b, key b = key a ∧ Prevails key b as := by
  induction as generalizing a with
  | nil => cases h
  | cons c rest ih =>
      by_cases hlater : ∃ x ∈ rest, key x = key a
      · obtain ⟨x, hx, hkey⟩ := hlater
        obtain ⟨b, hb, hprevails⟩ := ih hx
        exact ⟨b, hb.trans hkey, prevails_cons.mpr (Or.inr hprevails)⟩
      · have hfirst : a = c := (List.mem_cons.mp h).resolve_right fun hmem => hlater ⟨a, hmem, rfl⟩
        refine ⟨a, rfl, prevails_cons.mpr (Or.inl ⟨hfirst.symm, fun x hx hkey => ?_⟩)⟩
        exact hlater ⟨x, hx, hkey⟩

/-- All of some different elements come last under their keys just if the keys are different. -/
theorem forall_prevails_iff (h : as.Nodup) : (∀ a ∈ as, Prevails key a as) ↔ (as.map key).Nodup := by
  induction as with
  | nil => exact ⟨fun _ => List.nodup_nil, fun _ a ha => nomatch ha⟩
  | cons c rest ih =>
      obtain ⟨hfresh, hrest⟩ := List.nodup_cons.mp h
      rw [List.map_cons, List.nodup_cons, ← ih hrest]
      constructor
      · intro hall
        constructor
        · intro hmem
          obtain ⟨x, hx, hkey⟩ := List.mem_map.mp hmem
          rcases prevails_cons.mp (hall c List.mem_cons_self) with ⟨-, hbehind⟩ | hprevails
          · exact hbehind x hx hkey
          · exact hfresh hprevails.mem
        · intro a ha
          rcases prevails_cons.mp (hall a (List.mem_cons_of_mem _ ha)) with ⟨rfl, -⟩ | hprevails
          · exact absurd ha hfresh
          · exact hprevails
      · rintro ⟨hkey, hall⟩ a ha
        rcases List.mem_cons.mp ha with rfl | ha
        · refine prevails_cons.mpr (Or.inl ⟨rfl, fun x hx hsame => hkey ?_⟩)
          exact List.mem_map.mpr ⟨x, hx, hsame⟩
        · exact prevails_cons.mpr (Or.inr (hall a ha))

/-! ## Entries -/

namespace Ordered

variable {α : Type} {entries : List (String × α)} {key k : String}

theorem mem_insert {value v : α} (h : (entries.map (·.1)).Nodup) :
    (k, v) ∈ insert key value entries ↔ k = key ∧ v = value ∨ k ≠ key ∧ (k, v) ∈ entries := by
  rw [← find?_eq_some_iff (nodup_insert h value), ← find?_eq_some_iff h]
  by_cases hk : k = key
  · rw [hk, find?_insert_self]
    simp [eq_comm]
  · rw [find?_insert_ne hk]
    simp [hk]

theorem ofList_concat (e : String × α) :
    ofList (entries ++ [e]) = insert e.1 e.2 (ofList entries) := by
  unfold ofList
  rw [List.foldl_append]
  rfl

theorem nodup_ofList (entries : List (String × α)) : ((ofList entries).map (·.1)).Nodup := by
  induction entries using List.reverseRecOn with
  | nil => exact List.nodup_nil
  | append_singleton rest e ih =>
      rw [ofList_concat]
      exact nodup_insert ih e.2

/-- Of several values under one key the last one counts. -/
theorem mem_ofList {e : String × α} : e ∈ ofList entries ↔ Prevails (·.1) e entries := by
  induction entries using List.reverseRecOn with
  | nil => exact ⟨fun h => (nomatch h), fun h => absurd h not_prevails_nil⟩
  | append_singleton rest d ih =>
      obtain ⟨k, v⟩ := e
      obtain ⟨key, value⟩ := d
      rw [ofList_concat, mem_insert (nodup_ofList rest), prevails_concat, ← ih]
      simp only [Prod.mk.injEq, ne_eq, eq_comm]

end Ordered

end GrammarBench
