import Mathlib.Data.List.Basic
import GrammarBench.Pattern.Match

/-!
# Matches go onward

A match never goes back and never leaves its text: whatever an expression hands to its
continuation is a cursor some characters on from where the expression was tried. Looks ahead and
behind, which move inside, give their place back.

* `Cursor.Onward`: a cursor some characters on in the same text.
* `Expr.run_onward`: the continuation of a match starts at such a cursor.
* `Expr.matchAt_onward`: so does a match end at one.
-/

namespace GrammarBench.Pattern

namespace Cursor

/-- The second cursor stands some characters on in the text of the first; captures do not matter. -/
def Onward (s t : Cursor) : Prop :=
  ∃ p, s.after = p ++ t.after ∧ t.before = p.reverse ++ s.before ∧ t.passed = s.passed + p.length

namespace Onward

theorem refl (s : Cursor) : s.Onward s := ⟨[], rfl, rfl, rfl⟩

theorem trans {s t u : Cursor} (h₁ : s.Onward t) (h₂ : t.Onward u) : s.Onward u := by
  obtain ⟨p, hafter, hbefore, hpassed⟩ := h₁
  obtain ⟨q, hafter', hbefore', hpassed'⟩ := h₂
  refine ⟨p ++ q, ?_, ?_, ?_⟩
  · rw [hafter, hafter', List.append_assoc]
  · rw [hbefore', hbefore, List.reverse_append, List.append_assoc]
  · rw [hpassed', hpassed, List.length_append]
    omega

/-- Captures made on the way change nothing. -/
theorem withCaptures {s t : Cursor} (h : s.Onward t) (captures : List (Nat × List Char)) :
    s.Onward { t with captures := captures } := h

theorem advance {s : Cursor} {c : Char} {rest : List Char} (h : s.after = c :: rest) :
    s.Onward (s.advance c rest) := ⟨[c], h, rfl, rfl⟩

end Onward

/-- The text passed on the way is what the later cursor has passed since. -/
theorem Onward.since_eq {s t : Cursor} (h : s.Onward t) :
    s.after = t.since s ++ t.after ∧ t.before = (t.since s).reverse ++ s.before ∧
      t.passed = s.passed + (t.since s).length := by
  obtain ⟨p, hafter, hbefore, hpassed⟩ := h
  have hsince : t.since s = p := by
    simp [since, hbefore, hpassed]
  rw [hsince]
  exact ⟨hafter, hbefore, hpassed⟩

theorem takeText?_onward {anyCase : Bool} (text : List Char) {s t : Cursor}
    (h : takeText? anyCase text s = some t) : s.Onward t := by
  induction text generalizing s with
  | nil =>
    cases h
    exact Onward.refl _
  | cons c cs ih =>
    unfold takeText? at h
    split at h
    · cases h
    · rename_i d rest hafter
      split at h
      · exact (Onward.advance hafter).trans (ih h)
      · cases h

end Cursor

open Cursor

/-- Every cursor reached by taking characters of a set is on the way. -/
theorem reached_onward {set : CharSet} (l : List Char) {most : Option Nat} {s : Cursor}
    {found : List Cursor} (hafter : s.after = l) {t : Cursor} (h : t ∈ reached set l most s found) :
    t ∈ found ∨ s.Onward t := by
  induction l generalizing most s found with
  | nil =>
    rcases List.mem_cons.mp h with rfl | h
    · exact Or.inr (Onward.refl t)
    · exact Or.inl h
  | cons c rest ih =>
    unfold reached at h
    split at h
    · rcases List.mem_cons.mp h with rfl | h
      · exact Or.inr (Onward.refl t)
      · exact Or.inl h
    · have hstep := Onward.advance hafter
      rcases ih rfl h with hfound | honward
      · rcases List.mem_cons.mp hfound with rfl | hfound
        · exact Or.inr (Onward.refl t)
        · exact Or.inl hfound
      · exact Or.inr (hstep.trans honward)

theorem orElse_eq_some {first : Option Cursor} {second : Unit → Option Cursor} {t : Cursor}
    (h : orElse first second = some t) : first = some t ∨ second () = some t := by
  cases first with
  | none => exact Or.inr h
  | some s => exact Or.inl h

/-- What a way of matching does when it succeeds: it hands its continuation a cursor on the way. -/
def GoesOnward (way : Cursor → Continuation → Option Cursor) : Prop :=
  ∀ s k t, way s k = some t → ∃ u, s.Onward u ∧ k u = some t

theorem repeatBody_onward {body : Cursor → Continuation → Option Cursor} (hbody : GoesOnward body)
    {lazy : Bool} {k : Continuation} (rounds least : Nat) (most last : Option Nat) {s t : Cursor}
    (h : repeatBody body lazy k rounds least most last s = some t) :
    ∃ u, s.Onward u ∧ k u = some t := by
  induction rounds generalizing least most last s with
  | zero =>
    unfold repeatBody at h
    exact ⟨s, Onward.refl s, h⟩
  | succ rounds ih =>
    -- One more repetition goes on from where the body stops.
    have hmore : ∀ {least most last}, body s (fun s' =>
        repeatBody body lazy k rounds least most last s') = some t →
        ∃ u, s.Onward u ∧ k u = some t := by
      intro least most last hrun
      obtain ⟨u, hu, hrest⟩ := hbody _ _ _ hrun
      obtain ⟨v, hv, hk⟩ := ih _ _ _ hrest
      exact ⟨v, hu.trans hv, hk⟩
    cases least with
    | succ least =>
      unfold repeatBody at h
      exact hmore h
    | zero =>
      unfold repeatBody at h
      split at h
      · exact ⟨s, Onward.refl s, h⟩
      · dsimp only at h
        split at h
        · rcases orElse_eq_some h with h | h
          · exact ⟨s, Onward.refl s, h⟩
          · exact hmore h
        · rcases orElse_eq_some h with h | h
          · exact hmore h
          · exact ⟨s, Onward.refl s, h⟩

namespace Expr

/-- The continuation of a match is tried at a cursor on the way. -/
theorem run_onward (e : Expr) : GoesOnward e.run := by
  induction e with
  | empty => exact fun s k t h => ⟨s, Onward.refl s, h⟩
  | set cs =>
    intro s k t h
    unfold run at h
    split at h
    · cases h
    · rename_i c rest hafter
      split at h
      · exact ⟨_, Onward.advance hafter, h⟩
      · cases h
  | span cs least most lazy =>
    intro s k t h
    unfold run at h
    obtain ⟨u, hu, hk⟩ := List.exists_of_findSome?_eq_some h
    have hmem : u ∈ reached cs s.after most s [] := by
      split at hu
      · exact (List.takeWhile_sublist _).mem (List.mem_reverse.mp hu)
      · exact (List.takeWhile_sublist _).mem hu
    rcases reached_onward s.after rfl hmem with hnil | honward
    · cases hnil
    · exact ⟨u, honward, hk⟩
  | seq a b iha ihb =>
    intro s k t h
    unfold run at h
    obtain ⟨u, hu, hrest⟩ := iha _ _ _ h
    obtain ⟨v, hv, hk⟩ := ihb _ _ _ hrest
    exact ⟨v, hu.trans hv, hk⟩
  | alt a b iha ihb =>
    intro s k t h
    unfold run at h
    rcases orElse_eq_some h with h | h
    · exact iha _ _ _ h
    · exact ihb _ _ _ h
  | rep body least most lazy ih =>
    intro s k t h
    unfold run at h
    exact repeatBody_onward ih _ _ _ _ h
  | capture index body ih =>
    intro s k t h
    unfold run at h
    obtain ⟨u, hu, hk⟩ := ih _ _ _ h
    exact ⟨_, hu.withCaptures _, hk⟩
  | again index anyCase width =>
    intro s k t h
    unfold run at h
    split at h
    · cases h
    · obtain ⟨u, hu, hk⟩ := Option.bind_eq_some_iff.mp h
      exact ⟨u, takeText?_onward _ hu, hk⟩
  | ahead wanted body ih =>
    -- A look gives its place back, with the captures it made.
    intro s k t h
    unfold run at h
    split at h <;> split at h <;> first | cases h | exact ⟨_, (Onward.refl s).withCaptures _, h⟩
  | behind wanted size body ih =>
    intro s k t h
    unfold run at h
    split at h <;> split at h <;> first | cases h | exact ⟨_, (Onward.refl s).withCaptures _, h⟩
  | atomic body ih =>
    intro s k t h
    unfold run at h
    obtain ⟨u, hu, hk⟩ := Option.bind_eq_some_iff.mp h
    obtain ⟨v, hv, hsome⟩ := ih _ _ _ hu
    cases hsome
    exact ⟨_, hv, hk⟩
  | anchor a =>
    intro s k t h
    unfold run at h
    split at h
    · exact ⟨s, Onward.refl s, h⟩
    · cases h
  | ifCaptured index yes no ihyes ihno =>
    intro s k t h
    unfold run at h
    split at h
    · exact ihyes _ _ _ h
    · exact ihno _ _ _ h

/-- A match ends at a cursor on the way. -/
theorem matchAt_onward {e : Expr} {s t : Cursor} (h : e.matchAt s = some t) : s.Onward t := by
  obtain ⟨u, hu, hsome⟩ := run_onward e _ _ _ h
  cases hsome
  exact hu

end Expr

end GrammarBench.Pattern
