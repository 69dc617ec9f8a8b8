import Mathlib.Data.List.Basic
import GrammarBench.Token.Stream

/-!
# Readings of an emission

A reading takes the items of an emission up to the first that ends it (`Emission.toEnd`). When
that is no failure, its tokens are closed with one that ends the input and numbered
(`Emission.filled`).

* `Emission.read_eq`: what a reading gives, and how many items it takes.
* `Emission.filled_eq`: the list has one token that ends the input, its last one.
* `getElem_numbered`, `map_numbered`: numbered tokens.
-/

namespace GrammarBench

namespace Emission

/-! ## What a reading takes -/

/-- An item that ends a reading: a failure, or a token that ends the input. -/
def isEnd : Except Failure Token → Bool
  | .ok t => t.isEof
  | .error _ => true

/-- The items up to the first that ends a reading, that one included; all of them if none does. -/
def toEnd : Emission → Emission
  | [] => []
  | i :: rest => if isEnd i then [i] else i :: toEnd rest

/-- The failure that comes before every token that ends the input, if there is one. -/
def failure? (e : Emission) : Option Failure :=
  match (toEnd e).getLast? with
  | some (.error f) => some f
  | _ => none

/-- The tokens that a reading takes. -/
def tokens (e : Emission) : List Token := (toEnd e).filterMap Except.toOption

/-- The tokens that a reading takes, closed with one that ends the input if none of them does, and
numbered. -/
def filled (e : Emission) : List Token :=
  (e.tokens ++ if e.tokens.any Token.isEof then [] else [eofAfter e.tokens.getLast?]).mapIdx
    fun i t => t.withIndex i

@[simp] theorem toEnd_nil : toEnd [] = [] := rfl

theorem toEnd_end {i : Except Failure Token} (h : isEnd i = true) (rest : Emission) :
    toEnd (i :: rest) = [i] := by
  simp [toEnd, h]

theorem toEnd_token {t : Token} (h : t.isEof = false) (rest : Emission) :
    toEnd (.ok t :: rest) = .ok t :: toEnd rest := by
  simp [toEnd, isEnd, h]

theorem failure?_token {t : Token} (h : t.isEof = false) (rest : Emission) :
    failure? (.ok t :: rest) = failure? rest := by
  unfold failure?
  rw [toEnd_token h]
  cases hr : toEnd rest with
  | nil => rfl
  | cons i is => rw [List.getLast?_cons_cons]

theorem tokens_token {t : Token} (h : t.isEof = false) (rest : Emission) :
    tokens (.ok t :: rest) = t :: tokens rest := by
  simp [tokens, toEnd_token h, Except.toOption]

theorem toEnd_closed {body : List Token} {last : Token} (hbody : ∀ t ∈ body, t.isEof = false)
    (hlast : last.isEof = true) :
    toEnd (body.map .ok ++ [.ok last]) = body.map .ok ++ [.ok last] := by
  induction body with
  | nil => exact toEnd_end (i := .ok last) hlast []
  | cons t rest ih =>
      rw [List.map_cons, List.cons_append, toEnd_token (hbody t List.mem_cons_self),
        ih fun s hs => hbody s (List.mem_cons_of_mem t hs)]

/-- A reading takes the items up to the first that ends it. -/
theorem read_eq (e : Emission) :
    read e = (match failure? e with
      | some f => .error f
      | none => .ok e.tokens, e.toEnd.length) := by
  induction e with
  | nil => rfl
  | cons i rest ih =>
    cases i with
    | error f => rfl
    | ok t =>
      cases ht : t.isEof with
      | true => simp [read, ht, failure?, tokens, toEnd, isEnd, Except.toOption]
      | false =>
        rw [failure?_token ht, tokens_token ht, toEnd_token ht, read]
        simp only [ht, Bool.false_eq_true, if_false, ih, List.length_cons]
        cases failure? rest <;> rfl

theorem prefix_toEnd (e : Emission) : toEnd e <+: e := by
  induction e with
  | nil => exact List.prefix_rfl
  | cons i rest ih =>
    unfold toEnd
    split
    · exact ⟨rest, rfl⟩
    · exact List.cons_prefix_cons.mpr ⟨rfl, ih⟩

theorem take_toEnd (e : Emission) : e.take e.toEnd.length = e.toEnd :=
  (List.prefix_iff_eq_take.mp (prefix_toEnd e)).symm

/-! ## The list of a filled stream -/

/-- Of the tokens that a reading takes, only the last one can end the input. -/
theorem tokens_eq (e : Emission) (h : failure? e = none) :
    (∀ t ∈ e.tokens, t.isEof = false) ∨
      ∃ body last, e.tokens = body ++ [last] ∧ last.isEof = true ∧ ∀ t ∈ body, t.isEof = false := by
  induction e with
  | nil => exact Or.inl (by simp [tokens])
  | cons i rest ih =>
    cases i with
    | error f => cases h
    | ok t =>
      cases ht : t.isEof with
      | true =>
        refine Or.inr ⟨[], t, ?_, ht, by simp⟩
        simp [tokens, toEnd_end (i := .ok t) ht, Except.toOption]
      | false =>
        rw [tokens_token ht]
        rw [failure?_token ht] at h
        rcases ih h with hnone | ⟨body, last, heq, hlast, hbody⟩
        · refine Or.inl (fun s hs => ?_)
          rcases List.mem_cons.mp hs with rfl | hs
          · exact ht
          · exact hnone s hs
        · refine Or.inr ⟨t :: body, last, by rw [heq, List.cons_append], hlast, fun s hs => ?_⟩
          rcases List.mem_cons.mp hs with rfl | hs
          · exact ht
          · exact hbody s hs

theorem isEof_eofAfter (last : Option Token) : (eofAfter last).isEof = true := by
  cases last <;> rfl

@[simp] theorem isEof_withIndex (t : Token) (i : Int) : (t.withIndex i).isEof = t.isEof := rfl

/-- The tokens that a reading takes, with one that ends the input behind them if there is none. -/
theorem closed_tokens (e : Emission) (h : failure? e = none) :
    closed e.tokens =
      e.tokens ++ if e.tokens.any Token.isEof then [] else [eofAfter e.tokens.getLast?] := by
  rcases tokens_eq e h with hnone | ⟨body, last, heq, hlast, -⟩
  · have hany : e.tokens.any Token.isEof = false := by simpa using hnone
    rw [hany]
    unfold closed
    cases hl : e.tokens.getLast? with
    | none => simp [List.getLast?_eq_none_iff.mp hl]
    | some t => simp [hnone t (List.mem_of_getLast? hl)]
  · have hany : e.tokens.any Token.isEof = true := by rw [heq]; simp [hlast]
    rw [hany]
    unfold closed
    rw [heq]
    simp [hlast]

theorem numbered_closed (e : Emission) (h : failure? e = none) :
    numbered (closed e.tokens) = e.filled := by
  rw [closed_tokens e h]
  rfl

/-- The list of a filled stream has one token that ends the input, its last one. -/
theorem filled_eq (e : Emission) (h : failure? e = none) :
    ∃ body last, e.filled = body ++ [last] ∧ last.isEof = true ∧ ∀ t ∈ body, t.isEof = false := by
  have hlist : ∃ body last,
      (e.tokens ++ if e.tokens.any Token.isEof then [] else [eofAfter e.tokens.getLast?]) =
        body ++ [last] ∧ last.isEof = true ∧ ∀ t ∈ body, t.isEof = false := by
    rcases tokens_eq e h with hnone | ⟨body, last, heq, hlast, hbody⟩
    · have hany : e.tokens.any Token.isEof = false := by simpa using hnone
      exact ⟨e.tokens, eofAfter e.tokens.getLast?, by rw [hany]; rfl, isEof_eofAfter _, hnone⟩
    · have hany : e.tokens.any Token.isEof = true := by rw [heq]; simp [hlast]
      exact ⟨body, last, by rw [hany, heq]; simp, hlast, hbody⟩
  obtain ⟨body, last, heq, hlast, hbody⟩ := hlist
  refine ⟨body.mapIdx fun i t => t.withIndex i, last.withIndex body.length, ?_, hlast, ?_⟩
  · unfold filled
    rw [heq, List.mapIdx_append]
    simp
  · intro t ht
    obtain ⟨i, hi, rfl⟩ := List.mem_mapIdx.mp ht
    rw [isEof_withIndex]
    exact hbody _ (List.getElem_mem hi)

end Emission

open Emission

/-! ## Numbers -/

theorem numbered_concat (body : List Token) (last : Token) :
    numbered body ++ [last.withIndex body.length] = numbered (body ++ [last]) := by
  simp [numbered]

@[simp] theorem length_numbered (tokens : List Token) : (numbered tokens).length = tokens.length :=
  List.length_mapIdx

theorem getElem_numbered (tokens : List Token) (i : Nat) (h : i < (numbered tokens).length)
    (hi : i < tokens.length) : (numbered tokens)[i] = tokens[i].withIndex i :=
  List.getElem_mapIdx

theorem exists_of_mem_numbered {tokens : List Token} {t : Token} (h : t ∈ numbered tokens) :
    ∃ s ∈ tokens, ∃ i : Nat, t = s.withIndex i := by
  obtain ⟨i, hi, rfl⟩ := List.mem_mapIdx.mp h
  exact ⟨_, List.getElem_mem hi, i, rfl⟩

theorem exists_mem_numbered {tokens : List Token} {t : Token} (h : t ∈ tokens) :
    ∃ i : Nat, t.withIndex i ∈ numbered tokens := by
  obtain ⟨i, hi, rfl⟩ := List.mem_iff_getElem.mp h
  exact ⟨i, List.mem_mapIdx.mpr ⟨i, hi, rfl⟩⟩

theorem map_numbered {α : Type} {g : Token → α} (hg : ∀ t i, g (t.withIndex i) = g t)
    (tokens : List Token) : (numbered tokens).map g = tokens.map g := by
  refine List.ext_getElem (by simp) (fun i h h' => ?_)
  rw [List.getElem_map, List.getElem_map, getElem_numbered _ _ _ (by simpa using h'), hg]

end GrammarBench
