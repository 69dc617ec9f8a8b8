import GrammarBench.Loading.Finder
import GrammarBench.Proofs.Paths

/-!
# Patterns that cannot be followed

A pattern is followed from the directory in front of its first part with a glyph on. Whether that directory has a path
at all is a matter of the parts in front of the glyph, which the search finds by taking one part after the other off
the end.

* `Finder.lead`: the parts of a pattern in front of the first glyph.
* `Finder.isBarred_iff`: the patterns that cannot be followed.
* `Finder.isBarred_below`: a path without glyphs and null characters in front of a pattern does not matter.
-/

namespace GrammarBench.Loading.Finder

open GrammarBench.Path

/-! ## Characters in the parts of a path -/

theorem any_intercalate {q : Char → Bool} (hq : q '/' = false) (names : List String) :
    ("/".intercalate names).toList.any q = names.any fun n => n.toList.any q := by
  induction names with
  | nil => rfl
  | cons n rest ih =>
      cases rest with
      | nil => simp
      | cons m rest =>
          have hslash : "/".toList.any q = false := by simpa using hq
          rw [String.intercalate_cons_cons, String.toList_append, String.toList_append, List.any_append,
            List.any_append, hslash, ih, Bool.or_false]
          rfl

theorem any_parts {q : Char → Bool} (hq : q '/' = false) (path : String) :
    ((parts path).any fun part => part.toList.any q) = path.toList.any q := by
  rw [← any_intercalate hq, intercalate_parts]

theorem any_hasGlyph (path : String) : (parts path).any hasGlyph = hasGlyph path := any_parts rfl path

theorem any_hasNull (path : String) : (parts path).any hasNull = hasNull path := any_parts rfl path

theorem hasGlyph_append (a b : String) : hasGlyph (a ++ b) = (hasGlyph a || hasGlyph b) := by
  unfold hasGlyph
  rw [String.toList_append, List.any_append]

theorem hasNull_append (a b : String) : hasNull (a ++ b) = (hasNull a || hasNull b) := by
  unfold hasNull
  rw [String.toList_append, List.any_append]

theorem any_slashes {q : Char → Bool} (hq : q '/' = false) (k : Nat) : (slashes k).toList.any q = false := by
  unfold slashes
  rw [String.toList_ofList, List.any_replicate, hq]
  exact ite_self _

/-! ## The parts in front of the first glyph -/

/-- The parts of a pattern in front of the first one with a glyph. -/
def lead (pattern : String) : List String := (parts pattern).takeWhile (!hasGlyph ·)

/-- What stands behind a glyph does not matter. -/
theorem takeWhile_append_of_hasGlyph {path : String} (h : hasGlyph path = true) (more : List String) :
    (parts path ++ more).takeWhile (!hasGlyph ·) = lead path := by
  rw [← any_hasGlyph, List.any_eq_true] at h
  obtain ⟨part, hpart, hglyph⟩ := h
  rw [List.takeWhile_append, if_neg]
  · rfl
  · intro hlength
    have hall := List.takeWhile_eq_self_iff.mp ((List.takeWhile_prefix _).eq_of_length hlength)
    have := hall part hpart
    simp [hglyph] at this

theorem lead_below_of_hasGlyph {front : String} (h : hasGlyph front = true) (last : String) :
    lead (front ++ "/" ++ last) = lead front := by
  unfold lead
  rw [parts_below]
  exact takeWhile_append_of_hasGlyph h _

theorem lead_below {front : String} (h : hasGlyph front = false) (last : String) :
    lead (front ++ "/" ++ last) = parts front ++ lead last := by
  have hall : ∀ part ∈ parts front, (!hasGlyph part) = true := by
    rw [← any_hasGlyph, List.any_eq_false] at h
    exact fun part hpart => by simpa using h part hpart
  unfold lead
  rw [parts_below, List.takeWhile_append_of_pos hall]

/-- Whether a pattern has a glyph, and a null character in a part in front of the first one. -/
def isNullLed (pattern : String) : Bool := hasGlyph pattern && (lead pattern).any hasNull

theorem isNullLed_slashless {pattern : String} (h : '/' ∉ pattern.toList) : isNullLed pattern = false := by
  unfold isNullLed lead
  rw [parts_slashless h, List.takeWhile_cons]
  cases hasGlyph pattern <;> rfl

theorem isNullLed_below_of_hasGlyph {front : String} (h : hasGlyph front = true) (last : String) :
    isNullLed (front ++ "/" ++ last) = isNullLed front := by
  unfold isNullLed
  rw [lead_below_of_hasGlyph h, hasGlyph_append, hasGlyph_append, h, Bool.true_or, Bool.true_or]

theorem isNullLed_below {front : String} (h : hasGlyph front = false) (last : String) :
    isNullLed (front ++ "/" ++ last) = (hasGlyph last && hasNull front || isNullLed last) := by
  have hslash : hasGlyph "/" = false := by decide
  unfold isNullLed
  rw [lead_below h, List.any_append, any_hasNull, hasGlyph_append, hasGlyph_append, h, hslash, Bool.or_self,
    Bool.false_or, Bool.and_or_distrib_left]

/-- The first half of a path has the glyphs and the parts of what stands in front of the last slash. -/
theorem isNullLed_half (front : String) :
    let half := if trimmed front = "" then front ++ "/" else trimmed front
    hasGlyph half = hasGlyph front ∧ hasNull half = hasNull front ∧
      (hasGlyph front = true → half.length ≤ front.length ∧ isNullLed half = isNullLed front) := by
  intro half
  obtain ⟨k, hk⟩ := eq_trimmed_append front
  have hslashes : hasGlyph (slashes k) = false ∧ hasNull (slashes k) = false := ⟨any_slashes rfl k, any_slashes rfl k⟩
  have hglyph : hasGlyph front = hasGlyph (trimmed front) := by
    conv_lhs => rw [hk, hasGlyph_append, hslashes.1, Bool.or_false]
  have hnull : hasNull front = hasNull (trimmed front) := by
    conv_lhs => rw [hk, hasNull_append, hslashes.2, Bool.or_false]
  unfold half
  split
  · next hempty =>
    rw [hempty] at hglyph hnull
    refine ⟨?_, ?_, fun h => absurd (hglyph.symm.trans h) (by decide)⟩
    · rw [hasGlyph_append, show hasGlyph "/" = false by decide, Bool.or_false]
    · rw [hasNull_append, show hasNull "/" = false by decide, Bool.or_false]
  · refine ⟨hglyph.symm, hnull.symm, fun h => ⟨length_trimmed_le front, ?_⟩⟩
    have hparts : parts front = parts (trimmed front) ++ List.replicate k "" := by
      conv_lhs => rw [hk, parts_append_slashes]
    have hlead : lead front = lead (trimmed front) := by
      rw [lead, hparts, takeWhile_append_of_hasGlyph (hglyph ▸ h)]
    rw [isNullLed, isNullLed, hlead, hglyph]

/-! ## The patterns -/

theorem isBarredIn_succ (rounds : Nat) {pattern directory part : String} (hsplit : split pattern = (directory, part)) :
    isBarredIn (rounds + 1) pattern = (hasGlyph pattern &&
      if directory ≠ pattern ∧ hasGlyph directory = true then isBarredIn rounds directory else hasNull directory) := by
  rw [isBarredIn, hsplit]
  simp only [Bool.and_eq_true, decide_eq_true_eq]

/-- With rounds enough, the search for the directory is decided by the parts in front of the first glyph. -/
theorem isBarredIn_eq {rounds : Nat} {pattern : String} (h : pattern.length < rounds) :
    isBarredIn rounds pattern = isNullLed pattern := by
  induction rounds generalizing pattern with
  | zero => exact absurd h (Nat.not_lt_zero _)
  | succ rounds ih =>
      rcases exists_halves pattern with hslash | ⟨front, last, rfl, hlast⟩
      · have hempty : hasNull "" = false := by decide
        rw [isBarredIn_succ rounds (split_slashless hslash), isNullLed_slashless hslash,
          if_neg fun h => absurd h.2 (by decide), hempty, Bool.and_false]
      · obtain ⟨hglyph, hnull, hhalf⟩ := isNullLed_half front
        rw [isBarredIn_succ rounds (split_below hlast), hglyph, hnull, hasGlyph_append, hasGlyph_append]
        generalize hdirectory : (if trimmed front = "" then front ++ "/" else trimmed front) = directory at *
        cases hfront : hasGlyph front with
        | true =>
            obtain ⟨hlength, hled⟩ := hhalf hfront
            have hslash : "/".length = 1 := rfl
            rw [String.length_append, String.length_append, hslash] at h
            have hne : directory ≠ front ++ "/" ++ last := fun heq => by
              rw [heq, String.length_append, String.length_append, hslash] at hlength
              omega
            rw [if_pos ⟨hne, rfl⟩, ih (by omega), hled, isNullLed_below_of_hasGlyph hfront, Bool.true_or, Bool.true_or,
              Bool.true_and]
        | false =>
            have hslash : hasGlyph "/" = false := by decide
            rw [if_neg (by simp), isNullLed_below hfront, isNullLed_slashless hlast, hslash, Bool.or_self,
              Bool.false_or, Bool.or_false]

theorem isBarred_eq (pattern : String) : isBarred pattern = isNullLed pattern := isBarredIn_eq (Nat.lt_succ_self _)

/-- The patterns that cannot be followed: those with a glyph, and with a null character in a part in front of it. -/
theorem isBarred_iff {pattern : String} :
    isBarred pattern = true ↔ hasGlyph pattern = true ∧ ∃ part ∈ lead pattern, hasNull part = true := by
  rw [isBarred_eq, isNullLed, Bool.and_eq_true, List.any_eq_true]

/-- A path without glyphs and null characters in front of a pattern does not matter. -/
theorem isBarred_below {front : String} (hglyph : hasGlyph front = false) (hnull : hasNull front = false)
    (pattern : String) : isBarred (front ++ "/" ++ pattern) = isBarred pattern := by
  rw [isBarred_eq, isBarred_eq, isNullLed_below hglyph, hnull, Bool.and_false, Bool.false_or]

end GrammarBench.Loading.Finder
