import Mathlib.Data.List.Basic
import GrammarBench.Text.Letter

/-!
# Lower case

A text in lower case is its own lower-case form: no run of the case table leads into another run.

* `CaseRun.closed`: the elements that a run leads to are left out by all runs.
* `Lowered`: a character that is its own lower-case form, wherever it stands.
* `toLower_toLower`: a text in lower case stays as it is.
-/

namespace GrammarBench.Text

/-! ## Runs -/

namespace CaseRun

variable {r s : CaseRun} {runs : List CaseRun} {n k : Nat}

def last (r : CaseRun) : Nat := r.first + (r.count - 1) * r.step

/-- The run does not hold a number. -/
def leaves (n : Nat) (r : CaseRun) : Bool :=
  Nat.blt n r.first || Nat.blt r.last n || Nat.blt 0 ((n - r.first) % r.step)

/-- What the element of a run at some place leads to. -/
def target (r : CaseRun) (k : Nat) : Nat := (((r.first + k * r.step : Nat) : Int) + r.shift).toNat

/-- The elements of one run may lead into another. -/
def reaches (r s : CaseRun) : Bool :=
  Nat.ble s.first (r.target (r.count - 1)) && Nat.ble (r.target 0) s.last

/-- The code point of a character that is not treated by itself. -/
def plain (n : Nat) : Bool :=
  (Nat.blt n 0xD800 || (Nat.blt 0xDFFF n && Nat.blt n 0x110000)) &&
    (Nat.blt n 304 || Nat.blt 304 n && Nat.blt n 931 || Nat.blt 931 n)

/-- All elements of a run lead to plain code points that are left out by all runs. -/
def closed (runs : List CaseRun) (r : CaseRun) : Bool :=
  let near := runs.filter r.reaches
  Nat.blt 0 r.step &&
    (List.range (r.count - 1 + 1)).all fun k => plain (r.target k) && near.all (leaves (r.target k))

theorem other?_eq_none (h : r.leaves n = true) : r.other? n = none := by
  unfold other?
  rw [if_neg]
  rintro ⟨hfirst, hlast, hstep⟩
  simp only [leaves, last, Bool.or_eq_true, Nat.blt_eq] at h
  omega

/-- A number that has another case in a run stands at some place of it. -/
theorem exists_target (hstep : 0 < r.step) {m : Nat} (h : r.other? n = some m) :
    ∃ k ≤ r.count - 1, m = r.target k := by
  unfold other? at h
  split at h
  · next hin =>
    obtain ⟨hfirst, hlast, hmod⟩ := hin
    obtain ⟨k, hk⟩ := Nat.dvd_of_mod_eq_zero hmod
    rw [Nat.mul_comm] at hk
    have hplace : n = r.first + k * r.step := by omega
    have hle : k * r.step ≤ (r.count - 1) * r.step := by omega
    refine ⟨k, Nat.le_of_mul_le_mul_right hle hstep, ?_⟩
    rw [hplace] at h
    exact (Option.some.inj h).symm
  · cases h

theorem target_mono {k k' : Nat} (h : k ≤ k') : r.target k ≤ r.target k' := by
  have hmul : k * r.step ≤ k' * r.step := Nat.mul_le_mul_right _ h
  unfold target
  omega

/-- What an element of a closed run leads to has no other case. -/
theorem other?_target (h : r.closed runs = true) (hk : k ≤ r.count - 1) (hs : s ∈ runs) :
    s.other? (r.target k) = none := by
  unfold closed at h
  simp only [Bool.and_eq_true, List.all_eq_true] at h
  obtain ⟨-, hleaves⟩ := h.2 k (List.mem_range.mpr (Nat.lt_succ_of_le hk))
  refine other?_eq_none ?_
  cases hreaches : r.reaches s with
  | true => exact hleaves s (List.mem_filter.mpr ⟨hs, hreaches⟩)
  | false =>
      have hlow : r.target 0 ≤ r.target k := target_mono (Nat.zero_le k)
      have hhigh : r.target k ≤ r.target (r.count - 1) := target_mono hk
      have hfar : ¬ (s.first ≤ r.target (r.count - 1) ∧ r.target 0 ≤ s.last) := by
        intro hboth
        rw [← Nat.ble_eq, ← Nat.ble_eq, ← Bool.and_eq_true] at hboth
        rw [reaches, hboth] at hreaches
        cases hreaches
      simp only [leaves, Bool.or_eq_true, Nat.blt_eq]
      omega

theorem plain_target (h : r.closed runs = true) (hk : k ≤ r.count - 1) : plain (r.target k) = true := by
  unfold closed at h
  simp only [Bool.and_eq_true, List.all_eq_true] at h
  exact (h.2 k (List.mem_range.mpr (Nat.lt_succ_of_le hk))).1

theorem step_pos (h : r.closed runs = true) : 0 < r.step := by
  unfold closed at h
  rw [Bool.and_eq_true, Nat.blt_eq] at h
  exact h.1

end CaseRun

/-- No run of the table leads into another one. -/
theorem closed_lowerRuns :
    (CaseTable.lowerRuns.toList.all fun r => r.closed CaseTable.lowerRuns.toList) = true := by
  decide +kernel

/-! ## Characters -/

theorem otherCase_eq_self {runs : Array CaseRun} {c : Char}
    (h : ∀ r ∈ runs.toList, r.other? c.toNat = none) : otherCase runs c = c := by
  have hnone : (runs.findSome? (·.other? c.toNat)) = none := by
    rw [← Array.findSome?_toList, List.findSome?_eq_none_iff]
    exact h
  unfold otherCase
  rw [hnone]
  rfl

/-- A character that is its own lower-case form, wherever it stands. -/
structure Lowered (c : Char) : Prop where
  notSigma : c ≠ 'Σ'
  notDotted : c ≠ 'İ'
  lower : Text.lower c = c

theorem toLower_eq_self {c : Char} (h : ¬ (65 ≤ c.toNat ∧ c.toNat ≤ 90)) : c.toLower = c := by
  unfold Char.toLower
  rw [dif_neg]
  rintro ⟨hlow, hhigh⟩
  exact h ⟨hlow, hhigh⟩

/-- A character that no run gives another case is in lower case. -/
theorem lowered_of_other? {c : Char} (hsigma : c ≠ 'Σ') (hdotted : c ≠ 'İ')
    (h : ∀ r ∈ CaseTable.lowerRuns.toList, r.other? c.toNat = none) : Lowered c := by
  refine ⟨hsigma, hdotted, ?_⟩
  unfold lower
  rw [if_neg hdotted, otherCase_eq_self h]
  split
  · refine toLower_eq_self fun hupper => ?_
    have hfirst := h ⟨65, 26, 1, 32⟩ List.mem_cons_self
    unfold CaseRun.other? at hfirst
    rw [if_pos ⟨hupper.1, hupper.2, Nat.mod_one _⟩] at hfirst
    cases hfirst
  · rfl

theorem lowered_of_leaves {c : Char} (hsigma : c ≠ 'Σ') (hdotted : c ≠ 'İ')
    (h : (CaseTable.lowerRuns.toList.all (CaseRun.leaves c.toNat)) = true) : Lowered c :=
  lowered_of_other? hsigma hdotted fun r hr => CaseRun.other?_eq_none (List.all_eq_true.mp h r hr)

theorem toNat_ofNat {n : Nat} (h : CaseRun.plain n = true) : (Char.ofNat n).toNat = n := by
  simp only [CaseRun.plain, Bool.and_eq_true, Bool.or_eq_true, Nat.blt_eq] at h
  have hvalid : n.isValidChar := by
    unfold Nat.isValidChar
    omega
  unfold Char.ofNat
  rw [dif_pos hvalid]
  rfl

/-- What a run leads to is in lower case. -/
theorem lowered_target {r : CaseRun} {k : Nat} (hr : r ∈ CaseTable.lowerRuns.toList)
    (hk : k ≤ r.count - 1) : Lowered (Char.ofNat (r.target k)) := by
  have hclosed : r.closed CaseTable.lowerRuns.toList = true :=
    List.all_eq_true.mp closed_lowerRuns r hr
  have hplain := CaseRun.plain_target hclosed hk
  have hnumber := toNat_ofNat hplain
  simp only [CaseRun.plain, Bool.and_eq_true, Bool.or_eq_true, Nat.blt_eq] at hplain
  have hother (c : Char) (hc : c.toNat = 304 ∨ c.toNat = 931) : Char.ofNat (r.target k) ≠ c := by
    rintro rfl
    omega
  refine lowered_of_other? (hother 'Σ' (Or.inr rfl)) (hother 'İ' (Or.inl rfl)) fun s hs => ?_
  rw [hnumber]
  exact CaseRun.other?_target hclosed hk hs

theorem lowered_ascii :
    ∀ n < 128, (Char.ofNat n).toLower ≠ 'Σ' ∧ (Char.ofNat n).toLower ≠ 'İ' ∧
      lower (Char.ofNat n).toLower = (Char.ofNat n).toLower := by
  decide +kernel

/-- A lower-case form is its own. -/
theorem lowered_lower {c : Char} (hsigma : c ≠ 'Σ') (hdotted : c ≠ 'İ') : Lowered (lower c) := by
  unfold lower
  split
  · next hplain =>
    obtain ⟨h, h', hlower⟩ := lowered_ascii c.toNat hplain
    rw [Char.ofNat_toNat] at h h' hlower
    exact ⟨h, h', hlower⟩
  · unfold otherCase
    rw [← Array.findSome?_toList]
    cases hfind : CaseTable.lowerRuns.toList.findSome? (·.other? c.toNat) with
    | none =>
        exact lowered_of_other? hsigma hdotted (List.findSome?_eq_none_iff.mp hfind)
    | some m =>
        obtain ⟨r, hr, hother⟩ := List.exists_of_findSome?_eq_some hfind
        have hstep : 0 < r.step := CaseRun.step_pos (List.all_eq_true.mp closed_lowerRuns r hr)
        obtain ⟨k, hk, rfl⟩ := CaseRun.exists_target hstep hother
        exact lowered_target hr hk

/-! ## Texts -/

theorem lowered_toLowerAfter (before : Option Char) (s : List Char) :
    ∀ c ∈ toLowerAfter before s, Lowered c := by
  induction s generalizing before with
  | nil => exact fun c hc => nomatch hc
  | cons c rest ih =>
      have hhead : ∀ d ∈ (if c = 'Σ' then
          if before.any isLetter && !(rest.head?.any isLetter) then ['ς'] else ['σ']
          else if c = 'İ' then ['i', '\u0307'] else [lower c]), Lowered d := by
        split
        · split <;> intro d hd <;> rw [List.mem_singleton.mp hd] <;>
            exact lowered_of_leaves (by decide) (by decide) (by decide +kernel)
        · next hsigma =>
          split
          · intro d hd
            rcases List.mem_cons.mp hd with rfl | hd
            · exact lowered_of_leaves (by decide) (by decide) (by decide +kernel)
            · rw [List.mem_singleton.mp hd]
              exact lowered_of_leaves (by decide) (by decide) (by decide +kernel)
          · next hdotted => exact fun d hd => List.mem_singleton.mp hd ▸ lowered_lower hsigma hdotted
      intro d hd
      unfold toLowerAfter at hd
      rcases List.mem_append.mp hd with hd | hd
      · exact hhead d hd
      · exact ih (some c) d hd

theorem toLowerAfter_eq_self (before : Option Char) {s : List Char} (h : ∀ c ∈ s, Lowered c) :
    toLowerAfter before s = s := by
  induction s generalizing before with
  | nil => rfl
  | cons c rest ih =>
      obtain ⟨hsigma, hdotted, hlower⟩ := h c List.mem_cons_self
      unfold toLowerAfter
      rw [if_neg hsigma, if_neg hdotted, hlower, ih _ fun d hd => h d (List.mem_cons_of_mem _ hd)]
      rfl

/-- A text in lower case is its own lower-case form. -/
theorem toLower_toLower (s : String) : toLower (toLower s) = toLower s := by
  unfold toLower
  rw [String.toList_ofList, toLowerAfter_eq_self none (lowered_toLowerAfter none s.toList)]

end GrammarBench.Text
