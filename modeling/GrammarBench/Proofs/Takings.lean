import GrammarBench.Proofs.Matching

/-!
# What expressions take

The texts that an expression can take in front of others, whatever the order in which the ways to match are
tried, and the characters in them. A greedy run at the end of an expression takes as much as it can.

* `Expr.Takes`: the texts that an expression can take; `Expr.run_takes` says that a match takes one.
* `Expr.sets`, `Expr.firstSets`: the sets that the characters, and the first one, of such a text come from.
* `Expr.Ends`: what cannot stand behind a match.
-/

namespace GrammarBench.Pattern

/-- A number of texts one behind the other that are each taken. -/
inductive Repeats (R : List Char → List Char → Prop) : Nat → List Char → List Char → Prop
  | zero (r : List Char) : Repeats R 0 [] r
  | succ {n : Nat} {p q r : List Char} : R p (q ++ r) → Repeats R n q r → Repeats R (n + 1) (p ++ q) r

/-- What a way of matching hands its continuation, told by what it takes. -/
def TakesBy (way : Cursor → Continuation → Option Cursor) (R : List Char → List Char → Prop) : Prop :=
  ∀ s k t, way s k = some t → ∃ (p : List Char) (u : Cursor), s.after = p ++ u.after ∧ R p u.after ∧ k u = some t

namespace Expr

/-- The expression can take a text in front of another. What a reference takes is not looked at. -/
def Takes : Expr → List Char → List Char → Prop
  | empty, p, _ => p = []
  | set cs, p, _ => ∃ c, p = [c] ∧ cs.has c = true
  | span cs least most _, p, _ =>
    (∀ c ∈ p, cs.has c = true) ∧ least ≤ p.length ∧ ∀ n ∈ most, p.length ≤ n
  | seq a b, p, r => ∃ q q', p = q ++ q' ∧ Takes a q (q' ++ r) ∧ Takes b q' r
  | alt a b, p, r => Takes a p r ∨ Takes b p r
  | rep body least _ _, p, r => ∃ n, least ≤ n ∧ Repeats (Takes body) n p r
  | capture _ body, p, r => Takes body p r
  | again _ _ _, _, _ => True
  | ahead true body, p, r => p = [] ∧ ∃ q r', r = q ++ r' ∧ Takes body q r'
  | ahead false _, p, _ => p = []
  | behind _ _ _, p, _ => p = []
  | atomic body, p, r => Takes body p r
  | anchor _, p, _ => p = []
  | ifCaptured _ yes no, p, r => Takes yes p r ∨ Takes no p r

end Expr

/-! ## Runs and repetitions -/

/-- Every cursor that is reached stands behind characters of the set, no more of them than wanted. -/
theorem reached_takes {cs : CharSet} (l : List Char) {most : Option Nat} {s t : Cursor}
    {found : List Cursor} (hafter : s.after = l) (h : t ∈ reached cs l most s found) :
    t ∈ found ∨ ∃ p, s.after = p ++ t.after ∧ t.passed = s.passed + p.length ∧
      (∀ c ∈ p, cs.has c = true) ∧ ∀ n ∈ most, p.length ≤ n := by
  have hhere (t : Cursor) (ht : t ∈ s :: found) : t ∈ found ∨ ∃ p, s.after = p ++ t.after ∧
      t.passed = s.passed + p.length ∧ (∀ c ∈ p, cs.has c = true) ∧ ∀ n ∈ most, p.length ≤ n := by
    rcases List.mem_cons.mp ht with rfl | ht
    · exact Or.inr ⟨[], rfl, rfl, by simp, by simp⟩
    · exact Or.inl ht
  induction l generalizing most s found with
  | nil => exact hhere t h
  | cons c rest ih =>
      unfold reached at h
      split at h
      · exact hhere t h
      · rename_i hgoes
        simp only [Bool.or_eq_true, decide_eq_true_eq, Bool.not_eq_true', not_or, Bool.not_eq_false] at hgoes
        have hadvance : ∀ t, t ∈ s.advance c rest :: s :: found → t ∈ s :: found ∨ ∃ p,
            (s.advance c rest).after = p ++ t.after ∧ t.passed = (s.advance c rest).passed + p.length ∧
              (∀ c ∈ p, cs.has c = true) ∧ ∀ n ∈ most.map (· - 1), p.length ≤ n := by
          intro t ht
          rcases List.mem_cons.mp ht with rfl | ht
          · exact Or.inr ⟨[], rfl, rfl, by simp, by simp⟩
          · exact Or.inl ht
        rcases ih rfl h hadvance with hfound | ⟨p, hp, hpassed, hall, hmost⟩
        · exact hhere t hfound
        · refine Or.inr ⟨c :: p, by rw [hafter]; exact congrArg (c :: ·) hp, ?_, ?_, ?_⟩
          · rw [hpassed, List.length_cons]
            show s.passed + 1 + p.length = _
            omega
          · exact List.forall_mem_cons.mpr ⟨hgoes.2, hall⟩
          · intro n hn
            have hle := hmost (n - 1) (Option.mem_map_of_mem (· - 1) hn)
            have hne : n ≠ 0 := fun h0 => hgoes.1 (h0 ▸ hn)
            rw [List.length_cons]
            omega

/-- Behind the farthest cursor that is reached no character of the set follows. -/
theorem head?_reached {cs : CharSet} (l : List Char) {s t : Cursor} {found : List Cursor} (hafter : s.after = l)
    (h : (reached cs l none s found).head? = some t) :
    s.passed ≤ t.passed ∧ ∀ c ∈ t.after.head?, cs.has c = false := by
  induction l generalizing s found with
  | nil =>
      obtain rfl := Option.some.inj h
      simp [hafter]
  | cons c rest ih =>
      unfold reached at h
      split at h
      · rename_i hstop
        obtain rfl := Option.some.inj h
        rw [hafter]
        simpa using hstop
      · obtain ⟨hpassed, hhead⟩ := ih rfl h
        exact ⟨Nat.le_of_succ_le hpassed, hhead⟩

theorem repeatBody_takes {body : Cursor → Continuation → Option Cursor} {R : List Char → List Char → Prop}
    (hbody : TakesBy body R) {lazy : Bool} {k : Continuation} (rounds least : Nat) (most last : Option Nat)
    (hrounds : least ≤ rounds) {s t : Cursor} (h : repeatBody body lazy k rounds least most last s = some t) :
    ∃ n p u, least ≤ n ∧ s.after = p ++ u.after ∧ Repeats R n p u.after ∧ k u = some t := by
  induction rounds generalizing least most last s with
  | zero =>
      unfold repeatBody at h
      exact ⟨0, [], s, hrounds, rfl, .zero _, h⟩
  | succ rounds ih =>
      -- One repetition more takes its own text first.
      have hmore {least' : Nat} {most last : Option Nat} (hle : least' ≤ rounds)
          (hrun : body s (fun s' => repeatBody body lazy k rounds least' most last s') = some t) :
          ∃ n p u, least' + 1 ≤ n ∧ s.after = p ++ u.after ∧ Repeats R n p u.after ∧ k u = some t := by
        obtain ⟨p, u, hp, hR, hrest⟩ := hbody _ _ _ hrun
        obtain ⟨n, q, v, hn, hq, hrepeats, hk⟩ := ih _ _ _ hle hrest
        rw [hq] at hR hp
        exact ⟨n + 1, p ++ q, v, Nat.succ_le_succ hn, by rw [hp, List.append_assoc], .succ hR hrepeats, hk⟩
      have hnone (hk : k s = some t) :
          ∃ n p u, 0 ≤ n ∧ s.after = p ++ u.after ∧ Repeats R n p u.after ∧ k u = some t :=
        ⟨0, [], s, Nat.le_refl 0, rfl, .zero _, hk⟩
      cases least with
      | succ least =>
          unfold repeatBody at h
          exact hmore (Nat.le_of_succ_le_succ hrounds) h
      | zero =>
          have hmore' {most last : Option Nat}
              (hrun : body s (fun s' => repeatBody body lazy k rounds 0 most last s') = some t) :
              ∃ n p u, 0 ≤ n ∧ s.after = p ++ u.after ∧ Repeats R n p u.after ∧ k u = some t := by
            obtain ⟨n, p, u, -, hrest⟩ := hmore (Nat.zero_le rounds) hrun
            exact ⟨n, p, u, Nat.zero_le n, hrest⟩
          unfold repeatBody at h
          split at h
          · exact hnone h
          · dsimp only at h
            split at h
            · exact (orElse_eq_some h).elim hnone hmore'
            · exact (orElse_eq_some h).elim hmore' hnone

namespace Expr

/-! ## Matches -/

/-- A match hands its continuation a place behind a text that the expression takes. -/
theorem run_takes (e : Expr) : TakesBy e.run e.Takes := by
  induction e with
  | empty => exact fun s k t h => ⟨[], s, rfl, rfl, h⟩
  | set cs =>
      intro s k t h
      unfold run at h
      split at h
      · cases h
      · rename_i c rest hafter
        split at h
        · rename_i hc
          exact ⟨[c], s.advance c rest, hafter, ⟨c, rfl, hc⟩, h⟩
        · cases h
  | span cs least most lazy =>
      intro s k t h
      unfold run at h
      obtain ⟨u, hu, hk⟩ := List.exists_of_findSome?_eq_some h
      have hmem : u ∈ (reached cs s.after most s []).takeWhile fun t => s.passed + least ≤ t.passed := by
        split at hu
        · exact List.mem_reverse.mp hu
        · exact hu
      have hleast : s.passed + least ≤ u.passed :=
        of_decide_eq_true (List.all_eq_true.mp List.all_takeWhile u hmem)
      rcases reached_takes s.after rfl ((List.takeWhile_sublist _).mem hmem) with
        hnil | ⟨p, hp, hpassed, hall, hmost⟩
      · cases hnil
      · exact ⟨p, u, hp, ⟨hall, by omega, hmost⟩, hk⟩
  | seq a b iha ihb =>
      intro s k t h
      unfold run at h
      obtain ⟨p, u, hp, ha, hrest⟩ := iha _ _ _ h
      obtain ⟨q, v, hq, hb, hk⟩ := ihb _ _ _ hrest
      rw [hq] at ha hp
      exact ⟨p ++ q, v, by rw [hp, List.append_assoc], ⟨p, q, rfl, ha, hb⟩, hk⟩
  | alt a b iha ihb =>
      intro s k t h
      unfold run at h
      rcases orElse_eq_some h with h | h
      · obtain ⟨p, u, hp, ha, hk⟩ := iha _ _ _ h
        exact ⟨p, u, hp, Or.inl ha, hk⟩
      · obtain ⟨p, u, hp, hb, hk⟩ := ihb _ _ _ h
        exact ⟨p, u, hp, Or.inr hb, hk⟩
  | rep body least most lazy ih =>
      intro s k t h
      unfold run at h
      obtain ⟨n, p, u, hn, hp, hrepeats, hk⟩ := repeatBody_takes ih _ _ _ _ (by omega) h
      exact ⟨p, u, hp, ⟨n, hn, hrepeats⟩, hk⟩
  | capture index body ih =>
      intro s k t h
      unfold run at h
      obtain ⟨p, u, hp, htakes, hk⟩ := ih _ _ _ h
      exact ⟨p, { u with captures := (index, u.since s) :: u.captures }, hp, htakes, hk⟩
  | again index anyCase width =>
      intro s k t h
      obtain ⟨u, ⟨p, hp, -⟩, hk⟩ := run_onward _ _ _ _ h
      exact ⟨p, u, hp, trivial, hk⟩
  | ahead wanted body ih =>
      intro s k t h
      unfold run at h
      split at h
      · rename_i s' hlook
        cases wanted with
        | false => cases h
        | true =>
            obtain ⟨p, u, hp, htakes, -⟩ := ih _ _ _ hlook
            exact ⟨[], { s with captures := s'.captures }, rfl, ⟨rfl, p, u.after, hp, htakes⟩, h⟩
      · cases wanted with
        | true => cases h
        | false => exact ⟨[], s, rfl, rfl, h⟩
  | behind wanted size body ih =>
      intro s k t h
      unfold run at h
      split at h
      · rename_i s' _
        split at h
        · exact ⟨[], { s with captures := s'.captures }, rfl, rfl, h⟩
        · cases h
      · split at h
        · cases h
        · exact ⟨[], s, rfl, rfl, h⟩
  | atomic body ih =>
      intro s k t h
      unfold run at h
      obtain ⟨v, hv, hk⟩ := Option.bind_eq_some_iff.mp h
      obtain ⟨p, u, hp, htakes, hsome⟩ := ih _ _ _ hv
      cases hsome
      exact ⟨p, _, hp, htakes, hk⟩
  | anchor a =>
      intro s k t h
      unfold run at h
      split at h
      · exact ⟨[], s, rfl, rfl, h⟩
      · cases h
  | ifCaptured index yes no ihyes ihno =>
      intro s k t h
      unfold run at h
      split at h
      · obtain ⟨p, u, hp, hyes, hk⟩ := ihyes _ _ _ h
        exact ⟨p, u, hp, Or.inl hyes, hk⟩
      · obtain ⟨p, u, hp, hno, hk⟩ := ihno _ _ _ h
        exact ⟨p, u, hp, Or.inr hno, hk⟩

/-- A match takes a text that the expression can take. -/
theorem matchAt_takes {e : Expr} {s t : Cursor} (h : e.matchAt s = some t) :
    ∃ p, s.after = p ++ t.after ∧ e.Takes p t.after := by
  obtain ⟨p, u, hp, htakes, hsome⟩ := run_takes e _ _ _ h
  cases hsome
  exact ⟨p, hp, htakes⟩

/-! ## The characters of a text that is taken -/

/-- The sets that the characters of a text come from which the expression takes. -/
def sets : Expr → List CharSet
  | set cs | span cs _ _ _ => [cs]
  | seq a b | alt a b | ifCaptured _ a b => sets a ++ sets b
  | rep body _ _ _ | capture _ body | atomic body => sets body
  | again _ _ _ => [{ items := [], negated := true }]
  | empty | ahead _ _ | behind _ _ _ | anchor _ => []

/-- Whether the expression may take nothing. -/
def mayBeEmpty : Expr → Bool
  | set _ => false
  | span _ least _ _ => least = 0
  | seq a b => mayBeEmpty a && mayBeEmpty b
  | alt a b | ifCaptured _ a b => mayBeEmpty a || mayBeEmpty b
  | rep body least _ _ => least = 0 || mayBeEmpty body
  | capture _ body | atomic body => mayBeEmpty body
  | empty | again _ _ _ | ahead _ _ | behind _ _ _ | anchor _ => true

/-- The sets that the first character of a text comes from which the expression takes. -/
def firstSets : Expr → List CharSet
  | set cs | span cs _ _ _ => [cs]
  | seq a b => firstSets a ++ if mayBeEmpty a then firstSets b else []
  | alt a b | ifCaptured _ a b => firstSets a ++ firstSets b
  | rep body _ _ _ | capture _ body | atomic body => firstSets body
  | again _ _ _ => [{ items := [], negated := true }]
  | empty | ahead _ _ | behind _ _ _ | anchor _ => []

theorem Takes.among {e : Expr} {p r : List Char} (h : e.Takes p r) :
    ∀ c ∈ p, ∃ cs ∈ e.sets, cs.has c = true := by
  induction e generalizing p r with
  | empty | anchor | behind =>
      obtain rfl := h
      simp
  | ahead wanted body =>
      obtain rfl : p = [] := by
        cases wanted with
        | false => exact h
        | true => exact h.1
      simp
  | set cs =>
      obtain ⟨c, rfl, hc⟩ := h
      simpa [sets] using hc
  | span cs least most lazy => simpa [sets] using h.1
  | seq a b iha ihb =>
      obtain ⟨q, q', rfl, ha, hb⟩ := h
      intro c hc
      rcases List.mem_append.mp hc with hc | hc
      · obtain ⟨cs, hcs, hhas⟩ := iha ha c hc
        exact ⟨cs, List.mem_append_left _ hcs, hhas⟩
      · obtain ⟨cs, hcs, hhas⟩ := ihb hb c hc
        exact ⟨cs, List.mem_append_right _ hcs, hhas⟩
  | alt a b iha ihb | ifCaptured _ a b iha ihb =>
      intro c hc
      rcases h with ha | hb
      · obtain ⟨cs, hcs, hhas⟩ := iha ha c hc
        exact ⟨cs, List.mem_append_left _ hcs, hhas⟩
      · obtain ⟨cs, hcs, hhas⟩ := ihb hb c hc
        exact ⟨cs, List.mem_append_right _ hcs, hhas⟩
  | rep body least most lazy ih =>
      obtain ⟨n, -, hrepeats⟩ := h
      intro c hc
      induction hrepeats with
      | zero => cases hc
      | succ hbody _ ihn =>
          rcases List.mem_append.mp hc with hc | hc
          · exact ih hbody c hc
          · exact ihn hc
  | capture _ body ih | atomic body ih => exact ih h
  | again => exact fun c _ => ⟨_, List.mem_singleton_self _, rfl⟩

theorem Takes.mayBeEmpty {e : Expr} {r : List Char} (h : e.Takes [] r) : e.mayBeEmpty = true := by
  induction e generalizing r with
  | empty | anchor | behind | ahead | again => rfl
  | set cs =>
      obtain ⟨c, hc, -⟩ := h
      cases hc
  | span cs least most lazy => exact decide_eq_true (Nat.le_zero.mp h.2.1)
  | seq a b iha ihb =>
      obtain ⟨q, q', hq, ha, hb⟩ := h
      obtain ⟨rfl, rfl⟩ := List.append_eq_nil_iff.mp hq.symm
      exact Bool.and_eq_true_iff.mpr ⟨iha ha, ihb hb⟩
  | alt a b iha ihb | ifCaptured _ a b iha ihb =>
      exact Bool.or_eq_true_iff.mpr (h.imp iha ihb)
  | rep body least most lazy ih =>
      obtain ⟨n, hn, hrepeats⟩ := h
      generalize hp : ([] : List Char) = p at hrepeats
      cases hrepeats with
      | zero => exact Bool.or_eq_true_iff.mpr (Or.inl (decide_eq_true (Nat.le_zero.mp hn)))
      | succ hbody _ =>
          obtain ⟨rfl, rfl⟩ := List.append_eq_nil_iff.mp hp.symm
          exact Bool.or_eq_true_iff.mpr (Or.inr (ih hbody))
  | capture _ body ih | atomic body ih => exact ih h

theorem Takes.first {e : Expr} {p r : List Char} (h : e.Takes p r) :
    ∀ c ∈ p.head?, ∃ cs ∈ e.firstSets, cs.has c = true := by
  induction e generalizing p r with
  | empty | anchor | behind =>
      obtain rfl := h
      simp
  | ahead wanted body =>
      obtain rfl : p = [] := by
        cases wanted with
        | false => exact h
        | true => exact h.1
      simp
  | set cs =>
      obtain ⟨c, rfl, hc⟩ := h
      simpa [firstSets] using hc
  | span cs least most lazy =>
      intro c hc
      exact ⟨cs, List.mem_singleton_self _, h.1 c (List.mem_of_mem_head? hc)⟩
  | seq a b iha ihb =>
      obtain ⟨q, q', rfl, ha, hb⟩ := h
      intro c hc
      cases q with
      | nil =>
          obtain ⟨cs, hcs, hhas⟩ := ihb hb c hc
          refine ⟨cs, List.mem_append_right _ ?_, hhas⟩
          rwa [if_pos ha.mayBeEmpty]
      | cons d q =>
          obtain ⟨cs, hcs, hhas⟩ := iha ha c hc
          exact ⟨cs, List.mem_append_left _ hcs, hhas⟩
  | alt a b iha ihb | ifCaptured _ a b iha ihb =>
      intro c hc
      rcases h with ha | hb
      · obtain ⟨cs, hcs, hhas⟩ := iha ha c hc
        exact ⟨cs, List.mem_append_left _ hcs, hhas⟩
      · obtain ⟨cs, hcs, hhas⟩ := ihb hb c hc
        exact ⟨cs, List.mem_append_right _ hcs, hhas⟩
  | rep body least most lazy ih =>
      obtain ⟨n, -, hrepeats⟩ := h
      intro c hc
      induction hrepeats with
      | zero => cases hc
      | @succ n p q r hbody _ ihn =>
          cases p with
          | nil => exact ihn hc
          | cons d p => exact ih hbody c hc
  | capture _ body ih | atomic body ih => exact ih h
  | again => exact fun c _ => ⟨_, List.mem_singleton_self _, rfl⟩

/-! ## The text behind a match -/

/-- A text that may stand behind a match: a greedy run at the end leaves no character of its set over. -/
def Ends : Expr → List Char → Prop
  | seq _ b, r => Ends b r
  | capture _ body, r => Ends body r
  | span cs _ none false, r => ∀ c ∈ r.head?, cs.has c = false
  | _, _ => True

theorem run_ends (e : Expr) {s t : Cursor} {k : Continuation}
    (hk : ∀ u, ∃ u', k u = some u' ∧ u'.after = u.after) (h : e.run s k = some t) : e.Ends t.after := by
  induction e generalizing s k with
  | seq a b _ ihb =>
      unfold run at h
      obtain ⟨u, -, hrest⟩ := run_onward a _ _ _ h
      exact ihb hk hrest
  | capture index body ih =>
      unfold run at h
      exact ih (fun u => hk { u with captures := (index, u.since s) :: u.captures }) h
  | span cs least most lazy =>
      cases most with
      | some n => trivial
      | none =>
          cases lazy with
          | true => trivial
          | false =>
              unfold run at h
              dsimp only at h
              rw [if_neg Bool.false_ne_true] at h
              -- The continuation takes whatever it gets, so it gets the farthest cursor.
              cases hall : reached cs s.after none s [] with
              | nil => rw [hall] at h; cases h
              | cons u rest =>
                  rw [hall, List.takeWhile_cons] at h
                  split at h
                  · obtain ⟨u', hu', hafter⟩ := hk u
                    rw [List.findSome?_cons, hu'] at h
                    obtain rfl := Option.some.inj h
                    rw [hafter]
                    exact (head?_reached s.after rfl (by rw [hall]; rfl)).2
                  · cases h
  | _ => trivial

theorem matchAt_ends {e : Expr} {s t : Cursor} (h : e.matchAt s = some t) : e.Ends t.after :=
  run_ends e (fun u => ⟨u, rfl, rfl⟩) h

end Expr

end GrammarBench.Pattern
