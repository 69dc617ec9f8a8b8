import GrammarBench.Pattern.Reader
import GrammarBench.Proofs.RuleChain
import GrammarBench.Proofs.RuleNames

/-!
# The search for rules

The rules of a grammar text are those that one search along the whole text finds, for the expression of a
definition. A match of it starts at the start of a line and stays inside the line, and what is found there is
what the line is read as by itself: so the rules of a text are found line by line.

* `Pattern.Expr.search`: the matches of an expression in a text, each behind the one before.
* `Pattern.Expr.run_greedy`: a greedy run goes as far as it can if nothing of its set may stand behind it.
* `matchAt_definition`: what the expression of a definition finds at the start of a line.
* `searchedNames_eq`: what the search finds in a text.
* `ruleNames_linewise`: the rules of a text by search, those of two texts, and those of the lines.
-/

namespace GrammarBench.Pattern

/-! ## Searches -/

namespace Expr

/-- The match of an expression at a cursor, with captures of its own, if it takes anything. -/
def found? (e : Expr) (s : Cursor) : Option Cursor :=
  (e.matchAt { s with captures := [] }).filter fun t => decide (t.after.length < s.after.length)

theorem length_found? {e : Expr} {s t : Cursor} (h : e.found? s = some t) : t.after.length < s.after.length :=
  of_decide_eq_true (Option.filter_eq_some_iff.mp h).2

/-- The matches of an expression from a cursor on, each behind the one before. -/
def search (e : Expr) (s : Cursor) : List Cursor :=
  match _hfound : e.found? s, _hafter : s.after with
  | some t, _ => t :: search e t
  | none, [] => []
  | none, c :: rest => search e (s.advance c rest)
termination_by s.after.length
decreasing_by
  · exact length_found? _hfound
  · simp [_hafter, Cursor.advance]

variable {e : Expr} {s t : Cursor}

theorem search_some (h : e.found? s = some t) : e.search s = t :: e.search t := by
  rw [search]
  split <;> grind

theorem search_nil (h : e.found? s = none) (hafter : s.after = []) : e.search s = [] := by
  rw [search]
  split <;> grind

theorem search_cons (h : e.found? s = none) {c : Char} {rest : List Char} (hafter : s.after = c :: rest) :
    e.search s = e.search (s.advance c rest) := by
  rw [search]
  split <;> grind

end Expr

/-! ## Greedy runs -/

/-- The cursor behind a text that comes next. -/
def Cursor.forth (s : Cursor) (p rest : List Char) : Cursor :=
  { s with before := p.reverse ++ s.before, after := rest, passed := s.passed + p.length }

theorem Cursor.forth_nil (s : Cursor) : s.forth [] s.after = s := rfl

theorem Cursor.forth_forth (s : Cursor) (p q r r' : List Char) : (s.forth p r).forth q r' = s.forth (p ++ q) r' := by
  simp [forth, Nat.add_assoc]

theorem Cursor.advance_forth (s : Cursor) (c : Char) (p r r' : List Char) :
    (s.advance c r).forth p r' = s.forth (c :: p) r' := by
  simp [forth, advance, Nat.add_assoc, Nat.add_comm 1]

theorem Cursor.since_forth (s : Cursor) (p r : List Char) : (s.forth p r).since s = p := by
  simp [since, forth]

/-- The cursor reached last stands behind all characters of the set that come next; at the others one of them
comes next. -/
theorem reached_eq (a : CharSet) (l : List Char) {s : Cursor} (hafter : s.after = l) (found : List Cursor) :
    ∃ others, reached a l none s found = s.forth (l.takeWhile a.has) (l.dropWhile a.has) :: (others ++ found) ∧
      ∀ u ∈ others, ∃ c ∈ u.after.head?, a.has c = true := by
  induction l generalizing s found with
  | nil =>
      refine ⟨[], ?_, by simp⟩
      have hhere : s.forth [] [] = s := hafter ▸ s.forth_nil
      rw [List.takeWhile_nil, List.dropWhile_nil, hhere]
      rfl
  | cons c rest ih =>
      unfold reached
      by_cases hc : a.has c = true
      · obtain ⟨others, heq, hothers⟩ := @ih (s.advance c rest) rfl (s :: found)
        refine ⟨others ++ [s], ?_, ?_⟩
        · rw [if_neg (by simp [hc]), List.takeWhile_cons_of_pos hc, List.dropWhile_cons_of_pos hc,
            ← Cursor.advance_forth s c _ rest, List.append_assoc]
          exact heq
        · intro u hu
          rcases List.mem_append.mp hu with hu | hu
          · exact hothers u hu
          · rw [List.mem_singleton.mp hu, hafter]
            exact ⟨c, rfl, hc⟩
      · refine ⟨[], ?_, by simp⟩
        rw [if_pos (by simp [hc]), List.takeWhile_cons_of_neg hc, List.dropWhile_cons_of_neg hc, ← hafter,
          Cursor.forth_nil]
        rfl

namespace Expr

variable {a : CharSet} {s : Cursor} {k : Continuation}

/-- A greedy run goes as far as it can, if what follows cannot start with a character of the set. -/
theorem run_greedy (least : Nat) (hk : ∀ t : Cursor, (∃ c ∈ t.after.head?, a.has c = true) → k t = none) :
    (span a least none false).run s k =
      if least ≤ (s.after.takeWhile a.has).length then
        k (s.forth (s.after.takeWhile a.has) (s.after.dropWhile a.has))
      else none := by
  obtain ⟨others, heq, hothers⟩ := reached_eq a s.after rfl []
  have hrun : (span a least none false).run s k = ((s.forth (s.after.takeWhile a.has) (s.after.dropWhile a.has) ::
      others).takeWhile fun t => decide (s.passed + least ≤ t.passed)).findSome? k := by
    rw [← List.append_nil others, ← heq]
    rfl
  rw [hrun, List.takeWhile_cons]
  by_cases hleast : least ≤ (s.after.takeWhile a.has).length
  · have hfar : s.passed + least ≤ (s.forth (s.after.takeWhile a.has) (s.after.dropWhile a.has)).passed :=
      Nat.add_le_add_left hleast _
    have hnone : (others.takeWhile fun t => decide (s.passed + least ≤ t.passed)).findSome? k = none := by
      rw [List.findSome?_eq_none_iff]
      intro u hu
      exact hk u (hothers u ((List.takeWhile_sublist _).mem hu))
    rw [if_pos hleast, if_pos (decide_eq_true hfar), List.findSome?_cons, hnone]
    cases k (s.forth (s.after.takeWhile a.has) (s.after.dropWhile a.has)) <;> rfl
  · have hnear : ¬ s.passed + least ≤ (s.forth (s.after.takeWhile a.has) (s.after.dropWhile a.has)).passed :=
      fun hle => hleast (Nat.le_of_add_le_add_left hle)
    rw [if_neg hleast, if_neg (by simpa using hnear)]
    rfl

/-- One character at most is taken if it comes next and what follows cannot start with it. -/
theorem run_optional_of_has {c : Char} {rest : List Char} (hafter : s.after = c :: rest) (hc : a.has c = true)
    (hk : k s = none) : (span a 0 (some 1) false).run s k = k (s.advance c rest) := by
  have hreached : reached a s.after (some 1) s [] = [s.advance c rest, s] := by
    rw [hafter]
    unfold reached
    rw [if_neg (by simp [hc])]
    cases rest <;> rfl
  have hrun : (span a 0 (some 1) false).run s k = [s.advance c rest, s].findSome? k := by
    show ((reached a s.after (some 1) s []).takeWhile _).findSome? k = _
    rw [hreached]
    simp [Cursor.advance]
  rw [hrun, List.findSome?_cons, List.findSome?_cons, hk]
  cases k (s.advance c rest) <;> rfl

theorem run_optional_of_not (h : ∀ c ∈ s.after.head?, a.has c = false) :
    (span a 0 (some 1) false).run s k = k s := by
  have hreached : reached a s.after (some 1) s [] = [s] := by
    cases hafter : s.after with
    | nil => rfl
    | cons c rest =>
        unfold reached
        rw [if_pos (by simp [h c (by simp [hafter])])]
  show ((reached a s.after (some 1) s []).takeWhile _).findSome? k = _
  rw [hreached]
  simp

/-- A repetition that may take place once is tried, and else left out. -/
theorem run_maybe (body : Expr) : (rep body 0 (some 1) false).run s k = orElse (body.run s k) fun _ => k s := by
  show repeatBody body.run false k (0 + s.after.length + 2) 0 (some 1) none s = _
  have hlast (t : Cursor) : repeatBody body.run false k (s.after.length + 1) 0 (some 0) (some s.passed) t = k t := by
    unfold repeatBody
    exact if_pos (by simp)
  rw [Nat.zero_add, repeatBody, if_neg (by simp)]
  simp [hlast]

end Expr

end GrammarBench.Pattern

namespace GrammarBench.Grammar

open Pattern Pattern.Expr

/-! ## The expression of a definition -/

/-- The written form of the expression that definitions are searched with; every line has a start. -/
def definitionPattern : String := "^[ \\t]*[?!]?([a-z][a-z0-9_]*)(?:\\.-?\\d+)?[ \\t]*:"

/-- The set of one character. -/
def lone (c : Char) : CharSet := { items := [.range c.toNat c.toNat] }

def gapSet : CharSet := { items := [.range 32 32, .range 9 9] }

def markSet : CharSet := { items := [.range 63 63, .range 33 33] }

def smallSet : CharSet := { items := [.range 97 122] }

def nameSet : CharSet := { items := [.range 97 122, .range 48 57, .range 95 95] }

def digitSet : CharSet := { items := [.category .digit false false] }

/-- Blanks and tabs, and the colon. -/
def colonExpr : Expr := .seq (.span gapSet 0 none false) (.set (lone ':'))

/-- A dot, a minus sign at most, and digits. -/
def priorityExpr : Expr :=
  .seq (.set (lone '.')) (.seq (.span (lone '-') 0 (some 1) false) (.span digitSet 1 none false))

/-- A small letter, then small letters, digits and underscores. -/
def nameExpr : Expr := .seq (.set smallSet) (.span nameSet 0 none false)

/-- The expression of a definition: the name is what it captures. -/
def definitionExpr : Expr :=
  .seq (.anchor .lineStart) (.seq (.span gapSet 0 none false) (.seq (.span markSet 0 (some 1) false)
    (.seq (.capture 1 nameExpr) (.seq (.rep priorityExpr 0 (some 1) false) colonExpr))))

theorem read_definitionPattern :
    Pattern.read { everyLine := true } definitionPattern.toList = .ok definitionExpr := by
  decide +kernel

theorem has_lone {c d : Char} : (lone c).has d = decide (d = c) := by
  have hrange : d = c ↔ c.toNat ≤ d.toNat ∧ d.toNat ≤ c.toNat := by
    rw [← Char.toNat_inj]
    omega
  rw [Bool.eq_iff_iff, decide_eq_true_iff, hrange]
  simp [lone, CharSet.has, SetItem.has]

theorem has_pair {c d x : Char} : CharSet.has { items := [.range c.toNat c.toNat, .range d.toNat d.toNat] } x =
    (decide (x = c) || decide (x = d)) := by
  rw [← has_lone, ← has_lone]
  simp [lone, CharSet.has]

theorem has_gapSet : gapSet.has = isGap := funext fun c => @has_pair ' ' '\t' c

theorem has_markSet (c : Char) : markSet.has c = (decide (c = '?') || decide (c = '!')) := @has_pair '?' '!' c

theorem has_smallSet (c : Char) : smallSet.has c = isSmall c := by
  simp [smallSet, CharSet.has, SetItem.has, isSmall, Char.le_def, UInt32.le_iff_toNat_le]

theorem has_nameSet : nameSet.has = isNameChar := by
  funext c
  have hunderscore : decide (c = '_') = (lone '_').has c := has_lone.symm
  unfold isNameChar
  rw [hunderscore, ← has_smallSet]
  simp [lone, nameSet, smallSet, CharSet.has, SetItem.has, Bool.or_assoc]
  rfl

theorem has_digitSet : digitSet.has = Text.isDigit := by
  funext c
  simp [digitSet, CharSet.has, SetItem.has, Category.has]

/-! ## One match -/

section Matching

variable {s : Cursor} {k : Continuation}

theorem run_set_of_not {a : CharSet} (h : ∀ c ∈ s.after.head?, a.has c = false) : (set a).run s k = none := by
  unfold run
  cases hafter : s.after with
  | nil => rfl
  | cons c rest => simp [h c (by simp [hafter])]

theorem run_set_of_has {a : CharSet} {c : Char} {rest : List Char} (hafter : s.after = c :: rest)
    (hc : a.has c = true) : (set a).run s k = k (s.advance c rest) := by
  unfold run
  simp [hafter, hc]

/-- Blanks and tabs are passed; the colon is all that can stand behind them. -/
theorem run_colonExpr : colonExpr.run s k =
    (set (lone ':')).run (s.forth (s.after.takeWhile isGap) (s.after.dropWhile isGap)) k := by
  have hgreedy := run_greedy (a := gapSet) (s := s) (k := fun t => (set (lone ':')).run t k) 0 fun t hgap => by
    obtain ⟨c, hc, hgap⟩ := hgap
    refine run_set_of_not fun d hd => ?_
    obtain rfl := Option.some.inj (hc.symm.trans hd)
    rw [has_lone]
    rw [has_gapSet] at hgap
    refine decide_eq_false ?_
    rintro rfl
    cases hgap
  rw [has_gapSet, if_pos (Nat.zero_le _)] at hgreedy
  exact hgreedy

theorem run_colonExpr_of_colon {body : List Char} (h : s.after.dropWhile isGap = ':' :: body) :
    colonExpr.run s k = k (s.forth (s.after.takeWhile isGap ++ [':']) body) := by
  rw [run_colonExpr, run_set_of_has h (by decide), ← Cursor.forth_forth s _ [':'] (s.after.dropWhile isGap)]
  rfl

theorem run_colonExpr_of_not (h : (s.after.dropWhile isGap).head? ≠ some ':') : colonExpr.run s k = none := by
  rw [run_colonExpr]
  refine run_set_of_not fun c hc => ?_
  rw [has_lone]
  refine decide_eq_false ?_
  rintro rfl
  exact h hc

/-- What stands in front of the colon cannot be anything but a blank or a tab. -/
theorem run_colonExpr_of_head {c : Char} (hc : c ∈ s.after.head?) (hgap : isGap c = false) (hcolon : c ≠ ':') :
    colonExpr.run s k = none := by
  refine run_colonExpr_of_not ?_
  obtain ⟨rest, hafter⟩ := List.head?_eq_some_iff.mp hc
  rw [hafter, List.dropWhile_cons_of_neg (by simp [hgap])]
  exact fun h => hcolon (Option.some.inj h)

theorem run_digits (hk : ∀ t : Cursor, (∃ c ∈ t.after.head?, Text.isDigit c = true) → k t = none) :
    (span digitSet 1 none false).run s k =
      if s.after.head?.any Text.isDigit then
        k (s.forth (s.after.takeWhile Text.isDigit) (s.after.dropWhile Text.isDigit))
      else none := by
  have hgreedy := run_greedy (a := digitSet) (s := s) (k := k) 1 (by rwa [has_digitSet])
  rw [has_digitSet] at hgreedy
  rw [hgreedy]
  have hone : 1 ≤ (s.after.takeWhile Text.isDigit).length ↔ s.after.head?.any Text.isDigit = true := by
    cases s.after with
    | nil => simp
    | cons c rest => by_cases hc : Text.isDigit c = true <;> simp [hc]
  simp only [hone]

/-- The sign of a priority is passed, and then the digits have to come. -/
theorem run_unsigned (s : Cursor) (k : Continuation)
    (hk : ∀ t : Cursor, (∃ c ∈ t.after.head?, Text.isDigit c = true) → k t = none) :
    ∃ sign, '\n' ∉ sign ∧ s.after = sign ++ unsigned s.after ∧
      (seq (span (lone '-') 0 (some 1) false) (span digitSet 1 none false)).run s k =
        (span digitSet 1 none false).run (s.forth sign (unsigned s.after)) k := by
  by_cases hminus : s.after.head? = some '-'
  · obtain ⟨rest, hafter⟩ := List.head?_eq_some_iff.mp hminus
    refine ⟨['-'], by decide, by rw [hafter]; rfl, ?_⟩
    -- The digits cannot start with the sign.
    have hstop : (span digitSet 1 none false).run s k = none := by
      rw [run_digits hk, hafter]
      rfl
    have hrun := run_optional_of_has (a := lone '-') (k := fun t => (span digitSet 1 none false).run t k) hafter
      (by decide) hstop
    rw [hafter]
    exact hrun
  · have hsign : unsigned s.after = s.after := by
      cases hafter : s.after with
      | nil => rfl
      | cons c rest =>
          refine unsigned_of_ne ?_ rest
          rintro rfl
          exact hminus (by rw [hafter]; rfl)
    refine ⟨[], by simp, by rw [hsign]; rfl, ?_⟩
    rw [hsign, Cursor.forth_nil]
    refine run_optional_of_not (k := fun t => (span digitSet 1 none false).run t k) fun c hc => ?_
    rw [has_lone]
    refine decide_eq_false ?_
    rintro rfl
    exact hminus hc

theorem not_mem_takeWhile {p : Char → Bool} {c : Char} (h : p c = false) (s : List Char) : c ∉ s.takeWhile p := by
  intro hmem
  have hc := List.all_eq_true.mp List.all_takeWhile c hmem
  rw [h] at hc
  cases hc

/-- Behind a dot the sign and the digits are passed, if there are any digits. -/
theorem run_priorityExpr (hk : ∀ t : Cursor, (∃ c ∈ t.after.head?, Text.isDigit c = true) → k t = none)
    {rest : List Char} (hafter : s.after = '.' :: rest) :
    ∃ sign, '\n' ∉ sign ∧ rest = sign ++ unsigned rest ∧ priorityExpr.run s k =
      if (unsigned rest).head?.any Text.isDigit then
        k (s.forth ('.' :: (sign ++ (unsigned rest).takeWhile Text.isDigit)) ((unsigned rest).dropWhile Text.isDigit))
      else none := by
  obtain ⟨sign, hline, hsign, hrun⟩ := run_unsigned (s.advance '.' rest) k hk
  refine ⟨sign, hline, hsign, ?_⟩
  rw [run_digits hk] at hrun
  simp only [Cursor.advance_forth, Cursor.forth_forth, List.cons_append] at hrun
  exact (run_set_of_has (a := lone '.') (k := fun t => (seq _ _).run t k) hafter (by decide)).trans hrun

theorem orElse_none (x : Option Cursor) : (orElse x fun _ => none) = x := by
  cases x <;> rfl

theorem run_colonExpr_of_digit {k : Continuation} (t : Cursor) (h : ∃ c ∈ t.after.head?, Text.isDigit c = true) :
    colonExpr.run t k = none := by
  obtain ⟨c, hc, hdigit⟩ := h
  refine run_colonExpr_of_head hc ?_ ?_
  · rw [Bool.eq_false_iff]
    intro hgap
    rcases Bool.or_eq_true_iff.mp hgap with h | h <;> rw [of_decide_eq_true h] at hdigit <;> cases hdigit
  · rintro rfl
    cases hdigit

/-- There is no priority without a dot. -/
theorem afterPriority_of_head? {r : List Char} (h : r.head? ≠ some '.') : afterPriority r = r := by
  cases r with
  | nil => rfl
  | cons c rest =>
      refine afterPriority_of_ne ?_ rest
      rintro rfl
      exact h rfl

/-- A priority is passed as it stands in a line. -/
theorem run_priority (s : Cursor) (k : Continuation) :
    ∃ p, '\n' ∉ p ∧ s.after = p ++ afterPriority s.after ∧
      ((rep priorityExpr 0 (some 1) false).run s fun t => colonExpr.run t k) =
        colonExpr.run (s.forth p (afterPriority s.after)) k := by
  -- Without a priority the repetition is left out.
  have hnone (hp : (priorityExpr.run s fun t => colonExpr.run t k) = none) (hsame : afterPriority s.after = s.after) :
      ∃ p, '\n' ∉ p ∧ s.after = p ++ afterPriority s.after ∧
        ((rep priorityExpr 0 (some 1) false).run s fun t => colonExpr.run t k) =
          colonExpr.run (s.forth p (afterPriority s.after)) k := by
    refine ⟨[], by simp, by rw [hsame]; rfl, ?_⟩
    rw [run_maybe, hp, hsame, Cursor.forth_nil]
    rfl
  by_cases hdot : s.after.head? = some '.'
  · obtain ⟨rest, hafter⟩ := List.head?_eq_some_iff.mp hdot
    obtain ⟨sign, hline, hsign, hrun⟩ := run_priorityExpr run_colonExpr_of_digit hafter
    have hpriority : afterPriority s.after = _ := (congrArg afterPriority hafter).trans (afterPriority_dot rest)
    by_cases hdigits : (unsigned rest).head?.any Text.isDigit = true
    · rw [if_pos hdigits] at hpriority hrun
      refine ⟨'.' :: (sign ++ (unsigned rest).takeWhile Text.isDigit), ?_, ?_, ?_⟩
      · simp [hline, not_mem_takeWhile (p := Text.isDigit) (c := '\n') (by decide)]
      · rw [hpriority, List.cons_append, List.append_assoc, List.takeWhile_append_dropWhile, ← hsign, hafter]
      · have hstop : colonExpr.run s k = none := run_colonExpr_of_head hdot (by decide) (by decide)
        rw [run_maybe, hrun, hpriority, hstop, orElse_none]
    · rw [if_neg hdigits] at hpriority hrun
      refine hnone hrun ?_
      rw [hpriority, hafter]
  · refine hnone ?_ (afterPriority_of_head? hdot)
    refine run_set_of_not (k := fun t => (seq _ _).run t fun t => colonExpr.run t k) fun c hc => ?_
    rw [has_lone]
    refine decide_eq_false ?_
    rintro rfl
    exact hdot hc

/-- The name is captured, as long as it goes. -/
theorem run_name (hk : ∀ t : Cursor, (∃ c ∈ t.after.head?, isNameChar c = true) → k t = none) :
    (capture 1 nameExpr).run s k =
      if (s.after.takeWhile isNameChar).head?.any isSmall then
        k { s.forth (s.after.takeWhile isNameChar) (s.after.dropWhile isNameChar) with
          captures := (1, s.after.takeWhile isNameChar) :: s.captures }
      else none := by
  cases hafter : s.after with
  | nil =>
      refine run_set_of_not (k := fun t => (span nameSet 0 none false).run t _) fun c hc => ?_
      rw [hafter] at hc
      cases hc
  | cons c rest =>
      by_cases hc : isSmall c = true
      · have hname : isNameChar c = true := by
          unfold isNameChar
          rw [hc]
          rfl
        have hgreedy := run_greedy (a := nameSet) (s := s.advance c rest)
          (k := fun t => k { t with captures := (1, t.since s) :: t.captures }) 0 fun t ht => by
            rw [has_nameSet] at ht
            exact hk _ ht
        rw [has_nameSet, if_pos (Nat.zero_le _), Cursor.advance_forth, Cursor.since_forth] at hgreedy
        rw [List.takeWhile_cons_of_pos hname, List.dropWhile_cons_of_pos hname]
        have hrun := run_set_of_has (k := fun t => (span nameSet 0 none false).run t fun t =>
          k { t with captures := (1, t.since s) :: t.captures }) hafter ((has_smallSet c).trans hc)
        exact hrun.trans (hgreedy.trans (if_pos hc).symm)
      · have hstop : (capture 1 nameExpr).run s k = none := by
          refine run_set_of_not (k := fun t => (span nameSet 0 none false).run t _) fun d hd => ?_
          rw [hafter] at hd
          obtain rfl := Option.some.inj hd
          rw [has_smallSet]
          exact Bool.eq_false_iff.mpr hc
        rw [hstop, if_neg]
        by_cases hname : isNameChar c = true
        · rw [List.takeWhile_cons_of_pos hname]
          exact hc
        · rw [List.takeWhile_cons_of_neg hname]
          exact Bool.false_ne_true

/-- The modifier of a line is passed. -/
theorem run_mark (hk : ∀ t : Cursor, (∃ c ∈ t.after.head?, c = '?' ∨ c = '!') → k t = none) :
    ∃ m, '\n' ∉ m ∧ s.after = m ++ afterModifier s.after ∧
      (span markSet 0 (some 1) false).run s k = k (s.forth m (afterModifier s.after)) := by
  by_cases hmark : ∃ c ∈ s.after.head?, c = '?' ∨ c = '!'
  · obtain ⟨c, hc, hmark⟩ := hmark
    obtain ⟨rest, hafter⟩ := List.head?_eq_some_iff.mp hc
    have hrest : afterModifier s.after = rest := by
      rw [hafter]
      rcases hmark with rfl | rfl <;> rfl
    refine ⟨[c], ?_, by rw [hrest, hafter]; rfl, ?_⟩
    · rcases hmark with rfl | rfl <;> decide
    · rw [hrest]
      refine run_optional_of_has hafter ?_ (hk s ⟨c, hc, hmark⟩)
      rw [has_markSet]
      rcases hmark with rfl | rfl <;> rfl
  · have hsame : afterModifier s.after = s.after := by
      cases hafter : s.after with
      | nil => rfl
      | cons c rest =>
          rw [hafter] at hmark
          exact afterModifier_of_ne (fun h => hmark ⟨c, rfl, Or.inl h⟩) (fun h => hmark ⟨c, rfl, Or.inr h⟩) rest
    refine ⟨[], by simp, by rw [hsame]; rfl, ?_⟩
    rw [hsame, Cursor.forth_nil]
    refine run_optional_of_not fun c hc => ?_
    rw [has_markSet, Bool.or_eq_false_iff]
    exact ⟨decide_eq_false fun h => hmark ⟨c, hc, Or.inl h⟩, decide_eq_false fun h => hmark ⟨c, hc, Or.inr h⟩⟩

/-- What stands behind the name: a priority, blanks and tabs, and the colon. -/
def behindName (t : Cursor) : Option Cursor := (rep priorityExpr 0 (some 1) false).run t fun t => colonExpr.run t some

/-- Behind the name no further character of a name can stand. -/
theorem behindName_of_head {t : Cursor} (h : ∃ c ∈ t.after.head?, isNameChar c = true) : behindName t = none := by
  obtain ⟨c, hc, hname⟩ := h
  obtain ⟨hgap, -, -⟩ := not_gap_of_nameChar hname
  obtain ⟨rest, hafter⟩ := List.head?_eq_some_iff.mp hc
  have hne (d : Char) (hd : isNameChar d = false) : c ≠ d := by
    rintro rfl
    rw [hd] at hname
    cases hname
  obtain ⟨p, -, -, hrun⟩ := run_priority t some
  unfold behindName
  rw [hrun, hafter, afterPriority_of_ne (hne '.' (by decide))]
  exact run_colonExpr_of_head (c := c) rfl hgap (hne ':' (by decide))

theorem run_name_of_head {t : Cursor} {c : Char} (hc : c ∈ t.after.head?) (hname : isNameChar c = false) :
    (capture 1 nameExpr).run t behindName = none := by
  obtain ⟨rest, hafter⟩ := List.head?_eq_some_iff.mp hc
  rw [run_name fun t => behindName_of_head, hafter, List.takeWhile_cons_of_neg (by simp [hname])]
  rfl

/-- At the start of a line blanks, tabs and a modifier are passed in front of the name. -/
theorem matchAt_definitionExpr (hstart : Anchor.lineStart.holds s = true) :
    ∃ lead, '\n' ∉ lead ∧ s.after = lead ++ afterModifier (s.after.dropWhile isGap) ∧
      definitionExpr.matchAt s =
        (capture 1 nameExpr).run (s.forth lead (afterModifier (s.after.dropWhile isGap))) behindName := by
  have hmark : ∀ t : Cursor, (∃ c ∈ t.after.head?, c = '?' ∨ c = '!') →
      (capture 1 nameExpr).run t behindName = none := by
    rintro t ⟨c, hc, rfl | rfl⟩ <;> exact run_name_of_head hc (by decide)
  have hgap : ∀ t : Cursor, (∃ c ∈ t.after.head?, isGap c = true) →
      ((span markSet 0 (some 1) false).run t fun t => (capture 1 nameExpr).run t behindName) = none := by
    rintro t ⟨c, hc, hgap⟩
    obtain ⟨rest, hafter⟩ := List.head?_eq_some_iff.mp hc
    obtain ⟨m, -, -, hrun⟩ := run_mark hmark
    have hne (d : Char) (hd : isGap d = false) : c ≠ d := by
      rintro rfl
      rw [hd] at hgap
      cases hgap
    rw [hrun, hafter, afterModifier_of_ne (hne '?' (by decide)) (hne '!' (by decide))]
    refine run_name_of_head (c := c) rfl (Bool.eq_false_iff.mpr fun hname => ?_)
    rw [(not_gap_of_nameChar hname).1] at hgap
    cases hgap
  have hgreedy := run_greedy (a := gapSet) (s := s)
    (k := fun t => (span markSet 0 (some 1) false).run t fun t => (capture 1 nameExpr).run t behindName) 0
    (by rwa [has_gapSet])
  rw [has_gapSet, if_pos (Nat.zero_le _)] at hgreedy
  obtain ⟨m, hline, hm, hrun⟩ :=
    @run_mark (s.forth (s.after.takeWhile isGap) (s.after.dropWhile isGap)) _ hmark
  change s.after.dropWhile isGap = m ++ afterModifier (s.after.dropWhile isGap) at hm
  refine ⟨s.after.takeWhile isGap ++ m, ?_, ?_, ?_⟩
  · simp [hline, not_mem_takeWhile (p := isGap) (c := '\n') (by decide)]
  · rw [List.append_assoc, ← hm, List.takeWhile_append_dropWhile]
  · rw [← Cursor.forth_forth s _ m (s.after.dropWhile isGap)]
    exact (if_pos hstart).trans (hgreedy.trans hrun)

/-- The name is captured, and the priority behind it is passed. -/
theorem run_namePriority (t : Cursor) :
    ∃ p, '\n' ∉ p ∧ t.after = t.after.takeWhile isNameChar ++ (p ++ afterPriority (t.after.dropWhile isNameChar)) ∧
      (capture 1 nameExpr).run t behindName =
        if (t.after.takeWhile isNameChar).head?.any isSmall then
          colonExpr.run
            { t.forth (t.after.takeWhile isNameChar ++ p) (afterPriority (t.after.dropWhile isNameChar)) with
              captures := (1, t.after.takeWhile isNameChar) :: t.captures } some
        else none := by
  obtain ⟨p, hline, hp, hrun⟩ := run_priority { t.forth (t.after.takeWhile isNameChar)
    (t.after.dropWhile isNameChar) with captures := (1, t.after.takeWhile isNameChar) :: t.captures } some
  change t.after.dropWhile isNameChar = p ++ afterPriority (t.after.dropWhile isNameChar) at hp
  refine ⟨p, hline, by rw [← hp, List.takeWhile_append_dropWhile], ?_⟩
  rw [run_name fun t => behindName_of_head, ← Cursor.forth_forth t _ p (t.after.dropWhile isNameChar)]
  unfold behindName
  rw [hrun]
  rfl

/-- A match at the start of a line captures the name that the line is read as defining, and ends in the line. -/
theorem matchAt_of_ruleOfLine {n : List Char} (hstart : Anchor.lineStart.holds s = true)
    (h : ruleOfLine? s.after = some n) :
    ∃ p body t, '\n' ∉ p ∧ s.after = p ++ ':' :: body ∧ definitionExpr.matchAt s = some t ∧ t.after = body ∧
      t.before.head? = some ':' ∧ t.captured? 1 = some n := by
  obtain ⟨lead, hlead, hafter, hmatch⟩ := matchAt_definitionExpr hstart
  obtain ⟨hname, hsmall, hcolon⟩ := ruleOfLine?_eq_some.mp h
  generalize afterModifier (s.after.dropWhile isGap) = line at hafter hmatch hname hcolon
  obtain ⟨p, hp, hline, hrun⟩ := run_namePriority (s.forth lead line)
  change line = line.takeWhile isNameChar ++ (p ++ afterPriority (line.dropWhile isNameChar)) at hline
  change _ = if (line.takeWhile isNameChar).head?.any isSmall then _ else _ at hrun
  rw [← hname] at hline
  obtain ⟨body, hbody⟩ := List.head?_eq_some_iff.mp hcolon
  rw [hrun, ← hname, if_pos hsmall, run_colonExpr_of_colon hbody] at hmatch
  refine ⟨lead ++ (n ++ (p ++ (afterPriority (line.dropWhile isNameChar)).takeWhile isGap)), body, _, ?_, ?_,
    hmatch, rfl, ?_, congrArg some hname.symm⟩
  · rw [hname]
    simp [hlead, hp, not_mem_takeWhile (p := isGap) (c := '\n') (by decide),
      not_mem_takeWhile (p := isNameChar) (c := '\n') (by decide)]
  · rw [hafter, List.append_assoc, List.append_assoc, List.append_assoc, ← hbody, List.takeWhile_append_dropWhile,
      ← hline]
  · show (List.reverse _ ++ _).head? = _
    rw [List.reverse_append]
    rfl

/-- Where a line is not read as a definition there is no match at its start. -/
theorem matchAt_of_ruleOfLine_none (hstart : Anchor.lineStart.holds s = true) (h : ruleOfLine? s.after = none) :
    definitionExpr.matchAt s = none := by
  obtain ⟨lead, -, -, hmatch⟩ := matchAt_definitionExpr hstart
  obtain ⟨p, -, -, hrun⟩ := run_namePriority (s.forth lead (afterModifier (s.after.dropWhile isGap)))
  rw [hmatch, hrun]
  split
  · rename_i hsmall
    refine run_colonExpr_of_not fun hcolon => ?_
    have hsome := ruleOfLine?_eq_some.mpr ⟨rfl, hsmall, hcolon⟩
    rw [h] at hsome
    cases hsome
  · rfl

/-- There is no match but at the start of a line that is read as a definition. -/
theorem found?_eq_none (h : Anchor.lineStart.holds s = true → ruleOfLine? s.after = none) :
    definitionExpr.found? s = none := by
  have hmatch : definitionExpr.matchAt { s with captures := [] } = none := by
    by_cases hstart : Anchor.lineStart.holds s = true
    · exact matchAt_of_ruleOfLine_none (s := { s with captures := [] }) hstart (h hstart)
    · exact if_neg hstart
  unfold found?
  rw [hmatch]
  rfl

/-- There the match captures the name, and it ends in the line. -/
theorem exists_found? {n : List Char} (hstart : Anchor.lineStart.holds s = true) (h : ruleOfLine? s.after = some n) :
    ∃ p t, '\n' ∉ p ∧ s.after = p ++ t.after ∧ definitionExpr.found? s = some t ∧
      Anchor.lineStart.holds t = false ∧ t.captured? 1 = some n := by
  obtain ⟨p, body, t, hp, hafter, hmatch, rfl, hbefore, hcaptured⟩ :=
    matchAt_of_ruleOfLine (s := { s with captures := [] }) hstart h
  change s.after = p ++ ':' :: t.after at hafter
  refine ⟨p ++ [':'], t, by simpa using hp, by rw [hafter, List.append_assoc]; rfl, ?_, ?_, hcaptured⟩
  · unfold found?
    rw [hmatch, Option.filter_some, if_pos]
    rw [hafter, List.length_append, List.length_cons, decide_eq_true_iff]
    omega
  · obtain ⟨before, hbefore⟩ := List.head?_eq_some_iff.mp hbefore
    unfold Anchor.holds
    rw [hbefore]
    rfl

end Matching

/-! ## The whole search -/

/-- The names that the matches of a search capture. -/
def captured (found : List Cursor) : List (List Char) := found.filterMap fun t => t.captured? 1

theorem splitNewlines_eq (s : List Char) :
    Text.splitNewlines s = s.takeWhile (· ≠ '\n') :: (Text.splitNewlines s).tail := by
  have hfirst : (Text.splitNewlines ([] ++ s))[Text.newlines []]? = some (s.takeWhile (· ≠ '\n')) :=
    Text.splitNewlines_getElem? (Or.inl rfl) s
  obtain ⟨l, ls, hsplit⟩ := List.exists_cons_of_ne_nil (Text.splitNewlines_ne_nil s)
  rw [List.nil_append, hsplit] at hfirst
  rw [hsplit, ← Option.some.inj hfirst]
  rfl

/-- The lines behind the first one are those behind any part of it. -/
theorem tail_splitNewlines_append {p : List Char} (hp : '\n' ∉ p) (r : List Char) :
    (Text.splitNewlines (p ++ r)).tail = (Text.splitNewlines r).tail := by
  induction p with
  | nil => rfl
  | cons c p ih =>
      obtain ⟨hc, hp⟩ := not_or.mp (List.mem_cons.not.mp hp)
      obtain ⟨l, ls, hrest, hsplit⟩ := Text.splitNewlines_cons (Ne.symm hc) (p ++ r)
      rw [List.cons_append, hsplit, ← ih hp, hrest]
      rfl

theorem lineStart_advance (s : Cursor) (c : Char) (rest : List Char) :
    Anchor.lineStart.holds (s.advance c rest) = decide (c = '\n') := by
  show (false || decide (some c = some '\n')) = _
  simp

/-- What a search finds from the start of a line on, and from other places. -/
def linesAhead (s : Cursor) : List (List Char) :=
  if Anchor.lineStart.holds s then Text.splitNewlines s.after else (Text.splitNewlines s.after).tail

theorem filterMap_linesAhead_of_none {s : Cursor}
    (h : Anchor.lineStart.holds s = true → ruleOfLine? s.after = none) :
    (linesAhead s).filterMap ruleOfLine? = ((Text.splitNewlines s.after).tail).filterMap ruleOfLine? := by
  unfold linesAhead
  split
  · rename_i hstart
    rw [splitNewlines_eq, List.filterMap_cons_none (by rw [ruleOfLine?_takeWhile]; exact h hstart)]
    rfl
  · rfl

/-- From the start of a line on a search finds what the lines are read as, and from another place what the lines
behind its line are. -/
theorem captured_search (s : Cursor) :
    captured (definitionExpr.search s) = (linesAhead s).filterMap ruleOfLine? := by
  induction hlength : s.after.length using Nat.strongRecOn generalizing s with
  | ind n ih =>
      subst hlength
      -- Where nothing is found the search goes on one character further on.
      have hnone (hread : Anchor.lineStart.holds s = true → ruleOfLine? s.after = none) :
          captured (definitionExpr.search s) = (linesAhead s).filterMap ruleOfLine? := by
        rw [filterMap_linesAhead_of_none hread]
        cases hafter : s.after with
        | nil =>
            rw [search_nil (found?_eq_none hread) hafter]
            rfl
        | cons c rest =>
            rw [search_cons (found?_eq_none hread) hafter, ih rest.length (by simp [hafter]) (s.advance c rest) rfl]
            unfold linesAhead
            rw [lineStart_advance]
            by_cases hc : c = '\n'
            · rw [hc, Text.splitNewlines_newline]
              rfl
            · rw [if_neg (by simpa using hc)]
              exact congrArg _ (tail_splitNewlines_append (p := [c]) (by simpa using Ne.symm hc) rest).symm
      by_cases hstart : Anchor.lineStart.holds s = true
      · cases hread : ruleOfLine? s.after with
        | none => exact hnone fun _ => hread
        | some name =>
            obtain ⟨p, t, hp, hafter, hfound, hinside, hcaptured⟩ := exists_found? hstart hread
            have hrest := ih t.after.length (length_found? hfound) t rfl
            unfold linesAhead at hrest ⊢
            rw [hinside] at hrest
            rw [search_some hfound, if_pos hstart, splitNewlines_eq, hafter,
              List.filterMap_cons_some (by rw [ruleOfLine?_takeWhile, ← hafter, hread]),
              tail_splitNewlines_append hp]
            have hcons : captured (t :: definitionExpr.search t) = name :: captured (definitionExpr.search t) :=
              List.filterMap_cons_some hcaptured
            rw [hcons, hrest]
            rfl
      · exact hnone fun h => absurd h hstart

/-- The names that a search along a text finds, in the order of the matches. -/
def searchedNames (e : Expr) (text : String) : List String :=
  (captured (e.search (Cursor.ofText text.toList))).map String.ofList

theorem searchedNames_eq (text : String) : searchedNames definitionExpr text =
    ((Text.splitNewlines text.toList).filterMap ruleOfLine?).map String.ofList :=
  congrArg (List.map String.ofList) (captured_search (Cursor.ofText text.toList))

/-! ## Rules line by line -/

theorem addNew_eq_eraseDups {found : List String} (hfound : found.Nodup) (names : List String) :
    addNew found names = (found ++ names).eraseDups := by
  induction names generalizing found with
  | nil => rw [List.append_nil, eraseDups_of_nodup hfound, addNew]
  | cons a names ih =>
      rw [addNew]
      by_cases ha : a ∈ found
      · rw [if_pos ha, ih hfound, List.eraseDups_append, List.eraseDups_append]
        simp [List.removeAll, ha]
      · rw [if_neg ha, ih (List.nodup_append.mpr ⟨hfound, by simp, by grind⟩), List.append_assoc]
        rfl

/-- The rules of a text are the names that its lines are read as defining, each where it comes first. -/
theorem ruleNames_eq_eraseDups (text : String) :
    ruleNames text = (((Text.splitNewlines text.toList).filterMap ruleOfLine?).map String.ofList).eraseDups :=
  addNew_eq_eraseDups List.nodup_nil _

theorem splitNewlines_append (s t : List Char) :
    Text.splitNewlines (s ++ '\n' :: t) = Text.splitNewlines s ++ Text.splitNewlines t := by
  induction s with
  | nil => rfl
  | cons c s ih =>
      by_cases hc : c = '\n'
      · rw [hc, List.cons_append, Text.splitNewlines_newline, ih, Text.splitNewlines_newline]
        rfl
      · obtain ⟨l, ls, hrest, hsplit⟩ := Text.splitNewlines_cons hc (s ++ '\n' :: t)
        obtain ⟨l', ls', hrest', hsplit'⟩ := Text.splitNewlines_cons hc s
        rw [ih, hrest', List.cons_append] at hrest
        obtain ⟨rfl, rfl⟩ := List.cons.inj hrest
        rw [List.cons_append, hsplit, hsplit']
        rfl

/-- Leaving out repetitions and leaving out names of some kind can be done in either order. -/
theorem eraseDups_filter (names : List String) (p : String → Bool) :
    (names.filter p).eraseDups = names.eraseDups.filter p := by
  induction names using List.reverseRecOn with
  | nil => rfl
  | append_singleton names a ih =>
      rw [List.filter_append, eraseDups_concat]
      by_cases hp : p a = true
      · rw [List.filter_cons_of_pos hp, List.filter_nil, eraseDups_concat, ih]
        by_cases ha : a ∈ names
        · rw [if_pos ha, if_pos (List.mem_filter.mpr ⟨ha, hp⟩)]
        · rw [if_neg ha, if_neg fun hmem => ha (List.mem_of_mem_filter hmem), List.filter_append,
            List.filter_cons_of_pos hp, List.filter_nil]
      · rw [List.filter_cons_of_neg hp, List.filter_nil, List.append_nil, ih]
        split
        · rfl
        · rw [List.filter_append, List.filter_cons_of_neg hp, List.filter_nil, List.append_nil]

/-- Behind a newline a text adds its own rules, those that are not there yet. -/
theorem ruleNames_append (a b : String) :
    ruleNames (a ++ "\n" ++ b) = ruleNames a ++ (ruleNames b).filter fun n => decide (n ∉ ruleNames a) := by
  have htext : (a ++ "\n" ++ b).toList = a.toList ++ '\n' :: b.toList := by simp
  rw [ruleNames_eq_eraseDups, ruleNames_eq_eraseDups, ruleNames_eq_eraseDups, htext, splitNewlines_append,
    List.filterMap_append, List.map_append, List.eraseDups_append]
  generalize ((Text.splitNewlines a.toList).filterMap ruleOfLine?).map String.ofList = xs
  refine congrArg (xs.eraseDups ++ ·) ?_
  unfold List.removeAll
  rw [eraseDups_filter]
  refine List.filter_congr fun n _ => ?_
  simp [List.mem_eraseDups]

/-- **Rules are found line by line.** The rules of a text are those that one search along the whole text finds, for
the expression with the written form of a definition, each where it comes first. So they are the names of the lines
in the plain form of a definition, each where it comes first; and behind a newline a text adds its own rules, those
that are not there yet. -/
theorem ruleNames_linewise :
    (∃ e, Pattern.read { everyLine := true } definitionPattern.toList = .ok e ∧
      ∀ text, ruleNames text = (searchedNames e text).eraseDups) ∧
    (∀ a b, ruleNames (a ++ "\n" ++ b) = ruleNames a ++ (ruleNames b).filter fun n => decide (n ∉ ruleNames a)) ∧
    (∀ text, ruleNames text =
      (((Text.splitNewlines text.toList).filterMap ruleOfLine?).map String.ofList).eraseDups) ∧
    ∀ line n, ruleOfLine? line = some n ↔ PlainForm n line := by
  refine ⟨⟨definitionExpr, read_definitionPattern, fun text => ?_⟩, ruleNames_append, ruleNames_eq_eraseDups,
    fun line n => ruleOfLine?_eq_some_iff⟩
  rw [searchedNames_eq]
  exact ruleNames_eq_eraseDups text

end GrammarBench.Grammar
