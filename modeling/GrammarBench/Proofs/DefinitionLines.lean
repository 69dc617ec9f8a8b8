import Mathlib.Data.List.TakeWhile
import GrammarBench.Proofs.SourceLexemes

/-!
# Lines that define rules

A line of a grammar text is read as a definition by its first characters alone. Where such a line starts at
an end of a line that the grammar itself sees, it is the line of a rule that is defined in the open, under
the same name.

* `ruleOnLine?`: the rule that a line is read as defining.
* `Source.open_of_line`: what a line is whose start is the start of an item, or of the blanks and comments
  in front of it.
-/

namespace GrammarBench

namespace Text

/-! ## Starts of lines -/

/-- The text in front of a line. -/
def StartsLine (before : List Char) : Prop := before = [] ∨ ∃ s, before = s ++ ['\n']

theorem StartsLine.tail {c : Char} {s : List Char} (h : StartsLine (c :: s)) (hne : c = '\n' ∨ s ≠ []) :
    StartsLine s := by
  rcases h with h | ⟨t, h⟩
  · cases h
  · cases t with
    | nil =>
        obtain ⟨-, rfl⟩ := List.cons.inj h
        exact Or.inl rfl
    | cons d t =>
        obtain ⟨-, rfl⟩ := List.cons.inj h
        exact Or.inr ⟨t, rfl⟩

theorem splitNewlines_ne_nil (s : List Char) : splitNewlines s ≠ [] := by
  induction s with
  | nil => simp [splitNewlines]
  | cons c s ih =>
      unfold splitNewlines
      split
      · rename_i h; cases h
      · simp
      · split <;> simp

theorem splitNewlines_newline (s : List Char) : splitNewlines ('\n' :: s) = [] :: splitNewlines s := rfl

theorem splitNewlines_cons {c : Char} (hc : c ≠ '\n') (s : List Char) :
    ∃ l ls, splitNewlines s = l :: ls ∧ splitNewlines (c :: s) = (c :: l) :: ls := by
  cases h : splitNewlines s with
  | nil => exact absurd h (splitNewlines_ne_nil s)
  | cons l ls =>
      refine ⟨l, ls, rfl, ?_⟩
      rw [splitNewlines, h]
      exact hc

/-- The line behind a text in front of it. -/
theorem splitNewlines_getElem? {before : List Char} (h : StartsLine before) (s : List Char) :
    (splitNewlines (before ++ s))[newlines before]? = some (s.takeWhile (· ≠ '\n')) := by
  induction before with
  | nil =>
      show (splitNewlines s)[0]? = _
      induction s with
      | nil => rfl
      | cons c s ih =>
          by_cases hc : c = '\n'
          · subst hc
            rfl
          · obtain ⟨l, ls, hs, hcons⟩ := splitNewlines_cons hc s
            rw [hs] at ih
            rw [hcons, List.takeWhile_cons_of_pos (by simpa using hc)]
            exact congrArg _ (congrArg _ (Option.some.inj ih))
  | cons c before ih =>
      by_cases hc : c = '\n'
      · subst hc
        have hnewlines : newlines ('\n' :: before) = newlines before + 1 := List.count_cons_self
        rw [List.cons_append, splitNewlines_newline, hnewlines, List.getElem?_cons_succ]
        exact ih (h.tail (Or.inl rfl))
      · have hne : before ≠ [] := by
          rintro rfl
          rcases h with h | ⟨t, h⟩
          · cases h
          · cases t with
            | nil => exact hc (List.cons.inj h).1
            | cons d t => simp at h
        have hnewlines : newlines (c :: before) = newlines before := List.count_cons_of_ne hc
        have hstarts := h.tail (Or.inr hne)
        obtain ⟨n, hn⟩ : ∃ n, newlines before = n + 1 := by
          rcases hstarts with rfl | ⟨t, rfl⟩
          · exact absurd rfl hne
          · exact ⟨newlines t, by rw [newlines_append]; rfl⟩
        obtain ⟨l, ls, hs, hcons⟩ := splitNewlines_cons hc (before ++ s)
        have hline := ih hstarts
        rw [hs, hn, List.getElem?_cons_succ] at hline
        rw [List.cons_append, hcons, hnewlines, hn, List.getElem?_cons_succ]
        exact hline

theorem length_splitNewlines (s : List Char) : (splitNewlines s).length = newlines s + 1 := by
  induction s with
  | nil => rfl
  | cons c s ih =>
      by_cases hc : c = '\n'
      · subst hc
        rw [splitNewlines_newline, List.length_cons, ih]
        exact congrArg (· + 1) List.count_cons_self.symm
      · obtain ⟨l, ls, hs, hcons⟩ := splitNewlines_cons hc s
        rw [hcons, List.length_cons, show newlines (c :: s) = newlines s from List.count_cons_of_ne hc, ← ih, hs,
          List.length_cons]

/-- Every line has a text in front of it. -/
theorem exists_startsLine {s : List Char} {n : Nat} (h : n ≤ newlines s) :
    ∃ before behind, s = before ++ behind ∧ StartsLine before ∧ newlines before = n := by
  induction s generalizing n with
  | nil => exact ⟨[], [], rfl, Or.inl rfl, (Nat.le_zero.mp h).symm⟩
  | cons c s ih =>
      cases n with
      | zero => exact ⟨[], c :: s, rfl, Or.inl rfl, rfl⟩
      | succ n =>
          have hcons (before : List Char) (hstarts : StartsLine before) (hne : c = '\n' ∨ before ≠ []) :
              StartsLine (c :: before) := by
            rcases hstarts with rfl | ⟨t, rfl⟩
            · rcases hne with rfl | hne
              · exact Or.inr ⟨[], rfl⟩
              · exact absurd rfl hne
            · exact Or.inr ⟨c :: t, rfl⟩
          by_cases hc : c = '\n'
          · subst hc
            have hnewlines (s : List Char) : newlines ('\n' :: s) = newlines s + 1 := List.count_cons_self
            rw [hnewlines] at h
            obtain ⟨before, behind, rfl, hstarts, hn⟩ := ih (Nat.le_of_succ_le_succ h)
            exact ⟨'\n' :: before, behind, rfl, hcons before hstarts (Or.inl rfl), by rw [hnewlines, hn]⟩
          · have hnewlines (s : List Char) : newlines (c :: s) = newlines s := List.count_cons_of_ne hc
            rw [hnewlines] at h
            obtain ⟨before, behind, rfl, hstarts, hn⟩ := ih h
            have hne : before ≠ [] := by
              rintro rfl
              cases hn
            exact ⟨c :: before, behind, rfl, hcons before hstarts (Or.inr hne), by rw [hnewlines, hn]⟩

/-- The part of a text behind its last newline starts a line. -/
theorem exists_afterLastNewline (s : List Char) :
    ∃ before, s = before ++ afterLastNewline s ∧ StartsLine before ∧ newlines (afterLastNewline s) = 0 := by
  refine ⟨(s.reverse.dropWhile (· ≠ '\n')).reverse, ?_, ?_, ?_⟩
  · unfold afterLastNewline
    rw [← List.reverse_append, List.takeWhile_append_dropWhile, List.reverse_reverse]
  · cases hrest : s.reverse.dropWhile (· ≠ '\n') with
    | nil => exact Or.inl rfl
    | cons c r =>
        have hc := List.head?_dropWhile_not (fun c => decide (c ≠ '\n')) s.reverse
        rw [hrest] at hc
        obtain rfl : c = '\n' := by simpa using hc
        exact Or.inr ⟨r.reverse, List.reverse_cons⟩
  · rw [newlines_eq_zero]
    intro hmem
    have hall := List.all_eq_true.mp (List.all_takeWhile (p := fun c => decide (c ≠ '\n')) (l := s.reverse)) _
      (List.mem_reverse.mp hmem)
    simp at hall

end Text

namespace Grammar

/-! ## One line -/

theorem dropWhile_append_newline {p : Char → Bool} (hp : p '\n' = false) (s r : List Char) :
    (s ++ '\n' :: r).dropWhile p = s.dropWhile p ++ '\n' :: r := by
  induction s with
  | nil => exact List.dropWhile_cons_of_neg (by simp [hp])
  | cons c s ih =>
      by_cases hc : p c = true
      · rw [List.cons_append, List.dropWhile_cons_of_pos hc, List.dropWhile_cons_of_pos hc, ih]
      · rw [List.cons_append, List.dropWhile_cons_of_neg hc, List.dropWhile_cons_of_neg hc, List.cons_append]

theorem takeWhile_append_newline {p : Char → Bool} (hp : p '\n' = false) (s r : List Char) :
    (s ++ '\n' :: r).takeWhile p = s.takeWhile p := by
  induction s with
  | nil => exact List.takeWhile_cons_of_neg (by simp [hp])
  | cons c s ih =>
      by_cases hc : p c = true
      · rw [List.cons_append, List.takeWhile_cons_of_pos hc, List.takeWhile_cons_of_pos hc, ih]
      · rw [List.cons_append, List.takeWhile_cons_of_neg hc, List.takeWhile_cons_of_neg hc]

theorem afterModifier_of_ne {c : Char} (hmark : c ≠ '?') (hbang : c ≠ '!') (r : List Char) :
    afterModifier (c :: r) = c :: r := by
  unfold afterModifier
  split
  · rename_i h; exact absurd (List.cons.inj h).1 hmark
  · rename_i h; exact absurd (List.cons.inj h).1 hbang
  · rfl

theorem afterModifier_append_newline (s r : List Char) :
    afterModifier (s ++ '\n' :: r) = afterModifier s ++ '\n' :: r := by
  cases s with
  | nil => rfl
  | cons c s =>
      by_cases hmark : c = '?'
      · subst hmark
        rfl
      · by_cases hbang : c = '!'
        · subst hbang
          rfl
        · rw [List.cons_append, afterModifier_of_ne hmark hbang, afterModifier_of_ne hmark hbang, List.cons_append]

/-- The digits of a priority behind its sign. -/
def unsigned : List Char → List Char
  | '-' :: r => r
  | r => r

theorem unsigned_of_ne {c : Char} (h : c ≠ '-') (r : List Char) : unsigned (c :: r) = c :: r := by
  unfold unsigned
  split
  · rename_i heq; exact absurd (List.cons.inj heq).1 h
  · rfl

theorem unsigned_append_newline (s r : List Char) : unsigned (s ++ '\n' :: r) = unsigned s ++ '\n' :: r := by
  cases s with
  | nil => rfl
  | cons c s =>
      by_cases hc : c = '-'
      · subst hc
        rfl
      · rw [List.cons_append, unsigned_of_ne hc, unsigned_of_ne hc, List.cons_append]

theorem afterPriority_dot (r : List Char) : afterPriority ('.' :: r) =
    if (unsigned r).head?.any Text.isDigit then (unsigned r).dropWhile Text.isDigit else '.' :: r := by
  unfold afterPriority unsigned
  dsimp only
  cases r with
  | nil => rfl
  | cons c r =>
      by_cases hc : c = '-'
      · subst hc
        rfl
      · split <;> split <;> simp_all

theorem afterPriority_of_ne {c : Char} (h : c ≠ '.') (r : List Char) : afterPriority (c :: r) = c :: r := by
  unfold afterPriority
  split
  · rename_i heq; exact absurd (List.cons.inj heq).1 h
  · rfl

theorem afterPriority_append_newline (s r : List Char) :
    afterPriority (s ++ '\n' :: r) = afterPriority s ++ '\n' :: r := by
  cases s with
  | nil => rfl
  | cons c s =>
      by_cases hc : c = '.'
      · subst hc
        rw [List.cons_append, afterPriority_dot, afterPriority_dot, unsigned_append_newline]
        have hhead : (unsigned s ++ '\n' :: r).head?.any Text.isDigit = (unsigned s).head?.any Text.isDigit := by
          cases unsigned s <;> rfl
        rw [hhead, dropWhile_append_newline rfl]
        split <;> rfl
      · rw [List.cons_append, afterPriority_of_ne hc, afterPriority_of_ne hc, List.cons_append]

/-- What has to stand behind the blanks and the modifier of a line that is read as a definition. -/
def NameAhead (n s : List Char) : Prop :=
  n = s.takeWhile isNameChar ∧ n.head?.any isSmall = true ∧
    ((afterPriority (s.dropWhile isNameChar)).dropWhile isGap).head? = some ':'

theorem ruleOfLine?_eq_some {s n : List Char} :
    ruleOfLine? s = some n ↔ NameAhead n (afterModifier (s.dropWhile isGap)) := by
  unfold ruleOfLine? NameAhead
  generalize afterModifier (s.dropWhile isGap) = t
  dsimp only
  generalize (afterPriority (t.dropWhile isNameChar)).dropWhile isGap = u
  constructor
  · intro h
    split at h
    · split at h
      · cases h
        exact ⟨rfl, by assumption, rfl⟩
      · cases h
    · cases h
  · rintro ⟨rfl, hsmall, hcolon⟩
    rw [if_pos hsmall]
    cases u with
    | nil => cases hcolon
    | cons c u =>
        obtain rfl := Option.some.inj hcolon
        rfl

/-! ## The plain form of a definition -/

/-- A run of characters ends where another character follows. -/
theorem span_append {p : Char → Bool} {u r : List Char} (hu : ∀ c ∈ u, p c = true)
    (hr : ∀ c ∈ r.head?, p c = false) : (u ++ r).takeWhile p = u ∧ (u ++ r).dropWhile p = r := by
  rw [List.takeWhile_append_of_pos hu, List.dropWhile_append_of_pos hu]
  cases r with
  | nil => exact ⟨List.append_nil u, rfl⟩
  | cons c r =>
      have hc : ¬ p c = true := by simp [hr c rfl]
      rw [List.takeWhile_cons_of_neg hc, List.dropWhile_cons_of_neg hc]
      exact ⟨List.append_nil u, rfl⟩

/-- A name that a rule can be started with: a small letter, then small letters, digits and underscores. -/
structure IsName (n : List Char) : Prop where
  small : n.head?.any isSmall = true
  chars : ∀ c ∈ n, isNameChar c = true

/-- A priority as it stands in a line: none, or a dot, a minus sign at most, and digits. -/
def IsPriority (p : List Char) : Prop :=
  p = [] ∨ ∃ sign digits, p = '.' :: (sign ++ digits) ∧ sign ∈ [[], ['-']] ∧ digits ≠ [] ∧
    ∀ c ∈ digits, Text.isDigit c = true

/-- A line in the plain form of a definition: blanks and tabs, one modifier at most, the name, a priority, blanks
and tabs, and a colon. -/
def PlainForm (n line : List Char) : Prop :=
  ∃ indent modifier priority blank body, line = indent ++ (modifier ++ (n ++ (priority ++ (blank ++ ':' :: body)))) ∧
    (∀ c ∈ indent, isGap c = true) ∧ modifier ∈ [[], ['?'], ['!']] ∧ IsName n ∧ IsPriority priority ∧
    ∀ c ∈ blank, isGap c = true

theorem exists_modifier (s : List Char) : ∃ m ∈ [[], ['?'], ['!']], s = m ++ afterModifier s := by
  cases s with
  | nil => exact ⟨[], by simp, rfl⟩
  | cons c s =>
      by_cases hmark : c = '?'
      · exact ⟨['?'], by simp, by rw [hmark]; rfl⟩
      · by_cases hbang : c = '!'
        · exact ⟨['!'], by simp, by rw [hbang]; rfl⟩
        · exact ⟨[], by simp, by rw [afterModifier_of_ne hmark hbang]; rfl⟩

theorem exists_priority (s : List Char) : ∃ p, IsPriority p ∧ s = p ++ afterPriority s := by
  cases s with
  | nil => exact ⟨[], Or.inl rfl, rfl⟩
  | cons c r =>
      by_cases hc : c = '.'
      · subst hc
        rw [afterPriority_dot]
        split
        · rename_i hdigit
          have hsign : ∃ sign ∈ [[], ['-']], r = sign ++ unsigned r := by
            cases r with
            | nil => exact ⟨[], by simp, rfl⟩
            | cons d r =>
                by_cases hd : d = '-'
                · exact ⟨['-'], by simp, by rw [hd]; rfl⟩
                · exact ⟨[], by simp, by rw [unsigned_of_ne hd]; rfl⟩
          obtain ⟨sign, hsign, hr⟩ := hsign
          refine ⟨'.' :: (sign ++ (unsigned r).takeWhile Text.isDigit), Or.inr ⟨sign, _, rfl, hsign, ?_, ?_⟩, ?_⟩
          · cases hu : unsigned r with
            | nil => rw [hu] at hdigit; cases hdigit
            | cons d u =>
                rw [hu] at hdigit
                have hd : Text.isDigit d = true := hdigit
                rw [List.takeWhile_cons_of_pos hd]
                exact List.cons_ne_nil _ _
          · exact fun c hc => List.all_eq_true.mp List.all_takeWhile c hc
          · rw [List.cons_append, List.append_assoc, List.takeWhile_append_dropWhile, ← hr]
        · exact ⟨[], Or.inl rfl, rfl⟩
      · exact ⟨[], Or.inl rfl, by rw [afterPriority_of_ne hc]; rfl⟩

/-- Behind a priority stands what the priority is followed by, if no digit and no other dot is. -/
theorem afterPriority_append {p : List Char} (hp : IsPriority p) {c : Char} (hdot : c ≠ '.')
    (hdigit : Text.isDigit c = false) (r : List Char) : afterPriority (p ++ c :: r) = c :: r := by
  rcases hp with rfl | ⟨sign, digits, rfl, hsign, hne, hdigits⟩
  · exact afterPriority_of_ne hdot r
  · have hunsigned : unsigned (sign ++ (digits ++ c :: r)) = digits ++ c :: r := by
      simp only [List.mem_cons, List.not_mem_nil, or_false] at hsign
      rcases hsign with rfl | rfl
      · obtain ⟨d, digits, rfl⟩ := List.exists_cons_of_ne_nil hne
        refine unsigned_of_ne ?_ _
        rintro rfl
        have hminus := hdigits '-' List.mem_cons_self
        revert hminus
        decide
      · rfl
    rw [List.cons_append, List.append_assoc, afterPriority_dot, hunsigned, List.dropWhile_append_of_pos hdigits,
      List.dropWhile_cons_of_neg (by simp [hdigit]), if_pos]
    obtain ⟨d, digits, rfl⟩ := List.exists_cons_of_ne_nil hne
    exact hdigits d List.mem_cons_self

theorem not_gap_of_nameChar {c : Char} (h : isNameChar c = true) : isGap c = false ∧ c ≠ '?' ∧ c ≠ '!' := by
  refine ⟨?_, ?_, ?_⟩
  · rw [Bool.eq_false_iff]
    intro hgap
    rcases Bool.or_eq_true_iff.mp hgap with hc | hc <;> rw [of_decide_eq_true hc] at h <;> revert h <;> decide
  · rintro rfl
    revert h
    decide
  · rintro rfl
    revert h
    decide

/-- Behind a modifier stands the name. -/
theorem afterModifier_append {m : List Char} (hm : m ∈ [[], ['?'], ['!']]) {c : Char} (hc : isNameChar c = true)
    (r : List Char) : afterModifier ((m ++ c :: r).dropWhile isGap) = c :: r := by
  obtain ⟨hgap, hmark, hbang⟩ := not_gap_of_nameChar hc
  simp only [List.mem_cons, List.not_mem_nil, or_false] at hm
  rcases hm with rfl | rfl | rfl
  · rw [List.nil_append, List.dropWhile_cons_of_neg (by simp [hgap]), afterModifier_of_ne hmark hbang]
  · rfl
  · rfl

/-- A blank, a tab or the colon stands behind the priority, and can be no part of it or of the name. -/
theorem exists_follower {blank : List Char} (h : ∀ c ∈ blank, isGap c = true) (body : List Char) :
    ∃ c r, blank ++ ':' :: body = c :: r ∧ c ≠ '.' ∧ Text.isDigit c = false ∧ isNameChar c = false := by
  cases blank with
  | nil => exact ⟨':', body, rfl, by decide, by decide, by decide⟩
  | cons c blank =>
      refine ⟨c, blank ++ ':' :: body, rfl, ?_⟩
      rcases Bool.or_eq_true_iff.mp (h c List.mem_cons_self) with hc | hc <;> rw [of_decide_eq_true hc] <;> decide

theorem IsPriority.head?_append {p : List Char} (hp : IsPriority p) {c : Char} (hc : isNameChar c = false)
    (r : List Char) : ∀ d ∈ (p ++ c :: r).head?, isNameChar d = false := by
  intro d hd
  rcases hp with rfl | ⟨sign, digits, rfl, -⟩
  · rw [← Option.some.inj hd]
    exact hc
  · rw [← Option.some.inj hd]
    rfl

/-- The lines that are read as definitions are those in the plain form. -/
theorem ruleOfLine?_eq_some_iff {line n : List Char} : ruleOfLine? line = some n ↔ PlainForm n line := by
  rw [ruleOfLine?_eq_some]
  constructor
  · rintro ⟨hn, hsmall, hcolon⟩
    obtain ⟨m, hm, hrest⟩ := exists_modifier (line.dropWhile isGap)
    generalize afterModifier (line.dropWhile isGap) = s at hn hcolon hrest
    obtain ⟨p, hp, hbehind⟩ := exists_priority (s.dropWhile isNameChar)
    generalize afterPriority (s.dropWhile isNameChar) = u at hcolon hbehind
    cases hu : u.dropWhile isGap with
    | nil => rw [hu] at hcolon; cases hcolon
    | cons c body =>
        rw [hu] at hcolon
        obtain rfl : c = ':' := Option.some.inj hcolon
        refine ⟨line.takeWhile isGap, m, p, u.takeWhile isGap, body, ?_, ?_, hm, ⟨hsmall, ?_⟩, hp, ?_⟩
        · rw [← hu, List.takeWhile_append_dropWhile, ← hbehind, hn, List.takeWhile_append_dropWhile, ← hrest,
            List.takeWhile_append_dropWhile]
        · exact fun c hc => List.all_eq_true.mp List.all_takeWhile c hc
        · rw [hn]
          exact fun c hc => List.all_eq_true.mp List.all_takeWhile c hc
        · exact fun c hc => List.all_eq_true.mp List.all_takeWhile c hc
  · rintro ⟨indent, m, p, blank, body, rfl, hindent, hm, ⟨hsmall, hchars⟩, hp, hblank⟩
    obtain ⟨d, n, rfl⟩ : ∃ d t, n = d :: t := by
      cases n with
      | nil => cases hsmall
      | cons d t => exact ⟨d, t, rfl⟩
    obtain ⟨c, r, hc, hdot, hdigit, hstop⟩ := exists_follower hblank body
    obtain ⟨htake, hdrop⟩ := span_append hchars (hp.head?_append hstop r)
    rw [List.dropWhile_append_of_pos hindent, List.cons_append, afterModifier_append hm (hchars d List.mem_cons_self),
      ← List.cons_append, hc]
    refine ⟨htake.symm, hsmall, ?_⟩
    rw [hdrop, afterPriority_append hp hdot hdigit, ← hc, List.dropWhile_append_of_pos hblank]
    rfl

/-! ## Lines of a text -/

/-- What stands behind the end of a line does not matter. -/
theorem ruleOfLine?_append_newline (s r : List Char) : ruleOfLine? (s ++ '\n' :: r) = ruleOfLine? s := by
  have hhead (t : List Char) : (t ++ '\n' :: r).head? = some ':' ↔ t.head? = some ':' := by
    cases t <;> simp
  refine Option.ext fun n => ?_
  rw [ruleOfLine?_eq_some, ruleOfLine?_eq_some]
  unfold NameAhead
  rw [dropWhile_append_newline rfl, afterModifier_append_newline, takeWhile_append_newline rfl,
    dropWhile_append_newline rfl, afterPriority_append_newline, dropWhile_append_newline rfl, hhead]

/-- A text is read as its first line is. -/
theorem ruleOfLine?_takeWhile (s : List Char) : ruleOfLine? (s.takeWhile (· ≠ '\n')) = ruleOfLine? s := by
  cases hrest : s.dropWhile (· ≠ '\n') with
  | nil =>
      have hwhole := List.takeWhile_append_dropWhile (p := fun c => decide (c ≠ '\n')) (l := s)
      rw [hrest, List.append_nil] at hwhole
      rw [hwhole]
  | cons c r =>
      have hc : c = '\n' := by
        have hhead := List.head?_dropWhile_not (p := fun c => decide (c ≠ '\n')) (l := s)
        rw [hrest] at hhead
        simpa using hhead
      have hwhole := List.takeWhile_append_dropWhile (p := fun c => decide (c ≠ '\n')) (l := s)
      rw [hrest, hc] at hwhole
      conv_rhs => rw [← hwhole]
      rw [ruleOfLine?_append_newline]

/-- The rule that a line of a text is read as defining, if any; lines count from zero. -/
def ruleOnLine? (text : String) (row : Nat) : Option (List Char) :=
  (Text.splitNewlines text.toList)[row]?.bind ruleOfLine?

/-- A line is read as the text behind its start; a newline at the end of the text makes no difference. -/
theorem ruleOnLine?_eq {text : String} {before behind : List Char}
    (h : text.toList ++ ['\n'] = before ++ behind) (hstarts : Text.StartsLine before) :
    ruleOnLine? text (Text.newlines before) = ruleOfLine? behind := by
  have hinside {s : List Char} (htext : text.toList = before ++ s) :
      ruleOnLine? text (Text.newlines before) = ruleOfLine? s := by
    unfold ruleOnLine?
    rw [htext, Text.splitNewlines_getElem? hstarts, Option.bind_some, ruleOfLine?_takeWhile]
  rcases List.append_eq_append_iff.mp h with ⟨rest, hbefore, hbehind⟩ | ⟨rest, htext, rfl⟩
  · cases rest with
    | nil =>
        rw [List.append_nil] at hbefore
        rw [hinside (s := []) (by rw [List.append_nil, hbefore]), show behind = [] ++ '\n' :: [] from hbehind.symm,
          ruleOfLine?_append_newline]
    | cons c rest =>
        -- Behind the newline that is added, there is no line any more.
        obtain ⟨rfl, hnil⟩ := List.cons.inj hbehind
        obtain ⟨rfl, rfl⟩ := List.append_eq_nil_iff.mp hnil.symm
        have hbeyond : (Text.splitNewlines text.toList).length ≤ Text.newlines before := by
          rw [hbefore, Text.length_splitNewlines, Text.newlines_append]
          exact Nat.le_refl _
        unfold ruleOnLine?
        rw [List.getElem?_eq_none hbeyond]
        rfl
  · rw [hinside htext, ruleOfLine?_append_newline]

theorem exists_line {text : String} {row : Nat} {n : List Char} (h : ruleOnLine? text row = some n) :
    ∃ before behind, text.toList ++ ['\n'] = before ++ behind ∧ Text.StartsLine before ∧
      Text.newlines before = row ∧ ruleOfLine? behind = some n := by
  have hrow : row ≤ Text.newlines text.toList := by
    unfold ruleOnLine? at h
    obtain ⟨l, hl, -⟩ := Option.bind_eq_some_iff.mp h
    have hlt := (List.getElem?_eq_some_iff.mp hl).1
    rw [Text.length_splitNewlines] at hlt
    omega
  obtain ⟨before, behind, hsplit, hstarts, hn⟩ := Text.exists_startsLine hrow
  have hwhole : text.toList ++ ['\n'] = before ++ (behind ++ ['\n']) := by rw [hsplit, List.append_assoc]
  refine ⟨before, behind ++ ['\n'], hwhole, hstarts, hn, ?_⟩
  rw [← ruleOnLine?_eq hwhole hstarts, hn, h]

/-! ## First characters of a line -/

namespace Source

/-- A text of which nothing in a definition can be made: behind its blanks and tabs, if there is anything at all,
stands a character that no definition has there. -/
def Inert (s : List Char) : Prop := ∀ c ∈ (s.dropWhile isGap).head?, c ∉ headChars

theorem inert_of_gaps {s : List Char} (h : ∀ c ∈ s, isGap c = true) : Inert s := by
  have hnil : s.dropWhile isGap = [] := List.dropWhile_eq_nil_iff.mpr h
  intro c hc
  rw [hnil] at hc
  cases hc

theorem inert_cons {c : Char} (hc : c ∉ headChars) (s : List Char) : Inert (c :: s) := by
  intro d hd
  rw [List.dropWhile_cons_of_neg fun h => hc (mem_headChars_of_gap h)] at hd
  obtain rfl := Option.some.inj hd
  exact hc

theorem Inert.append {s t : List Char} (hs : Inert s) (ht : Inert t) : Inert (s ++ t) := by
  unfold Inert
  rw [List.dropWhile_append]
  split
  · exact ht
  · rename_i hne
    cases hdrop : s.dropWhile isGap with
    | nil => exact absurd (by rw [hdrop]; rfl) hne
    | cons c r => exact fun d hd => hs d (by rw [hdrop]; exact hd)

theorem inert_of_blank {s : List Char} (h : ∀ c ∈ s, Text.isBlank c = true) : Inert s := by
  intro c hc hmem
  have hblank := h c ((List.dropWhile_sublist _).mem (List.mem_of_mem_head? hc))
  have hgap := List.head?_dropWhile_not isGap s
  rw [hc] at hgap
  exact absurd (gap_of_blank hblank hmem) (Bool.eq_false_iff.mp hgap)

/-- Such a text can stand in front of a definition only if it is made of blanks and tabs. -/
theorem Inert.read {s r n : List Char} (hs : Inert s) (h : ruleOfLine? (s ++ r) = some n) :
    (∀ c ∈ s, isGap c = true) ∧ ruleOfLine? r = some n := by
  rw [ruleOfLine?_eq_some, List.dropWhile_append] at h
  split at h
  · rename_i hnil
    exact ⟨List.dropWhile_eq_nil_iff.mp (List.isEmpty_iff.mp hnil), ruleOfLine?_eq_some.mpr h⟩
  · rename_i hne
    cases hdrop : s.dropWhile isGap with
    | nil => exact absurd (by rw [hdrop]; rfl) hne
    | cons c t =>
        have hc : c ∉ headChars := hs c (by rw [hdrop]; rfl)
        have hmark : c ≠ '?' := by rintro rfl; exact hc (by decide)
        have hbang : c ≠ '!' := by rintro rfl; exact hc (by decide)
        rw [hdrop, List.cons_append, afterModifier_of_ne hmark hbang] at h
        obtain ⟨rfl, hsmall, -⟩ := h
        rw [List.takeWhile_cons] at hsmall
        split at hsmall
        · exact absurd (mem_headChars_of_small hsmall) hc
        · cases hsmall

theorem Inert.ruleOfLine?_eq {s : List Char} (hs : Inert s) : ruleOfLine? s = none := by
  rw [Option.eq_none_iff_forall_not_mem]
  intro n hn
  have hnil := (hs.read (r := []) (by rwa [List.append_nil])).2
  cases hnil

/-- A name that is read: nothing but a priority and blanks stand between it and a colon. -/
theorem ruleOfLine?_name {u r n : List Char} (hu : ∀ c ∈ u, isNameChar c = true)
    (hr : ∀ c ∈ r.head?, isNameChar c = false) (hne : u ≠ []) (h : ruleOfLine? (u ++ r) = some n) :
    n = u ∧ u.head?.any isSmall = true ∧ ((afterPriority r).dropWhile isGap).head? = some ':' := by
  cases u with
  | nil => exact absurd rfl hne
  | cons c u =>
      have hc := hu c List.mem_cons_self
      obtain ⟨hgap, hmark, hbang⟩ := not_gap_of_nameChar hc
      rw [ruleOfLine?_eq_some, List.cons_append, List.dropWhile_cons_of_neg (by simp [hgap]),
        afterModifier_of_ne hmark hbang, ← List.cons_append] at h
      obtain ⟨rfl, hsmall, hcolon⟩ := h
      obtain ⟨htake, hdrop⟩ := span_append hu hr
      rw [htake] at hsmall
      rw [hdrop] at hcolon
      exact ⟨htake, hsmall, hcolon⟩

/-- A modifier that is read stands in front of a small letter. -/
theorem ruleOfLine?_modifier {c : Char} {r n : List Char} (hc : c = '?' ∨ c = '!')
    (h : ruleOfLine? (c :: r) = some n) : r.head?.any isSmall = true ∧ ruleOfLine? r = some n := by
  have hafter : afterModifier ((c :: r).dropWhile isGap) = r := by rcases hc with rfl | rfl <;> rfl
  rw [ruleOfLine?_eq_some, hafter] at h
  have hhead : r.head?.any isSmall = true := by
    obtain ⟨rfl, hsmall, -⟩ := h
    cases r with
    | nil => cases hsmall
    | cons d r =>
        rw [List.takeWhile_cons] at hsmall
        split at hsmall
        · exact hsmall
        · cases hsmall
  refine ⟨hhead, ruleOfLine?_eq_some.mpr ?_⟩
  cases r with
  | nil => cases hhead
  | cons d r =>
      have hd : isNameChar d = true := by
        unfold isNameChar
        rw [show isSmall d = true from hhead, Bool.true_or, Bool.true_or]
      obtain ⟨hgap, hmark, hbang⟩ := not_gap_of_nameChar hd
      rwa [List.dropWhile_cons_of_neg (by simp [hgap]), afterModifier_of_ne hmark hbang]

end Source

end Grammar

end GrammarBench
