import Mathlib.Data.List.Infix
import Mathlib.Data.List.TakeWhile
import GrammarBench.Value.Reader

/-!
# Numerals

Numbers as they are written, and what is scanned of them.

* `Numeral`: a sign, a whole number, a fraction and an exponent, with the text and the value they make.
* `numeral_of_scanNumber`: what is scanned as a number is one.
* `scanNumber_text`: a number is scanned where nothing goes on with it, unless it is an integer of too many digits.
* `LongRun`: more digits in a row than an integer may have.
-/

namespace GrammarBench.Value

/-! ## Numerals -/

def Digits (s : List Char) : Prop := ∀ c ∈ s, c.isDigit = true

/-- The sign of an exponent. -/
def IsSign (sign : List Char) : Prop := sign = [] ∨ sign = ['-'] ∨ sign = ['+']

/-- The letter, the sign and the digits of an exponent. -/
structure Exponent where
  letter : Char
  sign : List Char
  digits : List Char

namespace Exponent

structure WellFormed (e : Exponent) : Prop where
  letter : e.letter = 'e' ∨ e.letter = 'E'
  sign : IsSign e.sign
  digits : Digits e.digits
  some : e.digits ≠ []

def text (e : Exponent) : List Char := e.letter :: (e.sign ++ e.digits)

def down (e : Exponent) : Bool := e.sign = ['-']

def power (e : Exponent) : Int := if e.down then -(decimal e.digits : Int) else decimal e.digits

end Exponent

/-- A number as it is written; one without a fraction and an exponent is an integer. -/
structure Numeral where
  negative : Bool
  whole : List Char
  fraction : List Char
  exponent : Option Exponent

/-- A fraction without digits is not written. -/
def fractionText (fraction : List Char) : List Char := if fraction.isEmpty then [] else '.' :: fraction

def signText (negative : Bool) : List Char := if negative then ['-'] else []

/-- Digits that do not begin with a zero, or zero alone. -/
def Whole (s : List Char) : Prop := s = ['0'] ∨ s ≠ [] ∧ Digits s ∧ s.head? ≠ some '0'

namespace Numeral

structure WellFormed (n : Numeral) : Prop where
  whole : Whole n.whole
  fraction : Digits n.fraction
  exponent : ∀ e ∈ n.exponent, e.WellFormed

/-- The number without its sign. -/
def unsigned (n : Numeral) : List Char :=
  n.whole ++ (fractionText n.fraction ++ n.exponent.elim [] Exponent.text)

def text (n : Numeral) : List Char := signText n.negative ++ n.unsigned

def isInteger (n : Numeral) : Bool := n.fraction.isEmpty && n.exponent.isNone

def value (n : Numeral) : Value :=
  if n.isInteger then int (if n.negative then -(decimal n.whole : Int) else decimal n.whole)
  else float (Decimal.toFloat n.negative (decimal (n.whole ++ n.fraction))
    (n.exponent.elim 0 Exponent.power - n.fraction.length))

theorem value_integer (negative : Bool) (whole : List Char) : value ⟨negative, whole, [], none⟩ =
    int (if negative then -(decimal whole : Int) else decimal whole) := rfl

theorem value_fraction (negative : Bool) (whole : List Char) {fraction : List Char} (h : fraction ≠ []) :
    value ⟨negative, whole, fraction, none⟩ =
      float (Decimal.toFloat negative (decimal (whole ++ fraction)) (-fraction.length)) := by
  have hinteger : isInteger ⟨negative, whole, fraction, none⟩ = false := by
    show (fraction.isEmpty && true) = false
    rw [List.isEmpty_eq_false_iff.mpr h]
    rfl
  rw [value, hinteger, if_neg Bool.false_ne_true, ← Int.zero_sub (fraction.length : Int)]
  rfl

theorem value_exponent (negative : Bool) (whole fraction : List Char) (e : Exponent) :
    value ⟨negative, whole, fraction, some e⟩ = float (Decimal.toFloat negative (decimal (whole ++ fraction))
      ((if e.down then -(decimal e.digits : Int) else decimal e.digits) - fraction.length)) := by
  have hinteger : isInteger ⟨negative, whole, fraction, some e⟩ = false := Bool.and_false _
  rw [value, hinteger]
  rfl

end Numeral

/-! ## Scanning numerals -/

/-- What cannot go on with a number. -/
def EndsNumber (r : List Char) : Prop := ∀ c ∈ r.head?, c.isDigit = false ∧ c ≠ '.' ∧ c ≠ 'e' ∧ c ≠ 'E'

theorem digits_takeWhile (s : List Char) : Digits (s.takeWhile Char.isDigit) := fun _ hc => List.mem_takeWhile_imp hc

theorem takeWhile_digits {s r : List Char} (hs : Digits s) (hr : ∀ c ∈ r.head?, c.isDigit = false) :
    (s ++ r).takeWhile Char.isDigit = s := by
  rw [List.takeWhile_append_of_pos hs]
  cases r with
  | nil => rw [List.takeWhile_nil, List.append_nil]
  | cons c r => rw [List.takeWhile_cons_of_neg (by rw [hr c rfl]; decide), List.append_nil]

theorem exists_sign (s : List Char) :
    ∃ sign rest, s = sign ++ rest ∧ IsSign sign ∧ (sign = [] → ∀ c ∈ rest.head?, c ≠ '-' ∧ c ≠ '+') := by
  cases s with
  | nil => exact ⟨[], [], rfl, Or.inl rfl, fun _ c hc => nomatch hc⟩
  | cons c s =>
      by_cases hminus : c = '-'
      · exact ⟨['-'], s, by rw [hminus]; rfl, Or.inr (Or.inl rfl), fun h => nomatch h⟩
      · by_cases hplus : c = '+'
        · exact ⟨['+'], s, by rw [hplus]; rfl, Or.inr (Or.inr rfl), fun h => nomatch h⟩
        · refine ⟨[], c :: s, rfl, Or.inl rfl, fun _ d hd => ?_⟩
          rw [← Option.some.inj hd]
          exact ⟨hminus, hplus⟩

theorem exponentPart_signed (c : Char) {sign rest : List Char} (hsign : IsSign sign)
    (hrest : sign = [] → ∀ d ∈ rest.head?, d ≠ '-' ∧ d ≠ '+') :
    exponentPart (c :: (sign ++ rest)) =
      if c = 'e' || c = 'E' then
        if (rest.takeWhile Char.isDigit).isEmpty then none
        else some (decide (sign = ['-']), rest.takeWhile Char.isDigit,
          1 + sign.length + (rest.takeWhile Char.isDigit).length)
      else none := by
  rcases hsign with rfl | rfl | rfl
  · rw [List.nil_append, exponentPart]
    · rfl
    · rintro m rfl
      exact absurd rfl (hrest rfl '-' rfl).1
    · rintro m rfl
      exact absurd rfl (hrest rfl '+' rfl).2
  · rfl
  · rfl

theorem isMark_iff {c : Char} : (decide (c = 'e') || decide (c = 'E')) = true ↔ c = 'e' ∨ c = 'E' := by
  rw [Bool.or_eq_true, decide_eq_true_iff, decide_eq_true_iff]

theorem exponentPart_eq_some {s digits : List Char} {down : Bool} {size : Nat}
    (h : exponentPart s = some (down, digits, size)) :
    ∃ e : Exponent, e.WellFormed ∧ s = e.text ++ s.drop size ∧ e.down = down ∧ e.digits = digits := by
  cases s with
  | nil => cases h
  | cons c more =>
      obtain ⟨sign, rest, rfl, hsign, hrest⟩ := exists_sign more
      rw [exponentPart_signed c hsign hrest] at h
      split at h
      · rename_i hmark
        split at h
        · cases h
        · rename_i hempty
          cases h
          refine ⟨⟨c, sign, rest.takeWhile Char.isDigit⟩, ⟨isMark_iff.mp hmark, hsign, digits_takeWhile rest, ?_⟩, ?_,
            rfl, rfl⟩
          · exact fun hnil => hempty (List.isEmpty_iff.mpr hnil)
          · have hprefix : c :: (sign ++ rest.takeWhile Char.isDigit) <+: c :: (sign ++ rest) := by
              rw [List.cons_prefix_cons]
              exact ⟨rfl, (List.prefix_append_right_inj sign).mpr (List.takeWhile_prefix _)⟩
            have hlength : (c :: (sign ++ rest.takeWhile Char.isDigit)).length =
                1 + sign.length + (rest.takeWhile Char.isDigit).length := by
              rw [List.length_cons, List.length_append]
              omega
            rw [← hlength]
            exact List.prefix_append_drop hprefix
      · cases h

theorem Digits.head?_ne {s : List Char} (hs : Digits s) (hne : s ≠ []) (r : List Char) :
    ∀ c ∈ (s ++ r).head?, c ≠ '-' ∧ c ≠ '+' := by
  cases s with
  | nil => exact absurd rfl hne
  | cons d s =>
      intro c hc
      obtain rfl := Option.some.inj hc
      have hd := hs d List.mem_cons_self
      constructor
      all_goals
        rintro rfl
        cases hd

theorem exponentPart_text {e : Exponent} (he : e.WellFormed) {r : List Char} (hr : EndsNumber r) :
    exponentPart (e.text ++ r) = some (e.down, e.digits, e.text.length) := by
  have htake : (e.digits ++ r).takeWhile Char.isDigit = e.digits :=
    takeWhile_digits he.digits fun c hc => (hr c hc).1
  have htext : e.text ++ r = e.letter :: (e.sign ++ (e.digits ++ r)) := by
    rw [Exponent.text, List.cons_append, List.append_assoc]
  have hempty : ¬ e.digits.isEmpty = true := fun h => he.some (List.isEmpty_iff.mp h)
  rw [htext, exponentPart_signed e.letter he.sign fun _ => he.digits.head?_ne he.some r, htake,
    if_pos (isMark_iff.mpr he.letter), if_neg hempty, Exponent.text, Exponent.down, List.length_cons,
    List.length_append]
  congr 3
  omega

theorem exponentPart_none {r : List Char} (hr : EndsNumber r) : exponentPart r = none := by
  unfold exponentPart
  split
  · rename_i c more
    obtain ⟨-, -, he, hE⟩ := hr c rfl
    rw [if_neg]
    simp [he, hE]
  · rfl

/-! ### Fractions -/

theorem digits_fractionDigits (s : List Char) : Digits (fractionDigits s) := by
  unfold fractionDigits
  split
  · exact digits_takeWhile _
  · exact fun c hc => nomatch hc

/-- What is behind a fraction. -/
def behindFraction (s : List Char) : List Char :=
  if (fractionDigits s).isEmpty then s else s.drop ((fractionDigits s).length + 1)

theorem fractionText_append (s : List Char) : s = fractionText (fractionDigits s) ++ behindFraction s := by
  unfold behindFraction fractionText
  split
  · rfl
  · rename_i hsome
    unfold fractionDigits at hsome ⊢
    split at hsome
    · rename_i more
      exact congrArg ('.' :: ·) (List.prefix_append_drop (List.takeWhile_prefix _))
    · exact absurd rfl hsome

/-- What cannot go on with the digits of a whole number or a fraction. -/
def EndsDigits (r : List Char) : Prop := ∀ c ∈ r.head?, c.isDigit = false ∧ c ≠ '.'

theorem fractionDigits_text {f r : List Char} (hf : Digits f) (hr : EndsDigits r) :
    fractionDigits (fractionText f ++ r) = f ∧ behindFraction (fractionText f ++ r) = r := by
  have hdigits : fractionDigits (fractionText f ++ r) = f := by
    cases f with
    | nil =>
        show fractionDigits r = []
        unfold fractionDigits
        split
        · rename_i more
          exact absurd rfl (hr '.' rfl).2
        · rfl
    | cons c f => exact takeWhile_digits hf fun c hc => (hr c hc).1
  refine ⟨hdigits, ?_⟩
  unfold behindFraction
  rw [hdigits]
  cases f with
  | nil => rfl
  | cons c f =>
      rw [if_neg (by simp)]
      exact List.drop_left

/-! ### Whole numbers -/

/-- The whole number at the front: nothing goes on behind a zero. -/
def wholeOf (s : List Char) : List Char :=
  match s with
  | '0' :: _ => ['0']
  | r => r.takeWhile Char.isDigit

theorem wholeOf_of_ne {s : List Char} (h : s.head? ≠ some '0') : wholeOf s = s.takeWhile Char.isDigit := by
  unfold wholeOf
  split
  · exact absurd rfl h
  · rfl

theorem whole_wholeOf {s : List Char} (h : wholeOf s ≠ []) : Whole (wholeOf s) := by
  by_cases hzero : s.head? = some '0'
  · obtain ⟨t, rfl⟩ := List.head?_eq_some_iff.mp hzero
    exact Or.inl rfl
  · rw [wholeOf_of_ne hzero] at h ⊢
    refine Or.inr ⟨h, digits_takeWhile s, fun hhead => hzero ?_⟩
    obtain ⟨t, ht⟩ := List.head?_eq_some_iff.mp hhead
    rw [List.prefix_append_drop (List.takeWhile_prefix (l := s) Char.isDigit), ht]
    rfl

theorem prefix_wholeOf (s : List Char) : wholeOf s <+: s := by
  unfold wholeOf
  split
  · exact ⟨_, rfl⟩
  · exact List.takeWhile_prefix _

theorem wholeOf_append {w r : List Char} (hw : Whole w) (hr : ∀ c ∈ r.head?, c.isDigit = false) :
    wholeOf (w ++ r) = w := by
  rcases hw with rfl | ⟨hne, hdigits, hhead⟩
  · rfl
  · unfold wholeOf
    split
    · rename_i heq
      cases w with
      | nil => exact absurd rfl hne
      | cons c w =>
          obtain ⟨rfl, -⟩ := List.cons.inj heq
          exact absurd rfl hhead
    · exact takeWhile_digits hdigits hr

/-! ### Numbers -/

/-- The scan behind a fraction. -/
def pastFraction (s : Scan) : Scan :=
  if (fractionDigits s.rest).isEmpty then s else s.skip ((fractionDigits s.rest).length + 1)

theorem rest_pastFraction (s : Scan) : (pastFraction s).rest = behindFraction s.rest := by
  unfold pastFraction behindFraction
  split <;> rfl

/-- A number behind its whole part; `s` is the scan in front of it all. -/
def scanTail (negative : Bool) (whole : List Char) (s after : Scan) : Except Fault (Value × Scan) :=
  let fraction := fractionDigits after.rest
  match exponentPart (pastFraction after).rest with
  | none =>
    if fraction.isEmpty then
      if 4300 < whole.length then s.fail (.tooManyDigits whole.length)
      else .ok (int (if negative then -(decimal whole : Int) else decimal whole), pastFraction after)
    else .ok (float (Decimal.toFloat negative (decimal (whole ++ fraction)) (-fraction.length)), pastFraction after)
  | some (down, digits, size) =>
    .ok (float (Decimal.toFloat negative (decimal (whole ++ fraction))
      ((if down then -(decimal digits : Int) else decimal digits) - fraction.length)), (pastFraction after).skip size)

/-- A number behind its sign; `s` is the scan in front of both. -/
def scanUnsigned (negative : Bool) (s body : Scan) : Except Fault (Value × Scan) :=
  let whole := wholeOf body.rest
  if whole.isEmpty then s.fail .noValue else scanTail negative whole s (body.skip whole.length)

section

variable {negative : Bool} {whole : List Char} {s after : Scan}

theorem scanTail_none (h : exponentPart (behindFraction after.rest) = none) :
    scanTail negative whole s after =
      if (fractionDigits after.rest).isEmpty = true ∧ 4300 < whole.length then s.fail (.tooManyDigits whole.length)
      else .ok (Numeral.value ⟨negative, whole, fractionDigits after.rest, none⟩, pastFraction after) := by
  unfold scanTail
  rw [rest_pastFraction, h]
  dsimp only
  by_cases hempty : (fractionDigits after.rest).isEmpty = true
  · rw [if_pos hempty]
    by_cases hlong : 4300 < whole.length
    · rw [if_pos hlong, if_pos ⟨hempty, hlong⟩]
    · rw [if_neg hlong, if_neg (not_and_of_not_right _ hlong), List.isEmpty_iff.mp hempty, Numeral.value_integer]
  · rw [if_neg hempty, if_neg fun h => hempty h.1,
      Numeral.value_fraction negative whole fun hnil => hempty (List.isEmpty_iff.mpr hnil)]

theorem scanTail_some {e : Exponent} {size : Nat}
    (h : exponentPart (behindFraction after.rest) = some (e.down, e.digits, size)) :
    scanTail negative whole s after =
      .ok (Numeral.value ⟨negative, whole, fractionDigits after.rest, some e⟩, (pastFraction after).skip size) := by
  unfold scanTail
  rw [rest_pastFraction, h, Numeral.value_exponent]

/-- What is scanned behind a whole part is the rest of a number. -/
theorem numeral_of_scanTail (hwhole : Whole whole) {v : Value} {s' : Scan}
    (h : scanTail negative whole s after = .ok (v, s')) :
    ∃ n : Numeral, n.WellFormed ∧ n.negative = negative ∧ n.whole = whole ∧
      after.rest = fractionText n.fraction ++ (n.exponent.elim [] Exponent.text ++ s'.rest) ∧ v = n.value := by
  have hfraction := fractionText_append after.rest
  cases hexponent : exponentPart (behindFraction after.rest) with
  | none =>
      rw [scanTail_none hexponent] at h
      split at h
      · cases h
      cases h
      refine ⟨⟨negative, whole, fractionDigits after.rest, none⟩,
        ⟨hwhole, digits_fractionDigits _, fun e he => (Option.not_mem_none e he).elim⟩, rfl, rfl, ?_, rfl⟩
      rw [rest_pastFraction]
      exact hfraction
  | some part =>
      obtain ⟨down, digits, size⟩ := part
      obtain ⟨e, he, hsplit, rfl, rfl⟩ := exponentPart_eq_some hexponent
      rw [scanTail_some hexponent] at h
      cases h
      refine ⟨⟨negative, whole, fractionDigits after.rest, some e⟩, ⟨hwhole, digits_fractionDigits _, ?_⟩, rfl, rfl,
        ?_, rfl⟩
      · intro e' he'
        rwa [← Option.some.inj he']
      · show after.rest = fractionText (fractionDigits after.rest) ++ (e.text ++ (pastFraction after).rest.drop size)
        rw [rest_pastFraction, ← hsplit]
        exact hfraction

/-- Nothing but too many digits stops the scan behind a whole part. -/
theorem long_of_scanTail {f : Fault} (h : scanTail negative whole s after = .error f) : 4300 < whole.length := by
  cases hexponent : exponentPart (behindFraction after.rest) with
  | none =>
      rw [scanTail_none hexponent] at h
      split at h
      · rename_i hlong
        exact hlong.2
      · cases h
  | some part =>
      obtain ⟨down, digits, size⟩ := part
      obtain ⟨e, -, -, rfl, rfl⟩ := exponentPart_eq_some hexponent
      rw [scanTail_some hexponent] at h
      cases h

end

theorem scanNumber_signed (negative : Bool) {body : List Char} (hbody : negative = false → body.head? ≠ some '-')
    (o : Nat) : scanNumber ⟨signText negative ++ body, o⟩ =
      scanUnsigned negative ⟨signText negative ++ body, o⟩ ⟨body, o + (signText negative).length⟩ := by
  cases negative with
  | true => rfl
  | false =>
      show scanNumber ⟨body, o⟩ = scanUnsigned false ⟨body, o⟩ ⟨body, o⟩
      unfold scanNumber
      split
      rename_i negative' body' heq
      split at heq
      · rename_i more hrest
        refine absurd ?_ (hbody rfl)
        rw [show body = '-' :: more from hrest]
        rfl
      · cases heq
        rfl

theorem exists_signed (s : List Char) :
    ∃ negative body, s = signText negative ++ body ∧ (negative = false → body.head? ≠ some '-') := by
  by_cases hminus : s.head? = some '-'
  · obtain ⟨t, rfl⟩ := List.head?_eq_some_iff.mp hminus
    exact ⟨true, t, rfl, fun h => nomatch h⟩
  · exact ⟨false, s, rfl, fun _ => hminus⟩

/-- A scan finds no number, or goes on behind a sign and a whole part. -/
theorem scanNumber_cases (s : List Char) (o : Nat) :
    scanNumber ⟨s, o⟩ = Scan.fail ⟨s, o⟩ .noValue ∨ ∃ negative body after, s = signText negative ++ body ∧
      Whole (wholeOf body) ∧ after.rest = body.drop (wholeOf body).length ∧
      scanNumber ⟨s, o⟩ = scanTail negative (wholeOf body) ⟨s, o⟩ after := by
  obtain ⟨negative, body, rfl, hbody⟩ := exists_signed s
  rw [scanNumber_signed negative hbody]
  unfold scanUnsigned
  dsimp only
  split
  · exact Or.inl rfl
  · rename_i hsome
    exact Or.inr ⟨negative, body, _, rfl, whole_wholeOf fun hnil => hsome (by rw [hnil]; rfl), rfl, rfl⟩

/-- What is scanned as a number is one. -/
theorem numeral_of_scanNumber {s : List Char} {o : Nat} {v : Value} {s' : Scan}
    (h : scanNumber ⟨s, o⟩ = .ok (v, s')) : ∃ n : Numeral, n.WellFormed ∧ s = n.text ++ s'.rest ∧ v = n.value := by
  rcases scanNumber_cases s o with hfails | ⟨negative, body, after, rfl, hwhole, hbehind, htail⟩
  · rw [hfails] at h
    cases h
  · rw [htail] at h
    obtain ⟨n, hn, hnegative, hnwhole, hafter, hv⟩ := numeral_of_scanTail hwhole h
    refine ⟨n, hn, ?_, hv⟩
    rw [Numeral.text, Numeral.unsigned, hnegative, hnwhole, List.append_assoc, List.append_assoc, List.append_assoc,
      ← hafter, hbehind, ← List.prefix_append_drop (prefix_wholeOf body)]

theorem EndsNumber.endsDigits {r : List Char} (h : EndsNumber r) : EndsDigits r :=
  fun c hc => ⟨(h c hc).1, (h c hc).2.1⟩

theorem endsDigits_exponent {exponent : Option Exponent} (he : ∀ e ∈ exponent, e.WellFormed) {r : List Char}
    (hr : EndsNumber r) : EndsDigits (exponent.elim [] Exponent.text ++ r) := by
  cases exponent with
  | none => exact hr.endsDigits
  | some e =>
      intro c hc
      obtain rfl : e.letter = c := Option.some.inj hc
      rcases (he e rfl).letter with hletter | hletter
      all_goals
        rw [hletter]
        decide

theorem endsDigits_fraction {fraction r : List Char} (hr : EndsDigits r) :
    ∀ c ∈ (fractionText fraction ++ r).head?, c.isDigit = false := by
  cases fraction with
  | nil => exact fun c hc => (hr c hc).1
  | cons d fraction =>
      intro c hc
      obtain rfl : '.' = c := Option.some.inj hc
      decide

theorem Whole.head?_ne {w : List Char} (hw : Whole w) (r : List Char) : (w ++ r).head? ≠ some '-' := by
  rcases hw with rfl | ⟨hne, hdigits, -⟩
  · exact fun h => nomatch h
  · exact fun h => (hdigits.head?_ne hne r '-' h).1 rfl

theorem Whole.ne_nil {w : List Char} (hw : Whole w) : w ≠ [] := by
  rcases hw with rfl | ⟨hne, -, -⟩
  · exact List.cons_ne_nil _ _
  · exact hne

/-- What comes of scanning the rest of a number that nothing goes on with. -/
theorem scanTail_text (negative : Bool) (whole : List Char) {fraction : List Char} {exponent : Option Exponent}
    (hfraction : Digits fraction) (hexponent : ∀ e ∈ exponent, e.WellFormed) {r : List Char} (hr : EndsNumber r)
    (s : Scan) (o : Nat) :
    ∃ o', scanTail negative whole s ⟨fractionText fraction ++ (exponent.elim [] Exponent.text ++ r), o⟩ =
      if Numeral.isInteger ⟨negative, whole, fraction, exponent⟩ = true ∧ 4300 < whole.length then
        s.fail (.tooManyDigits whole.length)
      else .ok (Numeral.value ⟨negative, whole, fraction, exponent⟩, ⟨r, o'⟩) := by
  obtain ⟨hdigits, hbehind⟩ := fractionDigits_text hfraction (endsDigits_exponent hexponent hr)
  obtain ⟨o', hpast⟩ : ∃ o', pastFraction ⟨fractionText fraction ++ (exponent.elim [] Exponent.text ++ r), o⟩ =
      ⟨exponent.elim [] Exponent.text ++ r, o'⟩ := ⟨_, congrArg (Scan.mk · _) ((rest_pastFraction _).trans hbehind)⟩
  cases exponent with
  | none =>
      have hnone : exponentPart (behindFraction (fractionText fraction ++ r)) = none := by
        rw [show behindFraction (fractionText fraction ++ r) = r from hbehind]
        exact exponentPart_none hr
      have hinteger : Numeral.isInteger ⟨negative, whole, fraction, none⟩ = fraction.isEmpty := Bool.and_true _
      refine ⟨o', ?_⟩
      rw [scanTail_none hnone, hpast, hinteger]
      dsimp only
      rw [hdigits]
      rfl
  | some e =>
      have hsome : exponentPart (behindFraction (fractionText fraction ++ (e.text ++ r))) =
          some (e.down, e.digits, e.text.length) := by
        rw [show behindFraction (fractionText fraction ++ (e.text ++ r)) = e.text ++ r from hbehind]
        exact exponentPart_text (hexponent e rfl) hr
      have hinteger : Numeral.isInteger ⟨negative, whole, fraction, some e⟩ = false := Bool.and_false _
      refine ⟨o' + e.text.length, ?_⟩
      rw [scanTail_some hsome, hpast, hinteger, if_neg fun h => Bool.false_ne_true h.1]
      dsimp only
      rw [hdigits, Option.elim_some, Scan.skip, List.drop_left]

/-- What comes of scanning a number that nothing goes on with: an integer may have too many digits. -/
theorem scanNumber_text {n : Numeral} (hn : n.WellFormed) {r : List Char} (hr : EndsNumber r) (o : Nat) :
    ∃ o', scanNumber ⟨n.text ++ r, o⟩ =
      if n.isInteger = true ∧ 4300 < n.whole.length then .error ⟨.tooManyDigits n.whole.length, o⟩
      else .ok (n.value, ⟨r, o'⟩) := by
  have htext : n.text ++ r =
      signText n.negative ++ (n.whole ++ (fractionText n.fraction ++ (n.exponent.elim [] Exponent.text ++ r))) := by
    rw [Numeral.text, Numeral.unsigned, List.append_assoc, List.append_assoc, List.append_assoc]
  have hends : ∀ c ∈ (fractionText n.fraction ++ (n.exponent.elim [] Exponent.text ++ r)).head?, c.isDigit = false :=
    endsDigits_fraction (endsDigits_exponent hn.exponent hr)
  rw [htext, scanNumber_signed n.negative fun _ => hn.whole.head?_ne _]
  unfold scanUnsigned
  dsimp only
  rw [wholeOf_append hn.whole hends, if_neg fun h => hn.whole.ne_nil (List.isEmpty_iff.mp h), Scan.skip,
    List.drop_left]
  exact scanTail_text n.negative n.whole hn.fraction hn.exponent hr _ _

/-! ### Too many digits -/

/-- More digits in a row than an integer may have. -/
def LongRun (s : List Char) : Prop := ∃ digits, digits <:+: s ∧ Digits digits ∧ 4300 < digits.length

theorem LongRun.of_suffix {r s : List Char} (h : LongRun r) (hs : r <:+ s) : LongRun s := by
  obtain ⟨digits, hinfix, hdigits, hlong⟩ := h
  exact ⟨digits, hinfix.trans hs.isInfix, hdigits, hlong⟩

theorem Whole.digits {w : List Char} (hw : Whole w) : Digits w := by
  rcases hw with rfl | ⟨-, hdigits, -⟩
  · exact List.forall_mem_singleton.mpr rfl
  · exact hdigits

theorem longRun_of_scanNumber {s : List Char} {o o' n : Nat}
    (h : scanNumber ⟨s, o⟩ = .error ⟨.tooManyDigits n, o'⟩) : LongRun s := by
  rcases scanNumber_cases s o with hfails | ⟨negative, body, after, rfl, hwhole, -, htail⟩
  · rw [hfails] at h
    cases h
  · rw [htail] at h
    have hinfix : wholeOf body <:+: signText negative ++ body :=
      (prefix_wholeOf body).isInfix.trans (List.suffix_append _ _).isInfix
    exact ⟨_, hinfix, hwhole.digits, long_of_scanTail h⟩

end GrammarBench.Value
