import GrammarBench.Value.Reader

/-!
# Quoted texts

Texts between quotes, with their escapes, and what is scanned of them. Two code units that are the halves of one
character make that character.

* `Piece`, `Quoted`: how a unit is written, and what text stands between quotes at the front of some characters.
* `quoted_of_scanText`, `scanText_of_quoted`: what is scanned is a quoted text, and every quoted text is scanned.
-/

namespace GrammarBench.Value

/-! ## Quoted texts -/

/-- What a quoted text is made of: characters, and code units of which two may make one character. -/
inductive TextUnit where
  | char (c : Char)
  | code (n : Nat)

def isHigh (n : Nat) : Bool := 0xD800 ≤ n && n < 0xDC00

def isLow (n : Nat) : Bool := 0xDC00 ≤ n && n < 0xE000

/-- The character of two halves. -/
def pairOf (high low : Nat) : Char := Char.ofNat (0x10000 + (high - 0xD800) * 0x400 + (low - 0xDC00))

/-- The characters of units: a high half and the low half behind it make one of them. -/
def joined : List TextUnit → List Char
  | [] => []
  | .char c :: us => c :: joined us
  | .code n :: .code m :: us =>
    if isHigh n && isLow m then pairOf n m :: joined us else charOf n :: joined (.code m :: us)
  | .code n :: us => charOf n :: joined us

/-- The letters behind a backslash, with what they stand for. -/
def escapes : List (Char × Char) :=
  [('"', '"'), ('\\', '\\'), ('/', '/'), ('b', '\x08'), ('f', '\x0c'), ('n', '\n'), ('r', '\r'), ('t', '\t')]

/-- How a unit is written. -/
inductive Piece : List Char → TextUnit → Prop
  | plain {c : Char} : 32 ≤ c.toNat → c ≠ '"' → c ≠ '\\' → Piece [c] (.char c)
  | escape {c d : Char} : (c, d) ∈ escapes → Piece ['\\', c] (.char d)
  | code {digits : List Char} {n : Nat} : codeUnit? digits = some n → Piece ('\\' :: 'u' :: digits) (.code n)

/-- Units up to the closing quote, and what is behind it. -/
inductive Pieces : List Char → List TextUnit → List Char → Prop
  | close {r : List Char} : Pieces ('"' :: r) [] r
  | piece {p s r : List Char} {u : TextUnit} {us : List TextUnit} :
      Piece p u → Pieces s us r → Pieces (p ++ s) (u :: us) r

/-- A quoted text, and what is behind it. -/
inductive Quoted : List Char → String → List Char → Prop
  | mk {s r : List Char} {us : List TextUnit} : Pieces s us r → Quoted ('"' :: s) (String.ofList (joined us)) r

/-! ## Scanning quoted texts -/

theorem codeUnit?_length {digits : List Char} {n : Nat} (h : codeUnit? digits = some n) : digits.length = 4 := by
  unfold codeUnit? at h
  split at h
  · rename_i hdigits
    exact hdigits.1
  · cases h

theorem Pieces.ne_nil {s r : List Char} {us : List TextUnit} (h : Pieces s us r) : s ≠ [] := by
  cases h with
  | close => exact List.cons_ne_nil _ _
  | piece hp _ => cases hp <;> exact List.cons_ne_nil _ _

/-- A low half is seen just if it comes next, and something behind it. -/
theorem lowHalf?_eq_some {rest : List Char} {m : Nat} :
    lowHalf? rest = some (some m) ↔ isLow m = true ∧ ∃ digits more, codeUnit? digits = some m ∧ more ≠ [] ∧
      rest = '\\' :: 'u' :: (digits ++ more) := by
  have hlow : isLow m = true ↔ 0xDC00 ≤ m ∧ m < 0xE000 := by
    unfold isLow
    rw [Bool.and_eq_true, decide_eq_true_iff, decide_eq_true_iff]
  constructor
  · intro h
    unfold lowHalf? at h
    split at h
    · rename_i digits
      split at h
      · cases h
      · rename_i hlength
        split at h
        · cases h
        · rename_i n hunit
          split at h
          · rename_i hbounds
            obtain rfl := Option.some.inj (Option.some.inj h)
            refine ⟨hlow.mpr hbounds, digits.take 4, digits.drop 4, hunit, ?_, ?_⟩
            · rw [Ne, List.drop_eq_nil_iff]
              exact hlength
            · rw [List.take_append_drop]
          · cases h
    · cases h
  · rintro ⟨hbounds, digits, more, hunit, hmore, rfl⟩
    have hlength := codeUnit?_length hunit
    have htake : (digits ++ more).take 4 = digits := by rw [← hlength, List.take_left]
    have hlong : ¬ (digits ++ more).length ≤ 4 := by
      have := List.length_pos_iff.mpr hmore
      rw [List.length_append]
      omega
    show (if (digits ++ more).length ≤ 4 then none else _) = _
    rw [if_neg hlong, htake, hunit]
    exact if_pos (hlow.mp hbounds)

theorem joined_code {n : Nat} {us : List TextUnit}
    (h : ∀ m us', us = .code m :: us' → isHigh n = true → isLow m = false) :
    joined (.code n :: us) = charOf n :: joined us := by
  cases us with
  | nil => rfl
  | cons u us =>
      cases u with
      | char c => rfl
      | code m =>
          rw [joined, if_neg]
          rw [Bool.and_eq_true]
          rintro ⟨hhigh, hlow⟩
          rw [h m us rfl hhigh] at hlow
          cases hlow

theorem joined_pair {n m : Nat} {us : List TextUnit} (hn : isHigh n = true) (hm : isLow m = true) :
    joined (.code n :: .code m :: us) = pairOf n m :: joined us := by
  rw [joined, hn, hm]
  rfl

section

variable {opened fuel o : Nat} {c d : Char} {r digits digits' done : List Char} {n m : Nat}

theorem scanText_close :
    scanText opened (fuel + 1) ⟨'"' :: r, o⟩ done = .ok (String.ofList done.reverse, ⟨r, o + 1⟩) :=
  rfl

theorem scanText_plain (h32 : 32 ≤ c.toNat) (hquote : c ≠ '"') (hslash : c ≠ '\\') :
    scanText opened (fuel + 1) ⟨c :: r, o⟩ done = scanText opened fuel ⟨r, o + 1⟩ (c :: done) := by
  rw [scanText]
  split
  · rename_i h
    cases h
  · rename_i h
    exact absurd (List.cons.inj h).1 hquote
  · rename_i h
    exact absurd (List.cons.inj h).1 hslash
  · rename_i h
    exact absurd (List.cons.inj h).1 hslash
  · rename_i h
    exact absurd (List.cons.inj h).1 hslash
  · rename_i h
    obtain ⟨rfl, rfl⟩ := List.cons.inj h
    rw [if_neg (Nat.not_lt.mpr h32)]
    rfl

theorem scanText_escape (h : (c, d) ∈ escapes) :
    scanText opened (fuel + 1) ⟨'\\' :: c :: r, o⟩ done = scanText opened fuel ⟨r, o + 2⟩ (d :: done) := by
  simp only [escapes, List.mem_cons, Prod.mk.injEq, List.not_mem_nil, or_false] at h
  rcases h with ⟨rfl, rfl⟩ | ⟨rfl, rfl⟩ | ⟨rfl, rfl⟩ | ⟨rfl, rfl⟩ | ⟨rfl, rfl⟩ | ⟨rfl, rfl⟩ | ⟨rfl, rfl⟩ | ⟨rfl, rfl⟩
  all_goals rfl

theorem scanText_unit {more : List Char} :
    scanText opened (fuel + 1) ⟨'\\' :: 'u' :: more, o⟩ done =
      match codeUnit? (more.take 4) with
      | none => Scan.fail ⟨'u' :: more, o + 1⟩ .badCode
      | some n =>
        if more.length ≤ 4 then Scan.fail ⟨'u' :: more, o + 1⟩ .badCode
        else if 0xD800 ≤ n ∧ n < 0xDC00 then
          match lowHalf? (more.drop 4) with
          | none => scanText opened fuel ⟨more.drop 4, o + 6⟩ (charOf n :: done)
          | some none => Scan.fail ⟨more.drop 5, o + 7⟩ .badCode
          | some (some m) => scanText opened fuel ⟨more.drop 10, o + 12⟩ (pairOf n m :: done)
        else scanText opened fuel ⟨more.drop 4, o + 6⟩ (charOf n :: done) :=
  rfl

theorem isHigh_iff : isHigh n = true ↔ 0xD800 ≤ n ∧ n < 0xDC00 := by
  unfold isHigh
  rw [Bool.and_eq_true, decide_eq_true_iff, decide_eq_true_iff]

/-- The front of what follows the letter of a code unit. -/
theorem front_code (hdigits : codeUnit? digits = some n) (hr : r ≠ []) :
    (digits ++ r).take 4 = digits ∧ (digits ++ r).drop 4 = r ∧ ¬ (digits ++ r).length ≤ 4 := by
  have hlength := codeUnit?_length hdigits
  have hpos := List.length_pos_iff.mpr hr
  refine ⟨by rw [← hlength, List.take_left], by rw [← hlength, List.drop_left], ?_⟩
  rw [List.length_append]
  omega

theorem scanText_lone (hdigits : codeUnit? digits = some n) (hr : r ≠ [])
    (hnext : isHigh n = true → lowHalf? r = none) :
    scanText opened (fuel + 1) ⟨'\\' :: 'u' :: (digits ++ r), o⟩ done =
      scanText opened fuel ⟨r, o + 6⟩ (charOf n :: done) := by
  obtain ⟨htake, hdrop, hlong⟩ := front_code hdigits hr
  rw [scanText_unit, htake, hdrop, hdigits]
  dsimp only
  rw [if_neg hlong]
  by_cases hhigh : isHigh n = true
  · rw [if_pos (isHigh_iff.mp hhigh), hnext hhigh]
  · rw [if_neg fun h => hhigh (isHigh_iff.mpr h)]

theorem scanText_pair (hdigits : codeUnit? digits = some n) (hn : isHigh n = true)
    (hdigits' : codeUnit? digits' = some m) (hm : isLow m = true) (hr : r ≠ []) :
    scanText opened (fuel + 1) ⟨'\\' :: 'u' :: (digits ++ '\\' :: 'u' :: (digits' ++ r)), o⟩ done =
      scanText opened fuel ⟨r, o + 12⟩ (pairOf n m :: done) := by
  obtain ⟨htake, hdrop, hlong⟩ := front_code (r := '\\' :: 'u' :: (digits' ++ r)) hdigits (List.cons_ne_nil _ _)
  have hbehind : (digits ++ '\\' :: 'u' :: (digits' ++ r)).drop 10 = r := by
    rw [show 10 = 4 + 6 from rfl, ← List.drop_drop, hdrop]
    exact (front_code hdigits' hr).2.1
  rw [scanText_unit, htake, hdigits]
  dsimp only
  rw [if_neg hlong, if_pos (isHigh_iff.mp hn), hdrop, lowHalf?_eq_some.mpr ⟨hm, digits', r, hdigits', hr, rfl⟩,
    hbehind]

end

/-- No low half comes next where none of the units is one. -/
theorem lowHalf?_eq_none {s r : List Char} {us : List TextUnit} (h : Pieces s us r)
    (hunits : ∀ m us', us = .code m :: us' → isLow m = false) : lowHalf? s = none := by
  cases h with
  | close => rfl
  | @piece p s' r u us hp hrest =>
      cases hp with
      | @plain c h32 hquote hslash =>
          unfold lowHalf?
          split
          · rename_i heq
            exact absurd (List.cons.inj heq).1 hslash
          · rfl
      | @escape c d hcd =>
          unfold lowHalf?
          split
          · rename_i heq
            obtain ⟨rfl, -⟩ := List.cons.inj (List.cons.inj heq).2
            simp [escapes] at hcd
          · rfl
      | @code digits n hdigits =>
          obtain ⟨htake, -, hlong⟩ := front_code hdigits hrest.ne_nil
          have hlow := hunits n us rfl
          show (if (digits ++ s').length ≤ 4 then none else match codeUnit? ((digits ++ s').take 4) with
            | none => some none
            | some n => if 0xDC00 ≤ n ∧ n < 0xE000 then some (some n) else none) = none
          rw [if_neg hlong, htake, hdigits]
          refine if_neg fun hbounds => ?_
          unfold isLow at hlow
          rw [Bool.and_eq_false_iff, decide_eq_false_iff_not, decide_eq_false_iff_not] at hlow
          omega

/-- A low half is seen where one is written. -/
theorem lowHalf?_of_pieces {m : Nat} {s r : List Char} {us : List TextUnit} (h : Pieces s (.code m :: us) r)
    (hm : isLow m = true) : lowHalf? s = some (some m) := by
  cases h with
  | piece hp hrest =>
      cases hp with
      | code hdigits => exact lowHalf?_eq_some.mpr ⟨hm, _, _, hdigits, hrest.ne_nil, rfl⟩

theorem reverse_cons_append (c : Char) (done behind : List Char) :
    (c :: done).reverse ++ behind = done.reverse ++ c :: behind := by
  rw [List.reverse_cons, List.append_assoc]
  rfl

/-- What is scanned with some fuel is made of units. -/
def Sound (opened fuel : Nat) : Prop :=
  ∀ {r : List Char} {o : Nat} {done : List Char} {t : String} {s : Scan},
    scanText opened fuel ⟨r, o⟩ done = .ok (t, s) →
      ∃ us, Pieces r us s.rest ∧ t = String.ofList (done.reverse ++ joined us)

section

variable {opened fuel o : Nat} {c : Char} {more done : List Char} {t : String} {s : Scan}

/-- A piece in front of what is scanned. -/
theorem Sound.put (hsound : Sound opened fuel) {u : TextUnit} {p : List Char} (hp : Piece p u)
    (hc : ∀ us, Pieces more us s.rest → joined (u :: us) = c :: joined us)
    (h : scanText opened fuel ⟨more, o⟩ (c :: done) = .ok (t, s)) :
    ∃ us, Pieces (p ++ more) us s.rest ∧ t = String.ofList (done.reverse ++ joined us) := by
  obtain ⟨us, hus, rfl⟩ := hsound h
  exact ⟨u :: us, .piece hp hus, by rw [hc us hus, reverse_cons_append]⟩

/-- A code unit in front: the half of a character that the next one completes, or a character of its own. -/
theorem Sound.code (hsound : Sound opened fuel)
    (h : scanText opened (fuel + 1) ⟨'\\' :: 'u' :: more, o⟩ done = .ok (t, s)) :
    ∃ us, Pieces ('\\' :: 'u' :: more) us s.rest ∧ t = String.ofList (done.reverse ++ joined us) := by
  have hmore : '\\' :: 'u' :: more = '\\' :: 'u' :: more.take 4 ++ more.drop 4 := by
    rw [List.cons_append, List.cons_append, List.take_append_drop]
  rw [scanText_unit] at h
  split at h
  · cases h
  rename_i n hunit
  split at h
  · cases h
  split at h
  · rename_i hhigh
    split at h
    · rename_i hnone
      rw [hmore]
      refine hsound.put (.code hunit) (fun us hus => joined_code fun m us' heq _ => ?_) h
      rw [heq] at hus
      refine Bool.eq_false_iff.mpr fun hm => ?_
      rw [lowHalf?_of_pieces hus hm] at hnone
      cases hnone
    · cases h
    · rename_i m hlow
      obtain ⟨hm, digits, behind, hunit', hne, hdrop⟩ := lowHalf?_eq_some.mp hlow
      have hbehind : more.drop 10 = behind := by
        rw [show 10 = 4 + 6 from rfl, ← List.drop_drop, hdrop]
        exact (front_code hunit' hne).2.1
      rw [hbehind] at h
      obtain ⟨us, hus, rfl⟩ := hsound h
      refine ⟨.code n :: .code m :: us, ?_, ?_⟩
      · rw [hmore, hdrop]
        exact .piece (.code hunit) (.piece (p := '\\' :: 'u' :: digits) (.code hunit') hus)
      · rw [joined_pair (isHigh_iff.mpr hhigh) hm, reverse_cons_append]
  · rename_i hhigh
    rw [hmore]
    refine hsound.put (.code hunit) (fun us _ => joined_code fun m us' _ hn => ?_) h
    exact absurd (isHigh_iff.mp hn) hhigh

end

/-- What is scanned as a quoted text is one. -/
theorem sound_scanText (opened fuel : Nat) : Sound opened fuel := by
  induction fuel with
  | zero => exact fun h => nomatch h
  | succ fuel ih =>
      intro r o done t s h
      have hscan := h
      rw [scanText] at h
      dsimp only at h
      split at h
      · cases h
      · cases h
        exact ⟨[], .close, by rw [joined, List.append_nil]⟩
      · cases h
      · exact ih.code hscan
      · rename_i c more hc
        have hescape {d : Char} (hd : (c, d) ∈ escapes)
            (h : scanText opened fuel ⟨more, o + 2⟩ (d :: done) = .ok (t, s)) :
            ∃ us, Pieces ('\\' :: c :: more) us s.rest ∧ t = String.ofList (done.reverse ++ joined us) :=
          ih.put (p := ['\\', c]) (.escape hd) (fun us _ => rfl) h
        split at h
        iterate 8 exact hescape (by simp [escapes]) h
        cases h
      · rename_i c more hquote hlast hunit hslash
        split at h
        · cases h
        · rename_i h32
          refine ih.put (p := [c]) (.plain (Nat.le_of_not_lt h32) hquote fun hc => ?_) (fun us _ => rfl) h
          cases more with
          | nil => exact hlast hc rfl
          | cons d more => exact hslash d more hc rfl

/-- Some units are scanned wherever they are written. -/
def Scans (opened : Nat) (us : List TextUnit) (r : List Char) : Prop :=
  ∀ {s : List Char}, Pieces s us r → ∀ {fuel : Nat}, s.length ≤ fuel → ∀ (o : Nat) (done : List Char),
    ∃ o', scanText opened (fuel + 1) ⟨s, o⟩ done = .ok (String.ofList (done.reverse ++ joined us), ⟨r, o'⟩)

/-- One more character in front of units that are scanned. -/
theorem Scans.put {opened : Nat} {us us' : List TextUnit} {s t r : List Char} {c : Char} (h : Scans opened us r)
    (hs : Pieces s us r) (hjoined : joined us' = c :: joined us) {fuel : Nat} (hfuel : t.length ≤ fuel)
    (hlength : s.length < t.length) {o o' : Nat} {done : List Char}
    (hstep : scanText opened (fuel + 1) ⟨t, o⟩ done = scanText opened fuel ⟨s, o'⟩ (c :: done)) :
    ∃ o', scanText opened (fuel + 1) ⟨t, o⟩ done =
      .ok (String.ofList (done.reverse ++ joined us'), ⟨r, o'⟩) := by
  cases fuel with
  | zero => omega
  | succ fuel =>
      have hroom : s.length ≤ fuel := by omega
      obtain ⟨o'', hscan⟩ := h hs hroom o' (c :: done)
      exact ⟨o'', by rw [hstep, hscan, hjoined, reverse_cons_append]⟩

/-- A code unit that does not make a character with the unit behind it. -/
theorem Scans.code {opened n : Nat} {us : List TextUnit} {r : List Char} (h : Scans opened us r)
    (hlow : ∀ m us', us = .code m :: us' → isHigh n = true → isLow m = false) : Scans opened (.code n :: us) r := by
  intro s hs fuel hfuel o done
  cases hs with
  | piece hp hrest =>
      cases hp with
      | code hdigits =>
          exact h.put hrest (joined_code hlow) hfuel (by simp; omega) (scanText_lone hdigits hrest.ne_nil
            fun hn => lowHalf?_eq_none hrest fun m us' heq => hlow m us' heq hn)

/-- A quoted text is scanned as such. -/
theorem scans_pieces (opened : Nat) (us : List TextUnit) (r : List Char) : Scans opened us r := by
  induction us using joined.induct with
  | case1 =>
      intro s h fuel hfuel o done
      cases h with
      | close => exact ⟨o + 1, by rw [scanText_close, joined, List.append_nil]⟩
  | case2 c us ih =>
      intro s h fuel hfuel o done
      cases h with
      | piece hp hrest =>
          cases hp with
          | plain h32 hquote hslash =>
              exact ih.put hrest rfl hfuel (Nat.lt_succ_self _) (scanText_plain h32 hquote hslash)
          | escape hcd =>
              refine ih.put hrest rfl hfuel ?_ (scanText_escape hcd)
              rw [List.length_append]
              exact Nat.lt_add_of_pos_left (Nat.succ_pos _)
  | case3 n m us hpair ih =>
      intro s h fuel hfuel o done
      obtain ⟨hn, hm⟩ := Bool.and_eq_true_iff.mp hpair
      cases h with
      | piece hp hrest =>
          cases hp with
          | code hdigits =>
              cases hrest with
              | piece hp' hrest' =>
                  cases hp' with
                  | code hdigits' =>
                      refine ih.put hrest' (joined_pair hn hm) hfuel ?_
                        (scanText_pair hdigits hn hdigits' hm hrest'.ne_nil)
                      rw [List.length_append, List.length_append, ← Nat.add_assoc]
                      exact Nat.lt_add_of_pos_left (Nat.succ_pos _)
  | case4 n m us hpair ih =>
      refine ih.code fun m' us' heq hn => Bool.eq_false_iff.mpr fun hlow => hpair ?_
      obtain ⟨hm, -⟩ := List.cons.inj heq
      rw [hn, TextUnit.code.inj hm, hlow]
      rfl
  | case5 n us hcode ih => exact ih.code fun m us' heq => (hcode m us' heq).elim

theorem quoted_of_scanText {opened fuel o : Nat} {s : List Char} {s' : Scan} {t : String}
    (h : scanText opened fuel ⟨s, o⟩ [] = .ok (t, s')) : Quoted ('"' :: s) t s'.rest := by
  obtain ⟨us, hus, rfl⟩ := sound_scanText _ _ h
  exact .mk hus

theorem scanText_of_quoted {s r : List Char} {t : String} (h : Quoted ('"' :: s) t r) (opened o : Nat) {fuel : Nat}
    (hfuel : s.length ≤ fuel) : ∃ o', scanText opened (fuel + 1) ⟨s, o⟩ [] = .ok (t, ⟨r, o'⟩) := by
  cases h with
  | mk hus => exact scans_pieces opened _ r hus hfuel o []

/-- A quoted text has no number of digits. -/
theorem scanText_ne_tooManyDigits {opened fuel : Nat} {s : Scan} {done : List Char} {n o : Nat} :
    scanText opened fuel s done ≠ .error ⟨.tooManyDigits n, o⟩ := by
  induction fuel generalizing s done with
  | zero => exact fun h => nomatch h
  | succ fuel ih =>
      intro h
      rw [scanText] at h
      dsimp only at h
      split at h
      · cases h
      · cases h
      · cases h
      · split at h
        · cases h
        · split at h
          · cases h
          · split at h
            · split at h
              · exact ih h
              · cases h
              · exact ih h
            · exact ih h
      · split at h
        iterate 8 exact ih h
        cases h
      · split at h
        · cases h
        · exact ih h

end GrammarBench.Value
