import GrammarBench.Proofs.ValueTexts
import GrammarBench.Text.Lines

/-!
# Line ends

A text that is read from a file has its lines ended by newlines. Line ends stand between values only, never in
them: with whatever line ends a text writes a value, it writes the same value when it is read.

* `universal_append`, `of_universal_append`: what goes over no line end is left as it is.
* `universal_eq_readFrom`: what each character of a text is read as, by the one before it.
* `Reads.universal`, `Reads.of_universal`: what stands at the front of a text, before and after it is read.
* `document_universal`: a text writes what it writes with newlines.
-/

namespace GrammarBench

/-! ## Texts -/

namespace Text

/-- No line ends in the text. -/
def Unbroken (s : List Char) : Prop := ∀ c ∈ s, c ≠ '\n' ∧ c ≠ '\r'

instance : DecidablePred Unbroken := fun s =>
  decidable_of_iff (s.all fun c => decide (c ≠ '\n' ∧ c ≠ '\r')) (by simp [Unbroken])

theorem Unbroken.append {s t : List Char} (hs : Unbroken s) (ht : Unbroken t) : Unbroken (s ++ t) :=
  List.forall_mem_append.mpr ⟨hs, ht⟩

theorem unbroken_cons {c : Char} {s : List Char} : Unbroken (c :: s) ↔ (c ≠ '\n' ∧ c ≠ '\r') ∧ Unbroken s :=
  List.forall_mem_cons

theorem universal_cons {c : Char} (hc : c ≠ '\r') (t : List Char) : universal (c :: t) = c :: universal t := by
  rw [universal]
  · exact fun _ h => absurd h hc
  · exact hc

theorem head?_ne_of_ne_cons {c : Char} {s : List Char} (h : ∀ r, s = c :: r → False) : s.head? ≠ some c := by
  intro hhead
  obtain ⟨r, rfl⟩ := List.head?_eq_some_iff.mp hhead
  exact h r rfl

theorem universal_return {t : List Char} (ht : t.head? ≠ some '\n') :
    universal ('\r' :: t) = '\n' :: universal t := by
  rw [universal]
  rintro r rfl
  exact ht rfl

theorem universal_append {w : List Char} (hw : Unbroken w) (t : List Char) :
    universal (w ++ t) = w ++ universal t := by
  induction w with
  | nil => rfl
  | cons c w ih =>
      obtain ⟨hc, hw⟩ := unbroken_cons.mp hw
      rw [List.cons_append, universal_cons hc.2, ih hw]
      rfl

/-- Two texts are read one after the other where no line end goes over from one to the other. -/
theorem universal_append_of_head? (s : List Char) {r : List Char} (hr : r.head? ≠ some '\n') :
    universal (s ++ r) = universal s ++ universal r := by
  induction s using universal.induct with
  | case1 => rfl
  | case2 s ih => exact congrArg ('\n' :: ·) ih
  | case3 s hs ih =>
      have hhead := head?_ne_of_ne_cons hs
      have hhead' : (s ++ r).head? ≠ some '\n' := by
        cases s with
        | nil => exact hr
        | cons c s => exact hhead
      rw [List.cons_append, universal_return hhead, universal_return hhead', ih]
      rfl
  | case4 c s hs hc ih =>
      rw [List.cons_append, universal_cons hc, universal_cons hc, ih]
      rfl

/-- How a text begins that is read with a newline in front. -/
theorem of_universal_newline {t x : List Char} (h : universal t = '\n' :: x) :
    ∃ e t', t = e ++ t' ∧ (∀ c ∈ e, c = '\n' ∨ c = '\r') ∧ universal t' = x := by
  unfold universal at h
  split at h
  · cases h
  · rename_i r
    exact ⟨['\r', '\n'], r, rfl, by simp, (List.cons.inj h).2⟩
  · rename_i r _
    exact ⟨['\r'], r, rfl, by simp, (List.cons.inj h).2⟩
  · rename_i c r _ _
    obtain ⟨rfl, hr⟩ := List.cons.inj h
    exact ⟨['\n'], r, rfl, by simp, hr⟩

theorem of_universal_cons {t x : List Char} {c : Char} (hc : c ≠ '\n') (h : universal t = c :: x) :
    ∃ t', t = c :: t' ∧ universal t' = x := by
  unfold universal at h
  split at h
  · cases h
  · exact absurd (List.cons.inj h).1.symm hc
  · exact absurd (List.cons.inj h).1.symm hc
  · rename_i d r _ _
    obtain ⟨rfl, hr⟩ := List.cons.inj h
    exact ⟨r, rfl, hr⟩

theorem of_universal_append {w : List Char} (hw : Unbroken w) {t x : List Char} (h : universal t = w ++ x) :
    ∃ t', t = w ++ t' ∧ universal t' = x := by
  induction w generalizing t with
  | nil => exact ⟨t, rfl, h⟩
  | cons c w ih =>
      obtain ⟨hc, hw⟩ := unbroken_cons.mp hw
      obtain ⟨t₁, rfl, h₁⟩ := of_universal_cons hc.1 h
      obtain ⟨t₂, rfl, h₂⟩ := ih hw h₁
      exact ⟨t₂, rfl, h₂⟩

/-- What is read in front comes of what is in front; there are only line ends to be read as others. -/
theorem of_universal_split {t a x : List Char} (h : universal t = a ++ x) :
    ∃ a' t', t = a' ++ t' ∧ (∀ c ∈ a', c ∈ a ∨ c = '\n' ∨ c = '\r') ∧ universal t' = x := by
  induction a generalizing t with
  | nil => exact ⟨[], t, rfl, fun _ hc => (nomatch hc), h⟩
  | cons c a ih =>
      have hfront : ∃ e t', t = e ++ t' ∧ (∀ d ∈ e, d = c ∨ d = '\n' ∨ d = '\r') ∧ universal t' = a ++ x := by
        by_cases hnewline : c = '\n'
        · obtain ⟨e, t', ht, he, h⟩ := of_universal_newline (hnewline ▸ h)
          exact ⟨e, t', ht, fun d hd => Or.inr (he d hd), h⟩
        · obtain ⟨t', ht, h⟩ := of_universal_cons hnewline h
          exact ⟨[c], t', ht, fun d hd => Or.inl (List.mem_singleton.mp hd), h⟩
      obtain ⟨e, t', rfl, he, h⟩ := hfront
      obtain ⟨a', t'', rfl, ha', h⟩ := ih h
      refine ⟨e ++ a', t'', (List.append_assoc e a' t'').symm, fun d hd => ?_, h⟩
      rcases List.mem_append.mp hd with hd | hd
      · exact (he d hd).imp_left fun heq => List.mem_cons.mpr (Or.inl heq)
      · exact (ha' d hd).imp_left (List.mem_cons_of_mem c)

theorem universal_eq_nil {t : List Char} (h : universal t = []) : t = [] := by
  unfold universal at h
  split at h
  · rfl
  all_goals cases h

/-! ## Characters in their places -/

/-- What a character is read as behind another one: a carriage return as a newline, a newline behind a carriage return
not at all, since the two end one line, and any other character as it is. -/
def readBehind (before : Option Char) (c : Char) : List Char :=
  if c = '\r' then ['\n'] else if before = some '\r' ∧ c = '\n' then [] else [c]

/-- The characters of a text, each read behind the one before it. -/
def readFrom (before : Option Char) (text : List Char) : List Char :=
  (List.zipWith readBehind (before :: text.map some) text).flatten

theorem readFrom_cons (before : Option Char) (c : Char) (text : List Char) :
    readFrom before (c :: text) = readBehind before c ++ readFrom (some c) text := rfl

theorem readBehind_of_ne {before : Option Char} {c : Char} (hreturn : c ≠ '\r')
    (h : before ≠ some '\r' ∨ c ≠ '\n') : readBehind before c = [c] := by
  unfold readBehind
  rw [if_neg hreturn, if_neg (not_and_or.mpr h)]

/-- A text is read character by character, where no line end has begun before it. -/
theorem universal_eq_readFrom {before : Option Char} {text : List Char}
    (h : before ≠ some '\r' ∨ text.head? ≠ some '\n') : universal text = readFrom before text := by
  induction text using universal.induct generalizing before with
  | case1 => rfl
  | case2 s ih =>
      rw [readFrom_cons, readFrom_cons, ← ih (Or.inl (by decide))]
      rfl
  | case3 s hs ih =>
      have hhead := head?_ne_of_ne_cons hs
      rw [universal_return hhead, readFrom_cons, ← ih (Or.inr hhead)]
      rfl
  | case4 c s hs hc ih =>
      have hplain : before ≠ some '\r' ∨ c ≠ '\n' := h.imp_right fun hne heq => hne (congrArg some heq)
      rw [universal_cons hc, readFrom_cons, readBehind_of_ne hc hplain,
        ← ih (Or.inl fun heq => hc (Option.some.inj heq))]
      rfl

theorem not_mem_readBehind (before : Option Char) (c : Char) : '\r' ∉ readBehind before c := by
  unfold readBehind
  split
  · decide
  · next hreturn =>
    split
    · exact List.not_mem_nil
    · exact fun h => hreturn (List.mem_singleton.mp h).symm

/-- No carriage return is left in what is read. -/
theorem not_mem_readFrom (before : Option Char) (text : List Char) : '\r' ∉ readFrom before text := by
  induction text generalizing before with
  | nil => exact List.not_mem_nil
  | cons c text ih =>
      rw [readFrom_cons, List.mem_append, not_or]
      exact ⟨not_mem_readBehind before c, ih (some c)⟩

end Text

namespace Value

open Text

/-! ## Parts of values -/

theorem Space.universal {space : List Char} (h : Space space) : Space (Text.universal space) := by
  induction space using Text.universal.induct with
  | case1 => exact h
  | case2 s ih =>
      have hs := (List.forall_mem_cons.mp (List.forall_mem_cons.mp h).2).2
      exact List.forall_mem_cons.mpr ⟨rfl, ih hs⟩
  | case3 s hs ih =>
      have hhead := head?_ne_of_ne_cons hs
      rw [universal_return hhead]
      exact List.forall_mem_cons.mpr ⟨rfl, ih (List.forall_mem_cons.mp h).2⟩
  | case4 c s hs hc ih =>
      rw [universal_cons hc]
      exact List.forall_mem_cons.mpr ⟨(List.forall_mem_cons.mp h).1, ih (List.forall_mem_cons.mp h).2⟩

theorem of_universal_space {space : List Char} (hspace : Space space) {t x : List Char}
    (h : Text.universal t = space ++ x) : ∃ space' t', t = space' ++ t' ∧ Space space' ∧ Text.universal t' = x := by
  obtain ⟨space', t', ht, hfrom, h⟩ := of_universal_split h
  refine ⟨space', t', ht, fun c hc => ?_, h⟩
  rcases hfrom c hc with hc | rfl | rfl
  · exact hspace c hc
  · rfl
  · rfl

theorem unbroken_word {e : String × Value} (he : e ∈ words) : Unbroken e.1.toList := by
  simp only [words, List.mem_cons, List.not_mem_nil, or_false] at he
  rcases he with rfl | rfl | rfl | rfl | rfl | rfl
  all_goals decide

theorem Digits.unbroken {s : List Char} (h : Digits s) : Unbroken s := by
  intro c hc
  have hdigit := h c hc
  constructor
  all_goals
    rintro rfl
    cases hdigit

theorem IsSign.unbroken {s : List Char} (h : IsSign s) : Unbroken s := by
  rcases h with rfl | rfl | rfl
  all_goals decide

theorem Exponent.unbroken {e : Exponent} (h : e.WellFormed) : Unbroken e.text := by
  refine unbroken_cons.mpr ⟨?_, h.sign.unbroken.append h.digits.unbroken⟩
  rcases h.letter with hletter | hletter
  all_goals
    rw [hletter]
    decide

theorem Numeral.unbroken {n : Numeral} (h : n.WellFormed) : Unbroken n.text := by
  have hsign : Unbroken (signText n.negative) := by
    unfold signText
    split <;> decide
  have hfraction : Unbroken (fractionText n.fraction) := by
    unfold fractionText
    split
    · exact fun _ hc => nomatch hc
    · exact unbroken_cons.mpr ⟨by decide, h.fraction.unbroken⟩
  have hexponent : Unbroken (n.exponent.elim [] Exponent.text) := by
    cases hn : n.exponent with
    | none => exact fun _ hc => nomatch hc
    | some e => exact Exponent.unbroken (h.exponent e hn)
  exact hsign.append (h.whole.digits.unbroken.append (hfraction.append hexponent))

theorem unbroken_codeUnit? {digits : List Char} {n : Nat} (h : codeUnit? digits = some n) : Unbroken digits := by
  unfold codeUnit? at h
  split at h
  · rename_i hdigits
    intro c hc
    have hhex := List.all_eq_true.mp hdigits.2 c hc
    constructor
    all_goals
      rintro rfl
      cases hhex
  · cases h

theorem Piece.unbroken {p : List Char} {u : TextUnit} (h : Piece p u) : Unbroken p := by
  cases h with
  | @plain c h32 _ _ =>
      refine unbroken_cons.mpr ⟨⟨?_, ?_⟩, fun _ hc => nomatch hc⟩
      all_goals
        rintro rfl
        revert h32
        decide
  | @escape c d hcd =>
      simp only [escapes, List.mem_cons, Prod.mk.injEq, List.not_mem_nil, or_false] at hcd
      rcases hcd with ⟨rfl, -⟩ | ⟨rfl, -⟩ | ⟨rfl, -⟩ | ⟨rfl, -⟩ | ⟨rfl, -⟩ | ⟨rfl, -⟩ | ⟨rfl, -⟩ | ⟨rfl, -⟩
      all_goals decide
  | code hdigits =>
      exact unbroken_cons.mpr ⟨by decide, unbroken_cons.mpr ⟨by decide, unbroken_codeUnit? hdigits⟩⟩

/-- Units are written without line ends, whatever is behind them. -/
theorem Pieces.exists_front {s r : List Char} {us : List TextUnit} (h : Pieces s us r) :
    ∃ p, s = p ++ r ∧ Unbroken p ∧ ∀ r', Pieces (p ++ r') us r' := by
  induction h with
  | @close r => exact ⟨['"'], rfl, by decide, fun r' => .close⟩
  | @piece p s r u us hp _ ih =>
      obtain ⟨q, rfl, hq, hpieces⟩ := ih
      refine ⟨p ++ q, (List.append_assoc p q r).symm, hp.unbroken.append hq, fun r' => ?_⟩
      rw [List.append_assoc]
      exact .piece hp (hpieces r')

theorem Quoted.exists_front {s r : List Char} {t : String} (h : Quoted s t r) :
    ∃ p, s = p ++ r ∧ Unbroken p ∧ ∀ r', Quoted (p ++ r') t r' := by
  cases h with
  | mk hus =>
      obtain ⟨p, rfl, hp, hpieces⟩ := hus.exists_front
      exact ⟨'"' :: p, rfl, unbroken_cons.mpr ⟨by decide, hp⟩, fun r' => .mk (hpieces r')⟩

theorem Quoted.universal {s r : List Char} {t : String} (h : Quoted s t r) :
    Quoted (Text.universal s) t (Text.universal r) := by
  obtain ⟨p, rfl, hp, hquoted⟩ := h.exists_front
  rw [universal_append hp]
  exact hquoted _

theorem Quoted.of_universal {s r : List Char} {key : String} (h : Quoted s key r) {t : List Char}
    (ht : Text.universal t = s) : ∃ r', Text.universal r' = r ∧ Quoted t key r' := by
  obtain ⟨p, rfl, hp, hquoted⟩ := h.exists_front
  obtain ⟨r', rfl, hr'⟩ := of_universal_append hp ht
  exact ⟨r', hr', hquoted r'⟩

/-! ## Values -/

/-- A character that is no line end, behind white space. -/
theorem universal_space_cons (space : List Char) {c : Char} (hc : c ≠ '\n' ∧ c ≠ '\r') (r : List Char) :
    Text.universal (space ++ c :: r) = Text.universal space ++ c :: Text.universal r := by
  have hhead : (c :: r).head? ≠ some '\n' := fun h => hc.1 (Option.some.inj h)
  rw [universal_append_of_head? space hhead, universal_cons hc.2]

theorem of_universal_space_cons {space : List Char} (hspace : Space space) {c : Char} (hc : c ≠ '\n')
    {t r : List Char} (h : Text.universal t = space ++ c :: r) :
    ∃ space' r', t = space' ++ c :: r' ∧ Space space' ∧ Text.universal r' = r := by
  obtain ⟨space', t', rfl, hspace', h'⟩ := of_universal_space hspace h
  obtain ⟨r', rfl, hr'⟩ := of_universal_cons hc h'
  exact ⟨space', r', rfl, hspace', hr'⟩

/-- No value begins with a line end. -/
theorem head?_ne_newline {c : Char} {s t : List Char} (hs : s = c :: t) (hc : opensValue c = true) :
    s.head? ≠ some '\n' := by
  rw [hs]
  intro h
  rw [Option.some.inj h] at hc
  cases hc

theorem Reads.head?_ne {s r : List Char} {v : Value} (h : Reads s v r) : s.head? ≠ some '\n' := by
  obtain ⟨c, t, hs, hc⟩ := h.front
  exact head?_ne_newline hs hc

theorem ReadsItems.head?_ne {s r : List Char} {vs : List Value} (h : ReadsItems s vs r) : s.head? ≠ some '\n' := by
  obtain ⟨c, t, hs, hc⟩ := h.front
  exact head?_ne_newline hs hc

theorem ReadsEntries.head?_ne {s r : List Char} {es : List (String × Value)} (h : ReadsEntries s es r) :
    s.head? ≠ some '\n' := by
  obtain ⟨t, hs⟩ := h.front
  exact head?_ne_newline hs rfl

mutual

/-- A value is at the front of the text that is read, too. -/
theorem Reads.universal {s r : List Char} {v : Value} :
    Reads s v r → Reads (Text.universal s) v (Text.universal r)
  | .word hw => by
      rw [universal_append (unbroken_word hw)]
      exact .word hw
  | .number hn => by
      rw [universal_append (Numeral.unbroken hn)]
      exact .number hn
  | .text ht => .text ht.universal
  | .noItems hspace => by
      rw [universal_cons (by decide), universal_space_cons _ (by decide)]
      exact .noItems hspace.universal
  | .list hspace hitems => by
      rw [universal_cons (by decide), universal_append_of_head? _ hitems.head?_ne]
      exact .list hspace.universal hitems.universal
  | .noEntries hspace => by
      rw [universal_cons (by decide), universal_space_cons _ (by decide)]
      exact .noEntries hspace.universal
  | .dict hspace hentries => by
      rw [universal_cons (by decide), universal_append_of_head? _ hentries.head?_ne]
      exact .dict hspace.universal hentries.universal

theorem ReadsItems.universal {s r : List Char} {vs : List Value} :
    ReadsItems s vs r → ReadsItems (Text.universal s) vs (Text.universal r)
  | .last hv hspace => by
      have hvalue := hv.universal
      rw [universal_space_cons _ (by decide)] at hvalue
      exact .last hvalue hspace.universal
  | .more hv hspace hspace' hitems => by
      have hvalue := hv.universal
      rw [universal_space_cons _ (by decide), universal_append_of_head? _ hitems.head?_ne] at hvalue
      exact .more hvalue hspace.universal hspace'.universal hitems.universal

theorem ReadsEntries.universal {s r : List Char} {es : List (String × Value)} :
    ReadsEntries s es r → ReadsEntries (Text.universal s) es (Text.universal r)
  | .last hkey hspace₁ hspace₂ hv hspace₃ => by
      have hquoted := hkey.universal
      have hvalue := hv.universal
      rw [universal_space_cons _ (by decide), universal_append_of_head? _ hv.head?_ne] at hquoted
      rw [universal_space_cons _ (by decide)] at hvalue
      exact .last hquoted hspace₁.universal hspace₂.universal hvalue hspace₃.universal
  | .more hkey hspace₁ hspace₂ hv hspace₃ hspace₄ hentries => by
      have hquoted := hkey.universal
      have hvalue := hv.universal
      rw [universal_space_cons _ (by decide), universal_append_of_head? _ hv.head?_ne] at hquoted
      rw [universal_space_cons _ (by decide), universal_append_of_head? _ hentries.head?_ne] at hvalue
      exact .more hquoted hspace₁.universal hspace₂.universal hvalue hspace₃.universal hspace₄.universal
        hentries.universal

end

mutual

/-- What is at the front of the text that is read is there before. -/
theorem Reads.of_universal {s r : List Char} {v : Value} : Reads s v r →
    ∀ {t : List Char}, Text.universal t = s → ∃ r', Text.universal r' = r ∧ Reads t v r'
  | .word hw => fun ht => by
      obtain ⟨r', rfl, hr'⟩ := of_universal_append (unbroken_word hw) ht
      exact ⟨r', hr', .word hw⟩
  | .number hn => fun ht => by
      obtain ⟨r', rfl, hr'⟩ := of_universal_append (Numeral.unbroken hn) ht
      exact ⟨r', hr', .number hn⟩
  | .text hquoted => fun ht => by
      obtain ⟨r', hr', hquoted'⟩ := hquoted.of_universal ht
      exact ⟨r', hr', .text hquoted'⟩
  | .noItems hspace => fun ht => by
      obtain ⟨t₁, rfl, ht₁⟩ := of_universal_cons (by decide) ht
      obtain ⟨space', r', rfl, hspace', hr'⟩ := of_universal_space_cons hspace (by decide) ht₁
      exact ⟨r', hr', .noItems hspace'⟩
  | .list hspace hitems => fun ht => by
      obtain ⟨t₁, rfl, ht₁⟩ := of_universal_cons (by decide) ht
      obtain ⟨space', t₂, rfl, hspace', ht₂⟩ := of_universal_space hspace ht₁
      obtain ⟨r', hr', hitems'⟩ := hitems.of_universal ht₂
      exact ⟨r', hr', .list hspace' hitems'⟩
  | .noEntries hspace => fun ht => by
      obtain ⟨t₁, rfl, ht₁⟩ := of_universal_cons (by decide) ht
      obtain ⟨space', r', rfl, hspace', hr'⟩ := of_universal_space_cons hspace (by decide) ht₁
      exact ⟨r', hr', .noEntries hspace'⟩
  | .dict hspace hentries => fun ht => by
      obtain ⟨t₁, rfl, ht₁⟩ := of_universal_cons (by decide) ht
      obtain ⟨space', t₂, rfl, hspace', ht₂⟩ := of_universal_space hspace ht₁
      obtain ⟨r', hr', hentries'⟩ := hentries.of_universal ht₂
      exact ⟨r', hr', .dict hspace' hentries'⟩

theorem ReadsItems.of_universal {s r : List Char} {vs : List Value} : ReadsItems s vs r →
    ∀ {t : List Char}, Text.universal t = s → ∃ r', Text.universal r' = r ∧ ReadsItems t vs r'
  | .last hv hspace => fun ht => by
      obtain ⟨t₁, ht₁, hvalue⟩ := hv.of_universal ht
      obtain ⟨space', r', rfl, hspace', hr'⟩ := of_universal_space_cons hspace (by decide) ht₁
      exact ⟨r', hr', .last hvalue hspace'⟩
  | .more hv hspace hspace' hitems => fun ht => by
      obtain ⟨t₁, ht₁, hvalue⟩ := hv.of_universal ht
      obtain ⟨space₁, t₂, rfl, hspace₁, ht₂⟩ := of_universal_space_cons hspace (by decide) ht₁
      obtain ⟨space₂, t₃, rfl, hspace₂, ht₃⟩ := of_universal_space hspace' ht₂
      obtain ⟨r', hr', hitems'⟩ := hitems.of_universal ht₃
      exact ⟨r', hr', .more hvalue hspace₁ hspace₂ hitems'⟩

theorem ReadsEntries.of_universal {s r : List Char} {es : List (String × Value)} : ReadsEntries s es r →
    ∀ {t : List Char}, Text.universal t = s → ∃ r', Text.universal r' = r ∧ ReadsEntries t es r'
  | .last hkey hspace₁ hspace₂ hv hspace₃ => fun ht => by
      obtain ⟨t₁, ht₁, hkey'⟩ := hkey.of_universal ht
      obtain ⟨space₁', t₂, rfl, hspace₁', ht₂⟩ := of_universal_space_cons hspace₁ (by decide) ht₁
      obtain ⟨space₂', t₃, rfl, hspace₂', ht₃⟩ := of_universal_space hspace₂ ht₂
      obtain ⟨t₄, ht₄, hvalue⟩ := hv.of_universal ht₃
      obtain ⟨space₃', r', rfl, hspace₃', hr'⟩ := of_universal_space_cons hspace₃ (by decide) ht₄
      exact ⟨r', hr', .last hkey' hspace₁' hspace₂' hvalue hspace₃'⟩
  | .more hkey hspace₁ hspace₂ hv hspace₃ hspace₄ hentries => fun ht => by
      obtain ⟨t₁, ht₁, hkey'⟩ := hkey.of_universal ht
      obtain ⟨space₁', t₂, rfl, hspace₁', ht₂⟩ := of_universal_space_cons hspace₁ (by decide) ht₁
      obtain ⟨space₂', t₃, rfl, hspace₂', ht₃⟩ := of_universal_space hspace₂ ht₂
      obtain ⟨t₄, ht₄, hvalue⟩ := hv.of_universal ht₃
      obtain ⟨space₃', t₅, rfl, hspace₃', ht₅⟩ := of_universal_space_cons hspace₃ (by decide) ht₄
      obtain ⟨space₄', t₆, rfl, hspace₄', ht₆⟩ := of_universal_space hspace₄ ht₅
      obtain ⟨r', hr', hentries'⟩ := hentries.of_universal ht₆
      exact ⟨r', hr', .more hkey' hspace₁' hspace₂' hvalue hspace₃' hspace₄' hentries'⟩

end

/-! ## Whole texts -/

theorem Space.of_universal {t : List Char} (h : Space (Text.universal t)) : Space t := by
  obtain ⟨space, t', rfl, hspace, ht'⟩ := of_universal_space (x := []) h (List.append_nil _).symm
  rwa [universal_eq_nil ht', List.append_nil]

/-- What is read of a text writes what the text writes, whatever its line ends. -/
theorem document_universal {t : List Char} {v : Value} : Document (Text.universal t) v ↔ Document t v := by
  constructor
  · rintro ⟨before, s, behind, ht, hbefore, hreads, hbehind⟩
    obtain ⟨before', t', rfl, hbefore', ht'⟩ := of_universal_space hbefore ht
    obtain ⟨behind', rfl, hreads'⟩ := hreads.of_universal ht'
    exact ⟨before', t', behind', rfl, hbefore', hreads', hbehind.of_universal⟩
  · rintro ⟨before, s, behind, rfl, hbefore, hreads, hbehind⟩
    exact ⟨_, _, _, universal_append_of_head? before hreads.head?_ne, hbefore.universal, hreads.universal,
      hbehind.universal⟩

/-- The digits in a row that are read were there before. -/
theorem LongRun.of_universal {t : List Char} (h : LongRun (Text.universal t)) : LongRun t := by
  obtain ⟨digits, ⟨before, behind, ht⟩, hdigits, hlong⟩ := h
  rw [List.append_assoc] at ht
  obtain ⟨before', t', rfl, -, ht'⟩ := of_universal_split ht.symm
  obtain ⟨behind', rfl, -⟩ := of_universal_append hdigits.unbroken ht'
  exact ⟨digits, ⟨before', behind', List.append_assoc _ _ _⟩, hdigits, hlong⟩

end Value

end GrammarBench
