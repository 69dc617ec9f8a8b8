import GrammarBench.Text.Escape

/-!
# Escaped texts

The three replacements that write a text on one line come to a single one, of each character by itself: what one of
them writes holds nothing that a later one replaces. Since backslashes stay as they are, a newline and a backslash
with an `n` behind it are written alike, and so are a carriage return and a tab and their escapes; nothing else is
lost.

* `OneLine`: no white space that ends or divides a line.
* `Text.Respelt`: two texts that write the same characters, each of them raw or escaped.
* `Text.escapeList_eq_iff`: texts are escaped alike just if they are the same but for that.
* `Text.escape_characterwise`: what escaping does to a text, and what it loses.
-/

namespace GrammarBench

/-- No newline, no carriage return and no tab. -/
def OneLine (s : String) : Prop := ∀ c ∈ s.toList, c ≠ '\n' ∧ c ≠ '\r' ∧ c ≠ '\t'

namespace Text

/-! ## Characters -/

/-- A character is written as it is, or else as a backslash and a letter. -/
theorem escapeChar_cases (c : Char) :
    (escapeChar c = [c] ∧ c ≠ '\n' ∧ c ≠ '\r' ∧ c ≠ '\t') ∨
      ∃ letter ∈ ['n', 'r', 't'], escapeChar c = ['\\', letter] := by
  unfold escapeChar
  split
  · exact Or.inr ⟨'n', by decide, rfl⟩
  · exact Or.inr ⟨'r', by decide, rfl⟩
  · exact Or.inr ⟨'t', by decide, rfl⟩
  · next hnewline hreturn htab => exact Or.inl ⟨rfl, hnewline, hreturn, htab⟩

theorem escapeChar_ne_nil (c : Char) : escapeChar c ≠ [] := by
  rcases escapeChar_cases c with ⟨h, -⟩ | ⟨letter, -, h⟩
  all_goals
    rw [h]
    exact List.cons_ne_nil _ _

/-- The letter tells which character has been written. -/
theorem escapeChar_injective {c d : Char} (h : escapeChar c = escapeChar d) : c = d := by
  unfold escapeChar at h
  split at h <;> split at h <;> simp_all

/-- What is in an escaped text: characters of the text that are left as they are, backslashes and letters. -/
theorem mem_escapeList {s : List Char} {d : Char} (hd : d ∈ escapeList s) :
    (d ∈ s ∧ d ≠ '\n' ∧ d ≠ '\r' ∧ d ≠ '\t') ∨ d ∈ ['\\', 'n', 'r', 't'] := by
  obtain ⟨c, hc, hd⟩ := List.mem_flatMap.mp hd
  rcases escapeChar_cases c with ⟨h, hplain⟩ | ⟨letter, hletter, h⟩
  · rw [h, List.mem_singleton] at hd
    rw [hd]
    exact Or.inl ⟨hc, hplain⟩
  · rw [h, List.mem_cons, List.mem_singleton] at hd
    rcases hd with rfl | rfl
    · exact Or.inr List.mem_cons_self
    · exact Or.inr (List.mem_cons_of_mem _ hletter)

/-! ## Texts that are left as they are -/

theorem escapeList_eq_self {s : List Char} (h : ∀ c ∈ s, c ≠ '\n' ∧ c ≠ '\r' ∧ c ≠ '\t') : escapeList s = s := by
  induction s with
  | nil => rfl
  | cons c s ih =>
      obtain ⟨⟨hnewline, hreturn, htab⟩, hs⟩ := List.forall_mem_cons.mp h
      rw [escapeList_cons, escapeChar_of_ne hnewline hreturn htab, ih hs]
      rfl

theorem plain_of_mem_escapeList {s : List Char} {d : Char} (hd : d ∈ escapeList s) :
    d ≠ '\n' ∧ d ≠ '\r' ∧ d ≠ '\t' := by
  rcases mem_escapeList hd with ⟨-, hplain⟩ | hd
  · exact hplain
  · simp only [List.mem_cons, List.not_mem_nil, or_false] at hd
    rcases hd with rfl | rfl | rfl | rfl
    all_goals decide

theorem escapeList_escapeList (s : List Char) : escapeList (escapeList s) = escapeList s :=
  escapeList_eq_self fun _ => plain_of_mem_escapeList

/-! ## Texts that are escaped alike -/

/-- The two ways in which a text can write a character that goes on a line: raw and escaped. -/
inductive Spelling (c : Char) : List Char → Prop
  | raw : Spelling c [c]
  | escaped : Spelling c (escapeChar c)

/-- Two texts that write the same characters, each of them raw or escaped. -/
inductive Respelt : List Char → List Char → Prop
  | nil : Respelt [] []
  | cons {c : Char} {p q s t : List Char} : Spelling c p → Spelling c q → Respelt s t → Respelt (p ++ s) (q ++ t)

theorem escapeList_singleton (c : Char) : escapeList [c] = escapeChar c := List.append_nil _

theorem Spelling.escapeList_eq {c : Char} {p : List Char} (h : Spelling c p) : escapeList p = escapeChar c := by
  cases h with
  | raw => exact escapeList_singleton c
  | escaped => rw [← escapeList_singleton c, escapeList_escapeList]

theorem Spelling.length_pos {c : Char} {p : List Char} (h : Spelling c p) : 0 < p.length := by
  cases h with
  | raw => exact Nat.one_pos
  | escaped => exact List.length_pos_iff.mpr (escapeChar_ne_nil c)

theorem Respelt.escapeList_eq {s t : List Char} (h : Respelt s t) : escapeList s = escapeList t := by
  induction h with
  | nil => rfl
  | cons hp hq _ ih => rw [escapeList_append, escapeList_append, hp.escapeList_eq, hq.escapeList_eq, ih]

/-- Nothing but itself is written as a character that is no backslash. -/
theorem eq_cons_of_escapeList {s r : List Char} {c : Char} (hc : c ≠ '\\') (h : escapeList s = c :: r) :
    ∃ s', s = c :: s' ∧ escapeList s' = r := by
  cases s with
  | nil => cases h
  | cons d s' =>
      rw [escapeList_cons] at h
      rcases escapeChar_cases d with ⟨hd, -⟩ | ⟨letter, -, hd⟩ <;> rw [hd] at h
      · obtain ⟨rfl, hr⟩ := List.cons.inj h
        exact ⟨s', rfl, hr⟩
      · exact absurd (List.cons.inj h).1.symm hc

/-- In front of an escape stands the character that it is the escape of, or the escape. -/
theorem exists_spelling {s r : List Char} {c letter : Char} (hletter : letter ∈ ['n', 'r', 't'])
    (hc : escapeChar c = ['\\', letter]) (h : escapeList s = escapeChar c ++ r) :
    ∃ p s', s = p ++ s' ∧ Spelling c p ∧ escapeList s' = r := by
  cases s with
  | nil =>
      rw [hc] at h
      cases h
  | cons d s' =>
      rw [escapeList_cons] at h
      rcases escapeChar_cases d with ⟨hd, -⟩ | ⟨letter', -, hd⟩
      · -- A backslash that stands by itself: the letter behind it stands there, too.
        rw [hd, hc] at h
        obtain ⟨rfl, hs'⟩ := List.cons.inj h
        have hbackslash : letter ≠ '\\' := by
          rintro rfl
          revert hletter
          decide
        obtain ⟨s'', rfl, hr⟩ := eq_cons_of_escapeList hbackslash hs'
        refine ⟨['\\', letter], s'', rfl, ?_, hr⟩
        rw [← hc]
        exact .escaped
      · have hsame : escapeChar d = escapeChar c ∧ escapeList s' = r :=
          List.append_inj h (by rw [hd, hc]; rfl)
        obtain rfl := escapeChar_injective hsame.1
        exact ⟨[d], s', rfl, .raw, hsame.2⟩

theorem respelt_of_escapeList_eq {s t : List Char} (h : escapeList s = escapeList t) : Respelt s t := by
  induction hn : s.length using Nat.strongRecOn generalizing s t with
  | ind n ih =>
      subst hn
      cases s with
      | nil =>
          cases t with
          | nil => exact .nil
          | cons d t =>
              rw [escapeList_cons] at h
              exact absurd (List.append_eq_nil_iff.mp h.symm).1 (escapeChar_ne_nil d)
      | cons c s =>
          cases t with
          | nil =>
              rw [escapeList_cons] at h
              exact absurd (List.append_eq_nil_iff.mp h).1 (escapeChar_ne_nil c)
          | cons d t =>
              rcases escapeChar_cases c with ⟨hc, -⟩ | ⟨letter, hletter, hc⟩
              · rcases escapeChar_cases d with ⟨hd, -⟩ | ⟨letter, hletter, hd⟩
                · rw [escapeList_cons, escapeList_cons, hc, hd] at h
                  obtain ⟨rfl, hrest⟩ := List.cons.inj h
                  exact .cons (.raw (c := c)) .raw (ih s.length (Nat.lt_succ_self _) hrest rfl)
                · obtain ⟨p, s', hs, hp, hrest⟩ := exists_spelling hletter hd (h.trans (escapeList_cons d t))
                  have hshorter : s'.length < (c :: s).length := by
                    rw [hs, List.length_append]
                    have := hp.length_pos
                    omega
                  rw [hs]
                  exact .cons hp .raw (ih s'.length hshorter hrest rfl)
              · obtain ⟨q, t', ht, hq, hrest⟩ := exists_spelling hletter hc (h.symm.trans (escapeList_cons c s))
                rw [ht]
                exact .cons (.raw (c := c)) hq (ih s.length (Nat.lt_succ_self _) hrest.symm rfl)

/-- Texts are escaped alike just if they write the same characters, each of them raw or escaped. -/
theorem escapeList_eq_iff {s t : List Char} : escapeList s = escapeList t ↔ Respelt s t :=
  ⟨respelt_of_escapeList_eq, Respelt.escapeList_eq⟩

end Text

/-! ## Escapes of texts -/

theorem OneLine.escape (s : String) : OneLine (Text.escape s) := by
  intro c hc
  rw [Text.toList_escape] at hc
  exact Text.plain_of_mem_escapeList hc

namespace Text

/-- **Escapes.** The replacements made one after the other write each character of the text by itself. So texts are
escaped piece by piece, what is escaped is one line and is left as it is, and what is lost is only whether a newline,
a carriage return or a tab stood raw in the text or escaped. -/
theorem escape_characterwise (a b : String) :
    (escape a).toList = a.toList.flatMap escapeChar ∧
    escape (a ++ b) = escape a ++ escape b ∧
    escape (escape a) = escape a ∧
    OneLine (escape a) ∧
    (escape a = escape b ↔ Respelt a.toList b.toList) := by
  refine ⟨toList_escape a, ?_, ?_, OneLine.escape a, ?_⟩
  · rw [← String.toList_inj, String.toList_append, toList_escape, toList_escape, toList_escape, String.toList_append,
      escapeList_append]
  · rw [← String.toList_inj, toList_escape, toList_escape, escapeList_escapeList]
  · rw [← String.toList_inj, toList_escape, toList_escape, escapeList_eq_iff]

/-- Around a backslash, too, newlines and their escapes are written alike. -/
example : escape "\n\\\n" = escape "\\n\\\\n" := rfl

end Text

end GrammarBench
