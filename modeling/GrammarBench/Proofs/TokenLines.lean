import Mathlib
import GrammarBench.Token.Line

/-!
# What token lines tell

A token line sets the text of the token and the name of its type between marks that may occur in them as well.
It can still be read back: the text ends at the last `<` of the line, the name at the last `>`, and all else is
numbers.

* `Text.cut_first`, `Text.cut_last`: a text is cut at the first mark, or at the last one, in one way only.
* `Token.toList_written`: a line, cut at its last `<`.
* `Token.written_eq_iff`: when two tokens have the same line.
-/

namespace GrammarBench

namespace Text

/-- A text is cut at the first mark in one way only. -/
theorem cut_first {c : Char} {a a' r r' : List Char} (ha : c ∉ a) (ha' : c ∉ a')
    (h : a ++ c :: r = a' ++ c :: r') : a = a' ∧ r = r' := by
  induction a generalizing a' with
  | nil =>
      cases a' with
      | nil => exact ⟨rfl, (List.cons.inj h).2⟩
      | cons d a' => exact absurd (List.mem_cons.mpr (Or.inl (List.cons.inj h).1)) ha'
  | cons b a ih =>
      cases a' with
      | nil => exact absurd (List.mem_cons.mpr (Or.inl (List.cons.inj h).1.symm)) ha
      | cons d a' =>
          obtain ⟨rfl, hrest⟩ := List.cons.inj h
          obtain ⟨rfl, hr⟩ := ih (fun hc => ha (List.mem_cons_of_mem _ hc))
            (fun hc => ha' (List.mem_cons_of_mem _ hc)) hrest
          exact ⟨rfl, hr⟩

/-- A text is cut at the last mark in one way only. -/
theorem cut_last {c : Char} {a a' r r' : List Char} (hr : c ∉ r) (hr' : c ∉ r')
    (h : a ++ c :: r = a' ++ c :: r') : a = a' ∧ r = r' := by
  have hreverse : r.reverse ++ c :: a.reverse = r'.reverse ++ c :: a'.reverse := by
    simpa using congrArg List.reverse h
  obtain ⟨hbehind, hfront⟩ := cut_first (by simpa using hr) (by simpa using hr') hreverse
  exact ⟨List.reverse_injective hfront, List.reverse_injective hbehind⟩

/-- A number is written in digits, with a dash in front when it is negative. -/
theorem not_mem_toString {c : Char} (hdigit : c.isDigit = false) (hdash : c ≠ '-') (i : Int) :
    c ∉ (toString i).toList := by
  have hnat : ∀ n : Nat, c ∉ n.repr.toList := by
    intro n hc
    rw [Nat.toList_repr] at hc
    rw [Nat.isDigit_of_mem_toDigits (by decide) (by decide) hc] at hdigit
    cases hdigit
  rw [Int.toString_eq_repr, Int.repr_eq_if]
  split
  · exact hnat _
  · rw [String.toList_append, List.mem_append]
    rintro (hc | hc)
    · exact hdash (List.mem_singleton.mp hc)
    · exact hnat _ hc

theorem toString_injective {i j : Int} (h : (toString i).toList = (toString j).toList) : i = j := by
  rw [String.toList_inj, Int.toString_eq_repr, Int.toString_eq_repr] at h
  exact Int.repr_injective h

end Text

namespace Token

variable {symbols : Symbols} {t u : Token}

/-- The part of a line that tells the channel. -/
def channelText (t : Token) : String := if 0 < t.channel then ",channel=" ++ toString t.channel else ""

/-- What stands in a line before the name of the type. -/
def front (t : Token) : List Char :=
  '[' :: '@' :: ((toString t.index).toList ++ ',' :: ((toString t.start).toList ++
    ':' :: ((toString t.stop).toList ++ '=' :: '\'' :: (t.shownText.toList ++ ['\'', ',']))))

/-- What stands in a line behind the name of the type. -/
def back (t : Token) : List Char :=
  t.channelText.toList ++ ',' :: ((toString t.line).toList ++ ':' :: ((toString t.column).toList ++ [']']))

theorem toList_written (symbols : Symbols) (t : Token) :
    (t.written symbols).toList = t.front ++ '<' :: ((displayName t.kind symbols).toList ++ '>' :: t.back) := by
  have hopening : "[@".toList = ['[', '@'] := by decide
  have hcomma : ",".toList = [','] := by decide
  have hcolon : ":".toList = [':'] := by decide
  have htext : "='".toList = ['=', '\''] := by decide
  have hname : "',<".toList = ['\'', ',', '<'] := by decide
  have hnamed : ">".toList = ['>'] := by decide
  have hclosing : "]".toList = [']'] := by decide
  unfold written front back channelText
  simp only [String.toList_append, hopening, hcomma, hcolon, htext, hname, hnamed, hclosing,
    List.append_assoc, List.cons_append, List.nil_append]

/-- The name of a type has no `<` when no name in the table has one. -/
theorem not_mem_displayName (hsymbols : ∀ name, some name ∈ symbols → '<' ∉ name.toList) (kind : Int) :
    '<' ∉ (displayName kind symbols).toList := by
  unfold displayName
  split
  · next name hname =>
    split at hname
    · exact hsymbols name (List.mem_of_getElem? hname)
    · cases hname
  · exact Text.not_mem_toString (by decide) (by decide) kind

theorem not_mem_channelText {c : Char} (hdigit : c.isDigit = false) (hdash : c ≠ '-')
    (hmark : c ∉ ",channel=".toList) (t : Token) : c ∉ t.channelText.toList := by
  unfold channelText
  split
  · rw [String.toList_append, List.mem_append]
    rintro (hc | hc)
    · exact hmark hc
    · exact Text.not_mem_toString hdigit hdash _ hc
  · exact List.not_mem_nil

theorem not_mem_back {c : Char} (hdigit : c.isDigit = false) (hdash : c ≠ '-')
    (hmark : c ∉ ",channel=".toList) (hmarks : c ∉ [',', ':', ']']) (t : Token) : c ∉ t.back := by
  simp only [List.mem_cons, List.not_mem_nil, or_false, not_or] at hmarks
  obtain ⟨hcomma, hcolon, hbracket⟩ := hmarks
  simp only [back, List.mem_append, List.mem_cons, List.not_mem_nil, or_false, not_or]
  exact ⟨not_mem_channelText hdigit hdash hmark t, hcomma, Text.not_mem_toString hdigit hdash _, hcolon,
    Text.not_mem_toString hdigit hdash _, hbracket⟩

/-- The channel that a line tells: all channels up to zero are one. -/
theorem channel_of_channelText (h : t.channelText = u.channelText) : max t.channel 0 = max u.channel 0 := by
  have hmark : ∀ i : Int, ",channel=" ++ toString i ≠ "" := by
    intro i hempty
    have hlist := congrArg String.toList hempty
    rw [String.toList_append] at hlist
    cases hlist
  unfold channelText at h
  split at h <;> split at h
  · rw [String.append_right_inj] at h
    rw [Text.toString_injective (congrArg String.toList h)]
  · exact absurd h (hmark _)
  · exact absurd h.symm (hmark _)
  · omega

/-- The front of a line is read from its beginning. -/
theorem front_inj (h : t.front = u.front) :
    t.index = u.index ∧ t.start = u.start ∧ t.stop = u.stop ∧ t.shownText = u.shownText := by
  have hcomma := Text.not_mem_toString (c := ',') (by decide) (by decide)
  have hcolon := Text.not_mem_toString (c := ':') (by decide) (by decide)
  have hequals := Text.not_mem_toString (c := '=') (by decide) (by decide)
  obtain ⟨hindex, h⟩ := Text.cut_first (hcomma _) (hcomma _) (List.cons.inj (List.cons.inj h).2).2
  obtain ⟨hstart, h⟩ := Text.cut_first (hcolon _) (hcolon _) h
  obtain ⟨hstop, h⟩ := Text.cut_first (hequals _) (hequals _) h
  have htext := List.append_cancel_right (List.cons.inj h).2
  exact ⟨Text.toString_injective hindex, Text.toString_injective hstart, Text.toString_injective hstop,
    String.toList_inj.mp htext⟩

/-- The back of a line is read from its end. -/
theorem back_inj (h : t.back = u.back) :
    max t.channel 0 = max u.channel 0 ∧ t.line = u.line ∧ t.column = u.column := by
  have hcomma (v : Token) : ',' ∉ (toString v.line).toList ++ ':' :: ((toString v.column).toList ++ [']']) := by
    simp only [List.mem_append, List.mem_cons, List.not_mem_nil, or_false, not_or]
    exact ⟨Text.not_mem_toString (by decide) (by decide) _, by decide,
      Text.not_mem_toString (by decide) (by decide) _, by decide⟩
  have hcolon := Text.not_mem_toString (c := ':') (by decide) (by decide)
  obtain ⟨hchannel, h⟩ := Text.cut_last (hcomma t) (hcomma u) h
  obtain ⟨hline, h⟩ := Text.cut_first (hcolon _) (hcolon _) h
  exact ⟨channel_of_channelText (String.toList_inj.mp hchannel), Text.toString_injective hline,
    Text.toString_injective (List.append_cancel_right h)⟩

/-- **Token lines.** Two tokens have the same line just if all that the line tells is the same: the index, the
offsets, the place, the name of the type as it is shown, the text as it is shown, and the channel, where all
channels up to zero count as one. -/
theorem written_eq_iff (symbols : Symbols) (hsymbols : ∀ name, some name ∈ symbols → '<' ∉ name.toList)
    (t u : Token) :
    t.written symbols = u.written symbols ↔
      t.index = u.index ∧ t.start = u.start ∧ t.stop = u.stop ∧ t.line = u.line ∧ t.column = u.column ∧
        displayName t.kind symbols = displayName u.kind symbols ∧ t.shownText = u.shownText ∧
        max t.channel 0 = max u.channel 0 := by
  constructor
  · intro h
    have hlist := congrArg String.toList h
    rw [toList_written, toList_written] at hlist
    have hbehind (v : Token) : '<' ∉ (displayName v.kind symbols).toList ++ '>' :: v.back := by
      rw [List.mem_append, List.mem_cons, not_or, not_or]
      exact ⟨not_mem_displayName hsymbols v.kind, by decide, not_mem_back (by decide) (by decide) (by decide) (by decide) v⟩
    obtain ⟨hfront, hrest⟩ := Text.cut_last (hbehind t) (hbehind u) hlist
    have hend := not_mem_back (c := '>') (by decide) (by decide) (by decide) (by decide)
    obtain ⟨hname, hback⟩ := Text.cut_last (hend t) (hend u) hrest
    obtain ⟨hindex, hstart, hstop, htext⟩ := front_inj hfront
    obtain ⟨hchannel, hline, hcolumn⟩ := back_inj hback
    exact ⟨hindex, hstart, hstop, hline, hcolumn, String.toList_inj.mp hname, htext, hchannel⟩
  · rintro ⟨hindex, hstart, hstop, hline, hcolumn, hname, htext, hchannel⟩
    have hchannelText : t.channelText = u.channelText := by
      unfold channelText
      by_cases ht : 0 < t.channel
      · have heq : t.channel = u.channel := by omega
        rw [heq]
      · rw [if_neg ht, if_neg (by omega)]
    refine String.toList_inj.mp ?_
    rw [toList_written, toList_written]
    unfold front back
    rw [hindex, hstart, hstop, hline, hcolumn, hname, htext, hchannelText]

/-- A table with a name that looks like the end of a type and a channel. -/
def trickySymbols : Symbols := [none, some "A>,channel=1", some "A"]

/-- A token whose text holds most of a token line. -/
def trickyToken : Token :=
  { kind := 2, text := some "',<A>,1:0]", start := 0, stop := 9, line := 1, column := 0, channel := 1, index := 0 }

theorem written_eq_iff_tricky :
    (∀ name, some name ∈ trickySymbols → '<' ∉ name.toList) ∧
      trickyToken.written trickySymbols ≠ { trickyToken with kind := 1, channel := 0 }.written trickySymbols := by
  have hsymbols : ∀ name, some name ∈ trickySymbols → '<' ∉ name.toList := by
    intro name hname
    simp only [trickySymbols, List.mem_cons, reduceCtorEq, Option.some.injEq, List.not_mem_nil, or_false,
      false_or] at hname
    rcases hname with rfl | rfl <;> decide
  refine ⟨hsymbols, fun h => ?_⟩
  have hname := ((written_eq_iff trickySymbols hsymbols _ _).mp h).2.2.2.2.2.1
  revert hname
  decide +kernel

end Token

end GrammarBench
