import Mathlib.Data.List.Basic
import GrammarBench.Proofs.Escapes
import GrammarBench.Tree.Basic

/-!
# What tree lines tell

The line of a tree whose labels and texts are words can be read back: a text ends where a blank or a parenthesis
follows, and a node ends at its own parenthesis. What the line does not tell is which children are null, whether
a text stands raw or escaped, and whether a text alone is a leaf or a node without children.

* `Bracketed`: a text with further ones behind it, in parentheses.
* `Bracketed.line_cancel`: a line is read up to its end, whatever follows.
* `Tree.outline?`: what is left of a tree on its line.
* `Tree.rule_written_eq_iff`: when two trees have the same line.
-/

namespace GrammarBench

/-! ## Words -/

/-- The characters that set the parts of a tree line apart. -/
def isDivider (c : Char) : Bool := c = ' ' || c = '(' || c = ')'

/-- A text that a tree line shows as one piece. -/
def IsWord (s : String) : Prop := s ≠ "" ∧ ∀ c ∈ s.toList, isDivider c = false

instance (s : String) : Decidable (IsWord s) :=
  decidable_of_iff (s ≠ "" ∧ s.toList.all (fun c => !isDivider c) = true) (by simp [IsWord])

/-- What may follow a piece of a tree line. -/
def Ends (r : List Char) : Prop := ∀ c ∈ r.head?, isDivider c = true

theorem ends_cons {c : Char} (h : isDivider c = true) (r : List Char) : Ends (c :: r) := by
  intro d hd
  rwa [← Option.some.inj hd]

/-- A word is read up to what ends it. -/
theorem word_cancel {s s' r r' : List Char} (hs : ∀ c ∈ s, isDivider c = false)
    (hs' : ∀ c ∈ s', isDivider c = false) (hr : Ends r) (hr' : Ends r') (h : s ++ r = s' ++ r') :
    s = s' ∧ r = r' := by
  induction s generalizing s' with
  | nil =>
      cases s' with
      | nil => exact ⟨rfl, h⟩
      | cons c s' =>
          have hend := hr c (by rw [show r = c :: (s' ++ r') from h]; rfl)
          rw [hs' c List.mem_cons_self] at hend
          cases hend
  | cons c s ih =>
      cases s' with
      | nil =>
          have hend := hr' c (by rw [show r' = c :: (s ++ r) from h.symm]; rfl)
          rw [hs c List.mem_cons_self] at hend
          cases hend
      | cons d s' =>
          obtain ⟨rfl, hrest⟩ := List.cons.inj h
          obtain ⟨rfl, hbehind⟩ := ih (fun c hc => hs c (List.mem_cons_of_mem _ hc))
            (fun c hc => hs' c (List.mem_cons_of_mem _ hc)) hrest
          exact ⟨rfl, hbehind⟩

theorem IsWord.escape {s : String} (h : IsWord s) : IsWord (Text.escape s) := by
  refine ⟨fun hempty => h.1 ?_, fun d hd => ?_⟩
  · have hlist : Text.escapeList s.toList = [] := by
      rw [← Text.toList_escape]
      exact congrArg String.toList hempty
    rw [Text.escapeList, List.flatMap_eq_nil_iff] at hlist
    exact String.toList_eq_nil_iff.mp
      (List.eq_nil_iff_forall_not_mem.mpr fun c hc => Text.escapeChar_ne_nil c (hlist c hc))
  · rw [Text.toList_escape] at hd
    rcases Text.mem_escapeList hd with ⟨hmem, -⟩ | hd
    · exact h.2 d hmem
    · simp only [List.mem_cons, List.not_mem_nil, or_false] at hd
      rcases hd with rfl | rfl | rfl | rfl
      all_goals decide

/-! ## Texts in parentheses -/

/-- A text with further ones behind it. -/
inductive Bracketed where
  | mk (text : String) (parts : List Bracketed)

namespace Bracketed

mutual

/-- The line of a text with its parts. -/
def line : Bracketed → String
  | mk text parts => Tree.parenthesized text (lines parts)

def lines : List Bracketed → List String
  | [] => []
  | b :: rest => b.line :: lines rest

end

mutual

/-- All texts are words. -/
def Worded : Bracketed → Prop
  | mk text parts => IsWord text ∧ AllWorded parts

def AllWorded : List Bracketed → Prop
  | [] => True
  | b :: rest => b.Worded ∧ AllWorded rest

end

/-- Parts one behind the other, a blank in front of each. -/
def spaced (parts : List String) : List Char := parts.flatMap fun s => ' ' :: s.toList

theorem toList_intercalate (s : String) (parts : List String) :
    (" ".intercalate (s :: parts)).toList = s.toList ++ spaced parts := by
  induction parts generalizing s with
  | nil => simp [spaced]
  | cons t rest ih =>
      rw [String.intercalate_cons_cons, String.toList_append, String.toList_append, ih]
      simp [spaced]

theorem toList_parenthesized (text : String) (parts : List String) :
    (Tree.parenthesized text parts).toList =
      if parts = [] then text.toList else '(' :: (text.toList ++ (spaced parts ++ [')'])) := by
  cases parts with
  | nil => rfl
  | cons s rest =>
      rw [if_neg (List.cons_ne_nil s rest)]
      unfold Tree.parenthesized
      rw [if_neg (by simp)]
      simp only [String.toList_append, toList_intercalate]
      simp [spaced]

theorem lines_eq_nil {parts : List Bracketed} : lines parts = [] ↔ parts = [] := by
  cases parts with
  | nil => exact ⟨fun _ => rfl, fun _ => rfl⟩
  | cons b rest => exact ⟨fun h => absurd h (List.cons_ne_nil _ _), fun h => absurd h (List.cons_ne_nil _ _)⟩

/-- The line of a text alone is the text. -/
theorem toList_line_nil (text : String) : (mk text []).line.toList = text.toList := by
  rw [line, toList_parenthesized, if_pos (lines_eq_nil.mpr rfl)]

/-- The line of a text with parts. -/
theorem toList_line_cons (text : String) {parts : List Bracketed} (hparts : parts ≠ []) (r : List Char) :
    (mk text parts).line.toList ++ r = '(' :: (text.toList ++ (spaced (lines parts) ++ ')' :: r)) := by
  rw [line, toList_parenthesized, if_neg (mt lines_eq_nil.mp hparts)]
  simp

/-- Behind the parts of a node something follows that ends a word. -/
theorem ends_spaced (parts : List String) (r : List Char) : Ends (spaced parts ++ ')' :: r) := by
  cases parts with
  | nil => exact ends_cons (by decide) r
  | cons s rest => exact ends_cons (by decide) _

/-- A word does not start like a node. -/
theorem word_ne_node {text : String} (hword : IsWord text) {r r' : List Char} : text.toList ++ r ≠ '(' :: r' := by
  cases htext : text.toList with
  | nil => exact absurd (String.toList_eq_nil_iff.mp htext) hword.1
  | cons c rest =>
      intro h
      have hplain := hword.2 c (by rw [htext]; exact List.mem_cons_self)
      rw [(List.cons.inj h).1] at hplain
      revert hplain
      decide

mutual

/-- A line is read up to its end, whatever follows there. -/
theorem line_cancel (b b' : Bracketed) (hb : b.Worded) (hb' : b'.Worded) {r r' : List Char} (hr : Ends r)
    (hr' : Ends r') (h : b.line.toList ++ r = b'.line.toList ++ r') : b = b' ∧ r = r' := by
  obtain ⟨text, parts⟩ := b
  obtain ⟨text', parts'⟩ := b'
  obtain ⟨htext, hparts⟩ := hb
  obtain ⟨htext', hparts'⟩ := hb'
  by_cases hnil : parts = [] <;> by_cases hnil' : parts' = []
  · subst hnil hnil'
    rw [toList_line_nil, toList_line_nil] at h
    obtain ⟨hsame, hrest⟩ := word_cancel htext.2 htext'.2 hr hr' h
    rw [String.toList_inj.mp hsame]
    exact ⟨rfl, hrest⟩
  · subst hnil
    rw [toList_line_nil, toList_line_cons _ hnil'] at h
    exact absurd h (word_ne_node htext)
  · subst hnil'
    rw [toList_line_nil, toList_line_cons _ hnil] at h
    exact absurd h.symm (word_ne_node htext')
  · rw [toList_line_cons _ hnil, toList_line_cons _ hnil'] at h
    obtain ⟨hsame, hrest⟩ := word_cancel htext.2 htext'.2 (ends_spaced _ r) (ends_spaced _ r')
      (List.cons.inj h).2
    obtain ⟨hsameParts, hbehind⟩ := lines_cancel parts parts' hparts hparts' hrest
    rw [String.toList_inj.mp hsame, hsameParts]
    exact ⟨rfl, hbehind⟩

/-- The parts of a node are read up to its parenthesis. -/
theorem lines_cancel (parts parts' : List Bracketed) (hparts : AllWorded parts) (hparts' : AllWorded parts')
    {r r' : List Char} (h : spaced (lines parts) ++ ')' :: r = spaced (lines parts') ++ ')' :: r') :
    parts = parts' ∧ r = r' := by
  cases parts with
  | nil =>
      cases parts' with
      | nil => exact ⟨rfl, (List.cons.inj h).2⟩
      | cons b' rest' => exact absurd (List.cons.inj h).1 (by decide)
  | cons b rest =>
      cases parts' with
      | nil => exact absurd (List.cons.inj h).1 (by decide)
      | cons b' rest' =>
          have hline : b.line.toList ++ (spaced (lines rest) ++ ')' :: r) =
              b'.line.toList ++ (spaced (lines rest') ++ ')' :: r') := by
            simpa [spaced, lines] using h
          obtain ⟨hsame, hrest⟩ := line_cancel b b' hparts.1 hparts'.1 (ends_spaced _ r) (ends_spaced _ r') hline
          obtain ⟨hsameRest, hbehind⟩ := lines_cancel rest rest' hparts.2 hparts'.2 hrest
          exact ⟨by rw [hsame, hsameRest], hbehind⟩

end

theorem line_injective {b b' : Bracketed} (hb : b.Worded) (hb' : b'.Worded) (h : b.line = b'.line) : b = b' := by
  have hend : Ends [] := fun c hc => nomatch hc
  exact (line_cancel b b' hb hb' hend hend (by rw [h])).1

end Bracketed

/-! ## Outlines -/

namespace Tree

mutual

/-- What is left of a tree on its line: null children are left out, labels and texts are escaped, and a node
without children is a text alone. -/
def outline? : Tree → Option Bracketed
  | rule label children => some (.mk (Text.escape label) (outlines children))
  | leaf .null => none
  | t => some (.mk (Text.escape t.shown) [])

def outlines : List Tree → List Bracketed
  | [] => []
  | t :: rest => t.outline?.toList ++ outlines rest

end

mutual

/-- A tree of rule nodes with texts, lexemes and null values as leaves, in which all labels and texts are
words. -/
def Spelled : Tree → Prop
  | rule label children => IsWord label ∧ AllSpelled children
  | leaf .null => True
  | leaf (.text s) => IsWord s
  | lexeme l => IsWord l.text
  | _ => False

def AllSpelled : List Tree → Prop
  | [] => True
  | t :: rest => t.Spelled ∧ AllSpelled rest

end

mutual

theorem writtenRule_eq (label : String) (children : List Tree) (h : AllSpelled children) :
    writtenRule label children = (Bracketed.mk (Text.escape label) (outlines children)).line := by
  rw [writtenRule, Bracketed.line, childTexts_eq children h]

/-- The texts of children are the lines of what is left of them. -/
theorem childTexts_eq (children : List Tree) (h : AllSpelled children) :
    childTexts children = Bracketed.lines (outlines children) := by
  cases children with
  | nil => rw [childTexts, outlines, Bracketed.lines]
  | cons t rest =>
      have hrest := childTexts_eq rest h.2
      rw [outlines]
      cases t with
      | rule label grandchildren =>
          rw [childTexts, writtenRule_eq label grandchildren h.1.2, hrest]
          rfl
      | lexeme l =>
          rw [childTexts, hrest]
          · rfl
          · exact fun _ _ => nofun
      | leaf v =>
          rw [childTexts, hrest]
          · cases v with
            | null => rfl
            | text s => rfl
            | _ => exact h.1.elim
          · exact fun _ _ => nofun
      | _ => exact h.1.elim

end

mutual

theorem worded_rule (label : String) (children : List Tree) (h : (rule label children).Spelled) :
    (Bracketed.mk (Text.escape label) (outlines children)).Worded :=
  ⟨h.1.escape, worded_outlines children h.2⟩

theorem worded_outlines (children : List Tree) (h : AllSpelled children) :
    Bracketed.AllWorded (outlines children) := by
  cases children with
  | nil => trivial
  | cons t rest =>
      have hrest := worded_outlines rest h.2
      rw [outlines]
      cases t with
      | rule label grandchildren => exact ⟨worded_rule label grandchildren h.1, hrest⟩
      | lexeme l => exact ⟨⟨IsWord.escape h.1, trivial⟩, hrest⟩
      | leaf v =>
          cases v with
          | null => exact hrest
          | text s => exact ⟨⟨IsWord.escape h.1, trivial⟩, hrest⟩
          | _ => exact h.1.elim
      | _ => exact h.1.elim

end

/-- **Tree lines.** Two rule nodes have the same line just if the same is left of them when null children are
left out, labels and texts are escaped, and nodes without children are taken for their labels. -/
theorem rule_written_eq_iff (label label' : String) (children children' : List Tree)
    (h : (rule label children).Spelled) (h' : (rule label' children').Spelled) :
    (rule label children).written = (rule label' children').written ↔
      (rule label children).outline? = (rule label' children').outline? := by
  rw [written, written, writtenRule_eq label children h.2, writtenRule_eq label' children' h'.2, outline?,
    outline?, Option.some.injEq]
  exact ⟨Bracketed.line_injective (worded_rule label children h) (worded_rule label' children' h'),
    congrArg Bracketed.line⟩

/-- A node with a null child, a tab in its label, a text and a lexeme that holds a newline. -/
def rawNode : Tree := rule "a\tb" [leaf .null, text "x", lexeme { terminal := "T", text := "\n" }]

/-- The same with the label and the lexeme escaped, and the text as a node without children. -/
def escapedNode : Tree := rule "a\\tb" [rule "x" [leaf .null], text "\\n"]

theorem rule_written_eq_iff_raw :
    rawNode.Spelled ∧ escapedNode.Spelled ∧ rawNode.written = escapedNode.written := by
  have hword : IsWord "a\tb" ∧ IsWord "x" ∧ IsWord "\n" ∧ IsWord "a\\tb" ∧ IsWord "\\n" := by decide +kernel
  obtain ⟨htab, hx, hnewline, htab', hnewline'⟩ := hword
  have hraw : rawNode.Spelled := ⟨htab, trivial, hx, hnewline, trivial⟩
  have hescaped : escapedNode.Spelled := ⟨htab', ⟨hx, trivial, trivial⟩, hnewline', trivial⟩
  exact ⟨hraw, hescaped, (rule_written_eq_iff _ _ _ _ hraw hescaped).mpr rfl⟩

end Tree

end GrammarBench
