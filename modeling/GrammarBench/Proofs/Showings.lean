import GrammarBench.Tree.Showing

/-!
# Objects that show themselves as those of the bench do

When nothing is shown in a way of its own, lines of tokens and trees and drawings are the ones of the bench, unless one
of the numbers in them is too long to be written.

* `Showing.treeLine_eq`: the line of a tree.
* `Showing.drawing_eq`: the drawing of a tree.
-/

namespace GrammarBench

variable {α β γ : Type}

theorem withNumbers_nil (shown : α) : withNumbers [] shown = .ok shown := rfl

theorem withNumbers_map (numbers : List Int) (shown : α) (f : α → β) :
    (withNumbers numbers shown).map f = withNumbers numbers (f shown) := by
  unfold withNumbers
  split <;> rfl

theorem withNumbers_bind (numbers : List Int) (shown : α) (f : α → β) :
    (do return f (← withNumbers numbers shown)) = withNumbers numbers (f shown) := by
  unfold withNumbers
  split <;> rfl

/-- Two things that are shown one after the other. -/
theorem withNumbers_append (numbers others : List Int) (shown : α) (behind : β) (f : α → β → γ) :
    (do return f (← withNumbers numbers shown) (← withNumbers others behind)) =
      withNumbers (numbers ++ others) (f shown behind) := by
  unfold withNumbers
  rw [List.all_append]
  cases numbers.all isWritable <;> cases others.all isWritable <;> rfl

namespace Tree

theorem numbers_of_isNull {t : Tree} (h : t.isNull = true) : t.numbers = [] := by
  cases t with
  | leaf v =>
      cases v with
      | null => rfl
      | _ => cases h
  | _ => cases h

theorem numbersOfAll_eq_nil {ts : List Tree} (h : ∀ t ∈ ts, t.numbers = []) : numbersOfAll ts = [] := by
  induction ts with
  | nil => rw [numbersOfAll]
  | cons t ts ih =>
      rw [List.forall_mem_cons] at h
      rw [numbersOfAll, h.1, ih h.2, List.nil_append]

/-- The text of a part of a rule node. -/
def partWritten : Tree → String
  | rule label children => writtenRule label children
  | t => Text.escape t.shown

theorem childTexts_cons (t : Tree) (ts : List Tree) :
    childTexts (t :: ts) = if t.isNull then childTexts ts else t.partWritten :: childTexts ts := by
  cases t with
  | rule label children =>
      rw [childTexts, isNull, if_neg Bool.false_ne_true, partWritten]
      simp
  | _ =>
      rw [childTexts]
      · rfl
      · simp

mutual

/-- The numbers in the drawing of a tree. -/
def drawnNumbers (symbols : Symbols) : Tree → List Int
  | rule _ children | node _ children | plain _ children | bare children => drawnNumbersOfAll symbols children
  | token t => displayNumbers t.kind symbols
  | leaf v => v.numbers
  | lexeme _ => []
  | list items => numbersOfAll items

def drawnNumbersOfAll (symbols : Symbols) : List Tree → List Int
  | [] => []
  | t :: ts => drawnNumbers symbols t ++ drawnNumbersOfAll symbols ts

end

theorem drawnNumbers_of_isNull (symbols : Symbols) {t : Tree} (h : t.isNull = true) : drawnNumbers symbols t = [] := by
  cases t with
  | leaf v => exact numbers_of_isNull h
  | _ => cases h

end Tree

namespace Showing

open GrammarBench.Tree

/-! ## Lines -/

theorem text_eq (t : Tree) : ({} : Showing).text t = withNumbers t.numbers t.shown := rfl

mutual

theorem partText_eq (t : Tree) : ({} : Showing).partText t = withNumbers t.numbers t.partWritten := by
  cases t with
  | rule label children =>
      rw [partText, partTexts_eq children, numbers, partWritten, writtenRule]
      exact withNumbers_bind _ _ (parenthesized (Text.escape label))
  | _ =>
      rw [partText, text_eq, withNumbers_map, partWritten]
      all_goals exact fun _ _ => nofun

theorem partTexts_eq (ts : List Tree) :
    ({} : Showing).partTexts ts = withNumbers (numbersOfAll ts) (childTexts ts) := by
  cases ts with
  | nil => rw [partTexts, numbersOfAll, childTexts, withNumbers_nil]
  | cons t ts =>
      have hrest := partTexts_eq ts
      rw [partTexts, numbersOfAll, childTexts_cons]
      split
      · rw [hrest, numbers_of_isNull ‹_›, List.nil_append]
      · rw [partText_eq t, hrest]
        exact withNumbers_append _ _ _ _ _

end

/-- The line of a tree is the one that the bench writes. -/
theorem treeLine_eq (t : Tree) : ({} : Showing).treeLine t = withNumbers t.numbers t.written := by
  cases t with
  | rule label children => exact partText_eq (rule label children)
  | _ => rfl

/-! ## Drawings -/

variable (symbols : Symbols)

theorem leafLabel_eq {t : Tree} (h : t.nodeLabel? = none) :
    ({} : Showing).leafLabel symbols t = withNumbers (drawnNumbers symbols t) (Drawing.leafLabel symbols t) := by
  cases t with
  | rule | node | plain | bare => cases h
  | token t =>
      rw [drawnNumbers]
      exact withNumbers_bind _ _ (Label.typed (Text.escape (t.text.getD "")))
  | lexeme l =>
      rw [drawnNumbers]
      exact withNumbers_bind [] l.text fun text => Label.typed (Text.escape text) l.terminal
  | leaf v =>
      rw [drawnNumbers]
      exact withNumbers_bind _ _ fun text => Label.ofText (Text.escape text) .bold
  | list items =>
      rw [drawnNumbers]
      exact withNumbers_bind _ _ fun text => Label.ofText (Text.escape text) .bold

theorem drawing_leaf {t : Tree} (h : t.nodeLabel? = none) : ({} : Showing).drawing symbols t =
    withNumbers (drawnNumbers symbols t) (Drawing.ofTree symbols t) := by
  cases t with
  | rule | node | plain | bare => cases h
  | _ =>
      rw [drawing, leafLabel_eq symbols h, Drawing.ofTree]
      · exact withNumbers_bind _ _ (Drawing.branch · [])
      all_goals simp

mutual

/-- The drawing of a tree is the one that the bench makes. -/
theorem drawing_eq (t : Tree) :
    ({} : Showing).drawing symbols t = withNumbers (drawnNumbers symbols t) (Drawing.ofTree symbols t) := by
  cases t with
  | rule label children | node label children | plain label children =>
      rw [drawing, drawings_eq children, drawnNumbers, Drawing.ofTree]
      exact withNumbers_bind _ _ (Drawing.branch _)
  | bare children =>
      rw [drawing, drawings_eq children, drawnNumbers, Drawing.ofTree]
      exact withNumbers_bind _ _ (Drawing.branch _)
  | _ => exact drawing_leaf symbols rfl

theorem drawings_eq (ts : List Tree) : ({} : Showing).drawings symbols ts =
    withNumbers (drawnNumbersOfAll symbols ts) (Drawing.ofChildren symbols ts) := by
  cases ts with
  | nil => rw [drawings, drawnNumbersOfAll, Drawing.ofChildren, withNumbers_nil]
  | cons t ts =>
      have hrest := drawings_eq ts
      rw [drawings, drawnNumbersOfAll, Drawing.ofChildren]
      split
      · rw [hrest, drawnNumbers_of_isNull symbols ‹_›, List.nil_append]
      · rw [drawing_eq t, hrest]
        exact withNumbers_append _ _ _ _ _

end

end Showing

end GrammarBench
