import GrammarBench.Proofs.TreeLines
import GrammarBench.Tree.Drawing

/-!
# What drawings of trees show

A drawing has one branch for every child that is not null, level by level, and it can be read back as the line of the
tree. The label of a node stands for its escaped text, the label of a lexeme for its text without the terminal behind
it, and any other label for itself. Labels drop some control characters, so none of these may stand in the tree.

* `Drawing.Shows`, `Drawing.shows_ofTree`: the drawing of a tree has its shape.
* `Label.reading`, `Drawing.outline`: a label and a drawing read back.
* `Drawing.ofTree_reads_written`: the drawing of a rule node reads as its line.
-/

namespace GrammarBench

/-! ## Hidden characters -/

/-- Bell, backspace, vertical tab and form feed. -/
def isHiddenControl (c : Char) : Bool := c.toNat = 7 || c.toNat = 8 || c.toNat = 11 || c.toNat = 12

/-- A label drops these and carriage returns. -/
theorem isDropped_iff (c : Char) : Label.isDropped c = true ↔ isHiddenControl c = true ∨ c = '\r' := by
  have hcode : ∀ d : Char, c = d ↔ c.toNat = d.toNat := fun d => (Char.toNat_inj (c := c) (d := d)).symm
  simp [Label.isDropped, isHiddenControl, hcode, or_assoc]

/-- Nothing is dropped from an escaped text, whatever the white space in it. -/
theorem isDropped_escape {s : String} (h : ∀ c ∈ s.toList, isHiddenControl c = false) :
    ∀ d ∈ (Text.escape s).toList, Label.isDropped d = false := by
  intro d hd
  rw [Text.toList_escape] at hd
  rcases Text.mem_escapeList hd with ⟨hmem, -, hreturn, -⟩ | hd
  · rw [Bool.eq_false_iff, ne_eq, isDropped_iff]
    rintro (hhidden | heq)
    · rw [h d hmem] at hhidden
      cases hhidden
    · exact hreturn heq
  · simp only [List.mem_cons, List.not_mem_nil, or_false] at hd
    rcases hd with rfl | rfl | rfl | rfl
    all_goals decide

/-! ## Labels -/

namespace Label

/-- The text that a label names: without the type that stands dim behind it, and the blank between them. -/
def named (l : Label) : List Char :=
  match l.spans.getLast? with
  | some ⟨first, _, .dim⟩ => l.text.take (first - 1)
  | _ => l.text

/-- How a label reads on a line: those of leaves are escaped as they stand, those of nodes are not. -/
def reading (l : Label) : String :=
  if l.style = .cyan then Text.escape (String.ofList l.text) else String.ofList l.named

variable {s : String}

theorem filter_shown {cs : List Char} (h : ∀ c ∈ cs, isDropped c = false) :
    cs.filter (!isDropped ·) = cs := by
  rw [List.filter_eq_self]
  intro c hc
  rw [h c hc]
  rfl

theorem reading_node (h : ∀ c ∈ s.toList, isDropped c = false) : (ofText s .cyan).reading = Text.escape s := by
  unfold reading ofText
  rw [if_pos rfl, filter_shown h, String.ofList_toList]

theorem reading_plain (h : ∀ c ∈ s.toList, isDropped c = false) : (ofText s .bold).reading = s := by
  have hstyle : (ofText s .bold).style ≠ .cyan := nofun
  unfold reading
  rw [if_neg hstyle]
  show String.ofList (s.toList.filter _) = s
  rw [filter_shown h, String.ofList_toList]

/-- What is left of a type on a label. -/
def shownType (type : String) : List Char := ("<" ++ type ++ ">").toList.filter (!isDropped ·)

theorem text_add (l : Label) (piece : String) (style : Style) :
    (l.add piece style).text = l.text ++ piece.toList.filter (!isDropped ·) := rfl

/-- A label with a type: the text, a blank, and the type, which is marked from its first character on. -/
theorem typed_eq (h : ∀ c ∈ s.toList, isDropped c = false) (type : String) :
    (typed s type).style = .plain ∧ (typed s type).text = s.toList ++ (' ' :: shownType type) ∧
      (typed s type).spans.getLast? =
        some ⟨s.toList.length + 1, s.toList.length + 1 + (shownType type).length, .dim⟩ := by
  have hfront : (((ofText "" .plain).add s .bold).add " " .plain).text = s.toList ++ [' '] := by
    rw [text_add, text_add, filter_shown h]
    rfl
  have hempty : ("<" ++ type ++ ">").isEmpty = false := by
    rw [String.isEmpty_eq_false_iff]
    intro hnil
    have hlist := congrArg String.toList hnil
    simp at hlist
  refine ⟨rfl, ?_, ?_⟩
  · rw [typed, text_add, hfront, List.append_assoc]
    rfl
  · have hspans : (typed s type).spans = (((ofText "" .plain).add s .bold).add " " .plain).spans ++
        [⟨s.toList.length + 1, s.toList.length + 1 + (shownType type).length, .dim⟩] := by
      unfold typed
      rw [add, hempty, hfront]
      simp [shownType]
    rw [hspans, List.getLast?_concat]

theorem reading_typed (h : ∀ c ∈ s.toList, isDropped c = false) (type : String) : (typed s type).reading = s := by
  obtain ⟨hstyle, htext, hspan⟩ := typed_eq h type
  have hnamed : (typed s type).named = s.toList := by
    unfold named
    rw [hspan, htext]
    exact List.take_left
  unfold reading
  rw [hstyle, if_neg (by decide), hnamed, String.ofList_toList]

end Label

/-! ## Trees -/

namespace Tree

/-- The children of a node; a leaf has none. -/
def parts : Tree → List Tree
  | rule _ children | node _ children | plain _ children | bare children => children
  | _ => []

mutual

/-- A tree of rule nodes with texts, lexemes and null values as leaves. No hidden control character stands in a
label or a text, and no carriage return in a label. -/
def Drawable : Tree → Prop
  | rule label children =>
    (∀ c ∈ label.toList, isHiddenControl c = false ∧ c ≠ '\r') ∧ AllDrawable children
  | leaf .null => True
  | leaf (.text s) => ∀ c ∈ s.toList, isHiddenControl c = false
  | lexeme l => ∀ c ∈ l.text.toList, isHiddenControl c = false
  | _ => False

def AllDrawable : List Tree → Prop
  | [] => True
  | t :: rest => t.Drawable ∧ AllDrawable rest

end

end Tree

namespace Drawing

/-! ## Shape -/

/-- A drawing with one branch for every child that is not null, in their order, and so on for each branch. -/
inductive Shows : Tree → Drawing → Prop
  | branch {t : Tree} {ds : List Drawing} (label : Label) :
      List.Forall₂ Shows (t.parts.filter (!·.isNull)) ds → Shows t (branch label ds)

mutual

theorem shows_ofTree (symbols : Symbols) (t : Tree) : Shows t (ofTree symbols t) := by
  cases t with
  | rule label children => exact .branch _ (shows_ofChildren symbols children)
  | node label children => exact .branch _ (shows_ofChildren symbols children)
  | plain label children => exact .branch _ (shows_ofChildren symbols children)
  | bare children => exact .branch _ (shows_ofChildren symbols children)
  | leaf v => exact .branch _ .nil
  | token t => exact .branch _ .nil
  | lexeme l => exact .branch _ .nil
  | list items => exact .branch _ .nil

theorem shows_ofChildren (symbols : Symbols) (children : List Tree) :
    List.Forall₂ Shows (children.filter (!·.isNull)) (ofChildren symbols children) := by
  cases children with
  | nil => exact .nil
  | cons t rest =>
      have hrest := shows_ofChildren symbols rest
      rw [ofChildren]
      cases hnull : t.isNull with
      | true =>
          rw [List.filter_cons_of_neg (by simp [hnull]), if_pos rfl]
          exact hrest
      | false =>
          rw [List.filter_cons_of_pos (by simp [hnull]), if_neg (by decide)]
          exact .cons (shows_ofTree symbols t) hrest

end

/-! ## Reading back -/

mutual

/-- A drawing read back: the labels, with what is below them in parentheses. -/
def outline : Drawing → Bracketed
  | branch label ds => .mk label.reading (outlines ds)

def outlines : List Drawing → List Bracketed
  | [] => []
  | d :: ds => d.outline :: outlines ds

end

/-- The drawing of a leaf reads as its label. -/
theorem line_leaf (symbols : Symbols) {t : Tree} (h : t.nodeLabel? = none) :
    (ofTree symbols t).outline.line = (leafLabel symbols t).reading := by
  have hbranch : ofTree symbols t = branch (leafLabel symbols t) [] := by
    cases t with
    | rule | node | plain | bare => cases h
    | _ => rfl
  rw [hbranch]
  rfl

theorem childTexts_leaf {t : Tree} (h : t.nodeLabel? = none) (hnull : t.isNull = false) (rest : List Tree) :
    Tree.childTexts (t :: rest) = Text.escape t.shown :: Tree.childTexts rest := by
  cases t with
  | rule | node | plain | bare => cases h
  | _ =>
      rw [Tree.childTexts, hnull]
      · rfl
      · intro _ _ heq
        cases heq

mutual

theorem line_rule (symbols : Symbols) (label : String) (children : List Tree)
    (h : (Tree.rule label children).Drawable) :
    (ofTree symbols (.rule label children)).outline.line = Tree.writtenRule label children := by
  obtain ⟨hlabel, hchildren⟩ := h
  have hshown : ∀ c ∈ label.toList, Label.isDropped c = false := by
    intro c hc
    obtain ⟨hhidden, hreturn⟩ := hlabel c hc
    rw [Bool.eq_false_iff, ne_eq, isDropped_iff, hhidden]
    simpa using hreturn
  rw [ofTree, outline, Bracketed.line, Label.reading_node hshown, lines_children symbols children hchildren,
    Tree.writtenRule]

/-- The branches of a node read as the texts of its children. -/
theorem lines_children (symbols : Symbols) (children : List Tree) (h : Tree.AllDrawable children) :
    Bracketed.lines (outlines (ofChildren symbols children)) = Tree.childTexts children := by
  cases children with
  | nil => rw [ofChildren, outlines, Bracketed.lines, Tree.childTexts]
  | cons t rest =>
      obtain ⟨hfirst, hothers⟩ := h
      have hrest := lines_children symbols rest hothers
      have hshown : t.isNull = false → Bracketed.lines (outlines (ofChildren symbols (t :: rest))) =
          (ofTree symbols t).outline.line :: Tree.childTexts rest := by
        intro hnull
        rw [ofChildren, hnull, if_neg (by decide), outlines, Bracketed.lines, hrest]
      cases t with
      | rule label grandchildren =>
          rw [hshown rfl, line_rule symbols label grandchildren hfirst, Tree.childTexts]
      | lexeme l =>
          rw [hshown rfl, line_leaf symbols rfl, childTexts_leaf rfl rfl, leafLabel,
            Label.reading_typed (isDropped_escape hfirst)]
          rfl
      | leaf v =>
          cases v with
          | null =>
              rw [ofChildren, Tree.childTexts]
              · exact hrest
              · exact fun _ _ => nofun
          | text s =>
              rw [hshown rfl, line_leaf symbols rfl, childTexts_leaf rfl rfl]
              exact congrArg (· :: _) (Label.reading_plain (isDropped_escape hfirst))
          | _ => exact hfirst.elim
      | _ => exact hfirst.elim

end

/-- **Drawings of trees.** The drawing of a rule node has one branch for every child that is not null, level by
level, and reads as the line of the node. -/
theorem ofTree_reads_written (symbols : Symbols) (label : String) (children : List Tree)
    (h : (Tree.rule label children).Drawable) :
    Shows (.rule label children) (ofTree symbols (.rule label children)) ∧
      (ofTree symbols (.rule label children)).outline.line = (Tree.rule label children).written :=
  ⟨shows_ofTree symbols _, line_rule symbols label children h⟩

/-- White space in a label, in a text and in a lexeme, null children, a node without any other, and a terminal of
which a character is not shown. -/
def spacedNode : Tree :=
  .rule "a\nb" [.leaf .null, .rule "c" [.leaf .null], .text "x\r",
    .lexeme { terminal := "T\x07", text := "\t" }]

theorem ofTree_reads_written_spacedNode :
    spacedNode.Drawable ∧ Shows spacedNode (ofTree [] spacedNode) ∧
      (ofTree [] spacedNode).outline.line = spacedNode.written ∧ spacedNode.written = "(a\\nb c x\\r \\t)" := by
  have hclean {p : Char → Prop} [DecidablePred p] {s : String} (h : s.toList.all (decide <| p ·) = true) :
      ∀ c ∈ s.toList, p c := fun c hc => of_decide_eq_true (List.all_eq_true.mp h c hc)
  have hdrawable : spacedNode.Drawable :=
    ⟨hclean (by decide), trivial, ⟨hclean (by decide), trivial, trivial⟩, hclean (by decide), hclean (by decide),
      trivial⟩
  obtain ⟨hshows, hreads⟩ := ofTree_reads_written [] _ _ hdrawable
  exact ⟨hdrawable, hshows, hreads, by cbv⟩

end Drawing

end GrammarBench
