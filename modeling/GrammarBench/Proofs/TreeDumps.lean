import GrammarBench.Proofs.Escapes
import GrammarBench.Proofs.GrammarTrees

/-!
# Trees on one line

The dump of a rule node is one line, whatever its labels and texts are. A rule that has been replaced by its only
child may end with a lone token instead of a node, and the dump of such a token is its text as it is.

* `OneLine.parenthesized`: parts on one line are put together on one line.
* `Tree.oneLine_writtenRule`: the dump of a rule node.
* `GrammarClasses.invoke_written`: when the dump of what a rule gives is one line.
-/

namespace GrammarBench

open Grammar

/-! ## Texts on one line -/

namespace OneLine

variable {s t : String}

theorem append (hs : OneLine s) (ht : OneLine t) : OneLine (s ++ t) := by
  intro c hc
  rw [String.toList_append, List.mem_append] at hc
  exact hc.elim (hs c) (ht c)

theorem blank : OneLine " " := by
  intro c hc
  rw [List.mem_singleton.mp hc]
  decide

theorem intercalate {parts : List String} (h : ∀ s ∈ parts, OneLine s) : OneLine (" ".intercalate parts) := by
  induction parts with
  | nil => exact fun c hc => nomatch hc
  | cons s rest ih =>
      rw [List.forall_mem_cons] at h
      cases rest with
      | nil => exact h.1
      | cons t rest =>
          rw [String.intercalate_cons_cons]
          exact (h.1.append blank).append (ih h.2)

theorem parenthesized {label : String} {parts : List String} (hlabel : OneLine label)
    (hparts : ∀ s ∈ parts, OneLine s) : OneLine (Tree.parenthesized label parts) := by
  have hopen : OneLine "(" := fun c hc => by
    rw [List.mem_singleton.mp hc]
    decide
  have hclose : OneLine ")" := fun c hc => by
    rw [List.mem_singleton.mp hc]
    decide
  unfold Tree.parenthesized
  split
  · exact hlabel
  · exact (((hopen.append hlabel).append blank).append (intercalate hparts)).append hclose

end OneLine

/-! ## Dumps -/

namespace Tree

mutual

/-- The dump of a rule node is one line. -/
theorem oneLine_writtenRule (label : String) (children : List Tree) : OneLine (writtenRule label children) := by
  rw [writtenRule]
  exact (OneLine.escape label).parenthesized (oneLine_childTexts children)

theorem oneLine_childTexts (ts : List Tree) : ∀ s ∈ childTexts ts, OneLine s := by
  cases ts with
  | nil =>
      rw [childTexts]
      exact fun s hs => nomatch hs
  | cons t ts =>
      have hrest := oneLine_childTexts ts
      cases t with
      | rule label children =>
          rw [childTexts]
          exact List.forall_mem_cons.mpr ⟨oneLine_writtenRule label children, hrest⟩
      | _ =>
          rw [childTexts]
          · split
            · exact hrest
            · exact List.forall_mem_cons.mpr ⟨OneLine.escape _, hrest⟩
          · exact fun _ _ h => nomatch h

end

end Tree

/-! ## What rules give -/

namespace GrammarClasses

open Bridge

variable {g : GrammarClasses} {rule : String} {s : Stream} {tokens : List Token} {t : Tree}

/-- **Dumps of parse trees.** What a rule of a grammar gives is the node of a rule, whose dump is one line whatever
the texts of the tokens are, or a lone token that was fed. It is such a token only where a production gives its only
child in place of a node; then the dump is the text of the token as it is, and one line just if that text is. -/
theorem invoke_written (hg : g.Made) (hrule : rule ∈ g.rules) (hs : s.fill.1 = .ok tokens)
    (ht : ((Parser.ofStream g.parser s).invoke rule).result = .ok t) :
    (OneLine t.written ↔ ∀ x, t = .lexeme x → OneLine x.text) ∧
      ((∃ label children, t = .rule label children) ∨
        ∃ x ∈ (script g.language tokens).fed, t = .lexeme x ∧ t.written = x.text ∧
          ∃ p ∈ g.language.automaton.productions.toList, p.Collapses) := by
  obtain ⟨hperform, hnull⟩ := perform_of_invoke hg hrule hs ht
  obtain ⟨hgrown, hmade⟩ := Language.perform_grown hperform
  cases hgrown with
  | @lexeme x hx =>
      refine ⟨⟨fun hline x' hx' => ?_, fun hall => hall x rfl⟩, Or.inr ⟨x, hx, rfl, rfl, ?_⟩⟩
      · rw [← Tree.lexeme.inj hx']
        exact hline
      · refine hmade.resolve_left fun hnode => ?_
        obtain ⟨label, children, hnode⟩ := hnode
        cases hnode
  | null => cases hnull
  | @node label children _ =>
      have hline : OneLine (Tree.rule label children).written := Tree.oneLine_writtenRule label children
      exact ⟨⟨fun _ x hx => (nomatch hx), fun _ => hline⟩, Or.inl ⟨label, children, rfl⟩⟩

/-- The language of a newline that may be absent, with nodes for the rule. -/
def breakLanguage : Language :=
  { optionalLanguage with automaton := { optionalLanguage.automaton with
      productions := #[{ origin := "$root_start", items := [⟨.rule "start", false⟩] },
        { origin := "start", items := [⟨.terminal "A", false⟩] },
        { origin := "start", items := [], gaps := [1] }] } }

theorem invoke_written_breakLanguage : ∃ g : GrammarClasses, g.Made ∧ g.language = breakLanguage ∧
    ((Parser.ofStream g.parser (Stream.ofEmission (g.lexer.emission "\n"))).invoke "start").result =
      .ok (.rule "start" [.lexeme breakLexeme]) ∧
    OneLine (Tree.rule "start" [.lexeme breakLexeme]).written := by
  obtain ⟨g, hg, hlanguage, hrules⟩ := exists_made breakLanguage ["start"]
  have hrule : "start" ∈ g.rules := by
    rw [hrules]
    exact List.mem_cons_self
  have hfill : (Stream.ofEmission (g.lexer.emission "\n")).fill.1 = .ok breakTokens := by
    rw [emission_eq hg, hlanguage]
    decide +kernel
  have hresult : ((Parser.ofStream g.parser (Stream.ofEmission (g.lexer.emission "\n"))).invoke "start").result =
      .ok (.rule "start" [.lexeme breakLexeme]) := by
    rw [invoke_eq hg hrule hfill, hlanguage]
    rfl
  obtain ⟨hline, -⟩ := invoke_written hg hrule hfill hresult
  exact ⟨g, hg, hlanguage, hresult, hline.mpr fun x hx => nomatch hx⟩

/-- A rule that is replaced by its only child gives the token of a newline alone, and its dump is that newline. -/
theorem broken_optionalText : ∃ g, build Layer.firstFree "g" optionalText "m" [] bareShelf = .ok g ∧
    "start" ∈ g.rules ∧
    ((Parser.ofStream g.parser (Stream.ofEmission (g.lexer.emission "\n"))).invoke "start").result =
      .ok (.lexeme breakLexeme) ∧
    (Tree.lexeme breakLexeme).written = "\n" ∧ ¬ OneLine (Tree.lexeme breakLexeme).written := by
  obtain ⟨g, hbuild, hg, hlanguage, hrule⟩ := exists_build_single (.head _)
  have hfill : (Stream.ofEmission (g.lexer.emission "\n")).fill.1 = .ok breakTokens := by
    rw [emission_eq hg, hlanguage]
    decide +kernel
  refine ⟨g, hbuild, hrule, ?_, rfl, fun hline => ?_⟩
  · rw [invoke_eq hg hrule hfill, hlanguage]
    rfl
  · exact (hline '\n' List.mem_cons_self).1 rfl

end GrammarClasses

end GrammarBench
