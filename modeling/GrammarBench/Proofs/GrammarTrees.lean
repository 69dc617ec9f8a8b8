import GrammarBench.Proofs.Feeding

/-!
# Trees that grammars make

The trees on the stack of a reading are the lexemes taken and what productions have made of them, so a rule ends
with a node, with a lexeme that was fed, or with a null that an absent optional part has left. The last two need a
production that gives its only child in place of a node.

* `Production.tree_cases`: the tree of a production is its node or its only child.
* `Grown`, `Stack.feed_grown`: what stands on a stack, and that feeding keeps to it.
* `Language.perform_grown`: what a reading ends with.
-/

namespace GrammarBench

open Grammar

namespace Grammar

/-! ## Trees of productions -/

namespace Production

/-- A production that gives its only child in place of a node. -/
def Collapses (p : Production) : Prop := p.options.collapse = true ∧ p.givenName = none

/-- A production that leaves a null for an absent optional part. -/
def LeavesNull (p : Production) : Prop := ∃ n ∈ p.gaps, 0 < n

theorem tree_cases (p : Production) (ts : List Tree) :
    p.tree ts = .rule p.label (p.children ts) ∨ p.Collapses ∧ p.children ts = [p.tree ts] := by
  unfold tree
  cases hcollapse : p.options.collapse && p.givenName.isNone with
  | false => exact Or.inl rfl
  | true =>
      rw [Bool.and_eq_true, Option.isNone_iff_eq_none] at hcollapse
      match p.children ts with
      | [] => exact Or.inl rfl
      | [t] => exact Or.inr ⟨hcollapse, rfl⟩
      | _ :: _ :: _ => exact Or.inl rfl

end Production

theorem mem_nulls {n : Nat} {t : Tree} (h : t ∈ nulls n) : t = .leaf .null ∧ 0 < n := by
  obtain ⟨hn, ht⟩ := List.mem_replicate.mp h
  exact ⟨ht, Nat.pos_of_ne_zero hn⟩

/-- What the items leave: nulls of the gaps, trees of the items, and children of such trees. -/
theorem mem_leavings {keepAll : Bool} {gaps : List Nat} {items : List Item} {ts : List Tree} {u : Tree}
    (h : u ∈ leavings keepAll gaps items ts) :
    (u = .leaf .null ∧ ∃ n ∈ gaps, 0 < n) ∨ ∃ t ∈ ts, u = t ∨ u ∈ inlined t := by
  have hgap : ∀ gaps : List Nat, u ∈ nulls (gaps.head?.getD 0) → u = .leaf .null ∧ ∃ n ∈ gaps, 0 < n := by
    intro gaps hu
    obtain ⟨hnull, hpos⟩ := mem_nulls hu
    cases gaps with
    | nil => cases hpos
    | cons n rest => exact ⟨hnull, n, List.mem_cons_self, hpos⟩
  induction items generalizing gaps ts with
  | nil => exact Or.inl (hgap gaps (by cases ts <;> exact h))
  | cons item items ih =>
      cases ts with
      | nil => exact Or.inl (hgap gaps h)
      | cons t ts =>
          rw [leavings, List.mem_append, List.mem_append] at h
          rcases h with (hnull | hown) | hrest
          · exact Or.inl (hgap gaps hnull)
          · refine Or.inr ⟨t, List.mem_cons_self, ?_⟩
            split at hown
            · cases hown
            · split at hown
              · exact Or.inr hown
              · exact Or.inl (List.mem_singleton.mp hown)
          · rcases ih hrest with ⟨hnull, n, hn, hpos⟩ | ⟨t', ht', hu⟩
            · exact Or.inl ⟨hnull, n, List.mem_of_mem_tail hn, hpos⟩
            · exact Or.inr ⟨t', List.mem_cons_of_mem t ht', hu⟩

/-! ## Stacks -/

/-- A tree that productions can have made of some lexemes. -/
inductive Grown (a : Automaton) (xs : List Lexeme) : Tree → Prop
  | lexeme {x : Lexeme} : x ∈ xs → Grown a xs (.lexeme x)
  | null {p : Production} : p ∈ a.productions.toList → p.LeavesNull → Grown a xs (.leaf .null)
  | node {label : String} {children : List Tree} :
      (∀ t ∈ children, Grown a xs t) → Grown a xs (.rule label children)

section

variable {a : Automaton} {xs : List Lexeme}

theorem Grown.of_inlined {t u : Tree} (h : Grown a xs t) (hu : u ∈ inlined t) : Grown a xs u := by
  cases h with
  | lexeme hx =>
      rw [List.mem_singleton.mp hu]
      exact .lexeme hx
  | null hp hnull =>
      rw [List.mem_singleton.mp hu]
      exact .null hp hnull
  | node hchildren => exact hchildren u hu

/-- A number without a production stands for one without items, gaps or options. -/
theorem getD_productions (n : Nat) :
    a.productions.getD n default ∈ a.productions.toList ∨ a.productions.getD n default = default := by
  rw [Array.getD_eq_getD_getElem?]
  by_cases hn : n < a.productions.size
  · left
    rw [Array.getElem?_eq_getElem hn, Option.getD_some]
    exact Array.getElem_mem_toList hn
  · right
    rw [Array.getElem?_eq_none (by omega), Option.getD_none]

theorem mem_productions_of_collapses {n : Nat} (h : (a.productions.getD n default).Collapses) :
    a.productions.getD n default ∈ a.productions.toList := by
  refine (getD_productions n).resolve_right fun hdefault => ?_
  rw [hdefault] at h
  cases h.1

/-- What a production makes of grown trees is grown. -/
theorem Grown.tree {n : Nat} {ts : List Tree} (h : ∀ t ∈ ts, Grown a xs t) :
    Grown a xs ((a.productions.getD n default).tree ts) := by
  have hchildren : ∀ u ∈ (a.productions.getD n default).children ts, Grown a xs u := by
    intro u hu
    rcases mem_leavings hu with ⟨rfl, hnull⟩ | ⟨t, ht, rfl | hinlined⟩
    · refine .null ((getD_productions n).resolve_right fun hdefault => ?_) hnull
      rw [hdefault] at hnull
      obtain ⟨m, hm, -⟩ := hnull
      cases hm
    · exact h u ht
    · exact (h t ht).of_inlined hinlined
  rcases (a.productions.getD n default).tree_cases ts with hnode | ⟨-, honly⟩
  · rw [hnode]
    exact .node hchildren
  · refine hchildren _ ?_
    rw [honly]
    exact List.mem_singleton_self _

end

namespace Stack

variable {a : Automaton} {xs : List Lexeme} {s : Stack}

theorem reduce_grown {n : Nat} {s' : Stack} (hs : ∀ t ∈ s.trees, Grown a xs t) (h : s.reduce a n = some s') :
    (∀ t ∈ s'.trees, Grown a xs t) ∧ ∃ ts, s'.trees.head? = some ((a.productions.getD n default).tree ts) := by
  unfold reduce at h
  dsimp only at h
  split at h
  · cases h
    refine ⟨List.forall_mem_cons.mpr ⟨Grown.tree fun t ht => ?_, fun t ht => ?_⟩, _, rfl⟩
    · exact hs t (List.mem_of_mem_take (List.mem_reverse.mp ht))
    · exact hs t (List.mem_of_mem_drop ht)
  · cases h

/-- Feeding leaves grown trees on the stack, and what it finishes with has been made by a production. -/
theorem feed_grown {goal : Option Nat} {terminal : String} {leaf : Tree} {rounds : Nat}
    (hs : ∀ t ∈ s.trees, Grown a xs t) :
    (∀ s', s.feed a goal terminal leaf rounds = .taken s' → Grown a xs leaf → ∀ t ∈ s'.trees, Grown a xs t) ∧
      ∀ t, s.feed a goal terminal leaf rounds = .finished t →
        Grown a xs t ∧ ∃ n ts, t = (a.productions.getD n default).tree ts := by
  induction rounds generalizing s with
  | zero => exact ⟨fun s' hs => (nomatch hs), fun t ht => (nomatch ht)⟩
  | succ rounds ih =>
      rw [feed]
      cases (s.row a).lookup terminal with
      | none => exact ⟨fun s' hs => (nomatch hs), fun t ht => (nomatch ht)⟩
      | some action =>
          cases action with
          | shift n =>
              refine ⟨fun s' htaken hleaf => ?_, fun t ht => (nomatch ht)⟩
              cases htaken
              exact List.forall_mem_cons.mpr ⟨hleaf, hs⟩
          | reduce n =>
              dsimp only
              cases hreduce : s.reduce a n with
              | none => exact ⟨fun s' hs => (nomatch hs), fun t ht => (nomatch ht)⟩
              | some s₁ =>
                  obtain ⟨hgrown, ts, hhead⟩ := reduce_grown hs hreduce
                  dsimp only
                  split
                  · -- The start rule has been read: its tree lies on top.
                    cases htrees : s₁.trees with
                    | nil => exact ⟨fun s' hs => (nomatch hs), fun t ht => (nomatch ht)⟩
                    | cons t rest =>
                        refine ⟨fun s' hs => (nomatch hs), fun t' hfinished => ?_⟩
                        obtain rfl : t = t' := Fed.finished.inj hfinished
                        rw [htrees] at hgrown hhead
                        exact ⟨hgrown t List.mem_cons_self, n, ts, Option.some.inj hhead⟩
                  · exact ih hgrown

end Stack

/-! ## Readings -/

namespace Language

variable {l : Language} {rule : String} {xs : List Lexeme}

theorem begin_trees {s : Stack} (h : l.begin rule = .ok s) : s.trees = [] := by
  unfold begin at h
  split at h
  · rename_i hstart
    cases h
    obtain ⟨n, -, rfl⟩ := Option.map_eq_some_iff.mp (Option.ite_none_right_eq_some.mp hstart).2
    rfl
  · cases h

theorem shift_grown {s s' : Stack} {x : Lexeme} (hs : ∀ t ∈ s.trees, Grown l.automaton xs t) (hx : x ∈ xs)
    (h : l.shift rule s x = .ok s') : ∀ t ∈ s'.trees, Grown l.automaton xs t := by
  unfold shift at h
  split at h
  · rename_i hfed
    cases h
    exact (Stack.feed_grown hs).1 _ hfed (.lexeme hx)
  · cases h
  · cases h

theorem foldlM_shift_grown {fed : List Lexeme} {s s' : Stack} (hs : ∀ t ∈ s.trees, Grown l.automaton xs t)
    (hfed : ∀ x ∈ fed, x ∈ xs) (h : fed.foldlM (l.shift rule) s = .ok s') :
    ∀ t ∈ s'.trees, Grown l.automaton xs t := by
  induction fed generalizing s with
  | nil =>
      cases h
      exact hs
  | cons x fed ih =>
      rw [List.foldlM_cons] at h
      obtain ⟨s₁, hshift, h⟩ := Outcome.bind_ok h
      rw [List.forall_mem_cons] at hfed
      exact ih (shift_grown hs hfed.1 hshift) hfed.2 h

/-- A reading ends with a node, or with what a production gives in place of one; and what it ends with has grown
from the lexemes that were fed. -/
theorem perform_grown {s : Script} {t : Tree} (h : l.reading.perform rule s = .ok t) :
    Grown l.automaton s.fed t ∧
      ((∃ label children, t = .rule label children) ∨ ∃ p ∈ l.automaton.productions.toList, p.Collapses) := by
  obtain ⟨start, hbegin, h⟩ := Outcome.bind_ok h
  obtain ⟨state, hfed, h⟩ := Outcome.bind_ok h
  obtain ⟨x, -, hfinish⟩ := Outcome.bind_ok h
  have hstart : ∀ t ∈ start.trees, Grown l.automaton s.fed t := by
    rw [begin_trees hbegin]
    exact fun t ht => nomatch ht
  have hstate := foldlM_shift_grown hstart (fun x hx => hx) hfed
  change l.finish rule state x = .ok t at hfinish
  unfold finish at hfinish
  split at hfinish
  · rename_i hfinished
    cases hfinish
    obtain ⟨hgrown, n, ts, rfl⟩ := (Stack.feed_grown hstate).2 _ hfinished
    refine ⟨hgrown, ?_⟩
    rcases (l.automaton.productions.getD n default).tree_cases ts with hnode | ⟨hcollapses, -⟩
    · exact Or.inl ⟨_, _, hnode⟩
    · exact Or.inr ⟨_, mem_productions_of_collapses hcollapses, hcollapses⟩
  · cases hfinish
  · cases hfinish

end Language

end Grammar

end GrammarBench
