import GrammarBench.Proofs.Feeding

/-!
# Changes of leaves

A reading looks at the terminals of its lexemes only. When all lexemes are changed in the same way and
keep their terminals, it goes on as before, and ends with the tree in which the leaves are changed.

* `Tree.mapLexemes`: a tree with its leaves changed.
* `Stack.feed_mapLexemes`, `Stack.feed_leaf`: feeding a changed stack, and feeding another leaf.
* `Language.stateBehind_bare`, `Language.finish_bare`: readings of lexemes of which some of the place is
  forgotten.
-/

namespace GrammarBench

namespace Tree

mutual

/-- The tree with every lexeme changed. -/
def mapLexemes (φ : Lexeme → Lexeme) : Tree → Tree
  | leaf v => leaf v
  | rule label children => rule label (mapAllLexemes φ children)
  | node label children => node label (mapAllLexemes φ children)
  | plain label children => plain label (mapAllLexemes φ children)
  | bare children => bare (mapAllLexemes φ children)
  | token t => token t
  | lexeme l => lexeme (φ l)
  | list items => list (mapAllLexemes φ items)

def mapAllLexemes (φ : Lexeme → Lexeme) : List Tree → List Tree
  | [] => []
  | t :: ts => mapLexemes φ t :: mapAllLexemes φ ts

end

variable {φ : Lexeme → Lexeme}

theorem mapAllLexemes_eq (ts : List Tree) : mapAllLexemes φ ts = ts.map (mapLexemes φ) := by
  induction ts with
  | nil => rfl
  | cons t ts ih => rw [mapAllLexemes, ih, List.map_cons]

end Tree

namespace Grammar

open GrammarBench.Tree (mapLexemes mapAllLexemes mapAllLexemes_eq)

variable {φ : Lexeme → Lexeme}

/-! ## Trees of productions -/

theorem inlined_mapLexemes (t : Tree) : inlined (t.mapLexemes φ) = (inlined t).map (mapLexemes φ) := by
  cases t with
  | rule label children => exact mapAllLexemes_eq children
  | _ => rfl

theorem nulls_mapLexemes (n : Nat) : (nulls n).map (mapLexemes φ) = nulls n := List.map_replicate

theorem leavings_mapLexemes (keepAll : Bool) (gaps : List Nat) (items : List Item) (ts : List Tree) :
    leavings keepAll gaps items (ts.map (mapLexemes φ)) =
      (leavings keepAll gaps items ts).map (mapLexemes φ) := by
  induction items generalizing gaps ts with
  | nil => cases ts <;> exact (nulls_mapLexemes _).symm
  | cons item items ih =>
      cases ts with
      | nil => exact (nulls_mapLexemes _).symm
      | cons t ts =>
          rw [List.map_cons, leavings, leavings, ih, List.map_append, List.map_append, nulls_mapLexemes]
          congr 2
          split
          · rfl
          · split
            · exact inlined_mapLexemes t
            · rfl

theorem Production.tree_mapLexemes (p : Production) (ts : List Tree) :
    p.tree (ts.map (mapLexemes φ)) = (p.tree ts).mapLexemes φ := by
  have hchildren : p.children (ts.map (mapLexemes φ)) = (p.children ts).map (mapLexemes φ) :=
    leavings_mapLexemes _ _ _ _
  have hrule (ts : List Tree) : Tree.rule p.label (ts.map (mapLexemes φ)) =
      (Tree.rule p.label ts).mapLexemes φ := by
    rw [mapLexemes, mapAllLexemes_eq]
  unfold Production.tree
  rw [hchildren]
  -- A tree collapses when it has one child, and the change leaves their number as it is.
  cases p.options.collapse && p.givenName.isNone with
  | false => exact hrule _
  | true =>
      match p.children ts with
      | [] => exact hrule []
      | [t] => rfl
      | t :: u :: rest => exact hrule (t :: u :: rest)

/-! ## Feeding -/

namespace Stack

def mapLexemes (φ : Lexeme → Lexeme) (s : Stack) : Stack := { s with trees := s.trees.map (Tree.mapLexemes φ) }

@[simp] theorem row_mapLexemes (a : Automaton) (s : Stack) : (s.mapLexemes φ).row a = s.row a := rfl

@[simp] theorem states_mapLexemes (s : Stack) : (s.mapLexemes φ).states = s.states := rfl

theorem reduce_mapLexemes (a : Automaton) (production : Nat) (s : Stack) :
    (s.mapLexemes φ).reduce a production = (s.reduce a production).map (mapLexemes φ) := by
  unfold reduce
  dsimp only [mapLexemes]
  rw [← List.map_take, ← List.map_drop, ← List.map_reverse, Production.tree_mapLexemes]
  simp only [row]
  split
  · rfl
  · rfl

end Stack

/-- What becomes of a stack, with the leaves changed. -/
def Fed.mapLexemes (φ : Lexeme → Lexeme) : Fed → Fed
  | .taken s => .taken (s.mapLexemes φ)
  | .finished t => .finished (t.mapLexemes φ)
  | .refused s => .refused (s.mapLexemes φ)
  | .endless => .endless

namespace Stack

variable (a : Automaton) (goal : Option Nat) (terminal : String)

/-- Feeding a changed leaf to a changed stack changes the outcome in the same way. -/
theorem feed_mapLexemes (leaf : Tree) (rounds : Nat) (s : Stack) :
    (s.mapLexemes φ).feed a goal terminal (leaf.mapLexemes φ) rounds =
      (s.feed a goal terminal leaf rounds).mapLexemes φ := by
  induction rounds generalizing s with
  | zero => rfl
  | succ rounds ih =>
      rw [feed, feed, row_mapLexemes]
      cases (s.row a).lookup terminal with
      | none => rfl
      | some action =>
          cases action with
          | shift n => rfl
          | reduce production =>
              dsimp only
              rw [reduce_mapLexemes]
              cases s.reduce a production with
              | none => rfl
              | some s' =>
                  rw [Option.map_some]
                  dsimp only
                  rw [states_mapLexemes]
                  split
                  · obtain ⟨states, trees⟩ := s'
                    cases trees <;> rfl
                  · exact ih s'

/-- Two outcomes that differ at most in the leaf that was taken. -/
inductive Alike : Fed → Fed → Prop
  | taken (states : List Nat) (leaf leaf' : Tree) (trees : List Tree) :
      Alike (.taken ⟨states, leaf :: trees⟩) (.taken ⟨states, leaf' :: trees⟩)
  | same (x : Fed) : Alike x x

/-- The leaf decides nothing. -/
theorem feed_leaf (leaf leaf' : Tree) (rounds : Nat) (s : Stack) :
    Alike (s.feed a goal terminal leaf rounds) (s.feed a goal terminal leaf' rounds) := by
  induction rounds generalizing s with
  | zero => exact .same _
  | succ rounds ih =>
      rw [feed, feed]
      cases (s.row a).lookup terminal with
      | none => exact .same _
      | some action =>
          cases action with
          | shift n => exact .taken _ _ _ _
          | reduce production =>
              dsimp only
              cases s.reduce a production with
              | none => exact .same _
              | some s' =>
                  dsimp only
                  split
                  · exact .same _
                  · exact ih s'

end Stack

/-! ## Readings -/

namespace Language

open Bridge

variable (l : Language) (rule : String)

theorem unexpected_bare (x : Lexeme) (expected : List String) : unexpected (bare x) expected = unexpected x expected := by
  have hliteral : (bare x).literal = x.literal := by
    unfold Lexeme.literal
    rfl
  unfold unexpected
  rw [hliteral]
  rfl

theorem shift_bare (s : Stack) (x : Lexeme) :
    l.shift rule (s.mapLexemes bare) (bare x) = (l.shift rule s x).map (Stack.mapLexemes bare) := by
  have hfed : (s.mapLexemes bare).feedFor l.automaton rule (bare x).terminal (.lexeme (bare x)) =
      (s.feedFor l.automaton rule x.terminal (.lexeme x)).mapLexemes bare :=
    Stack.feed_mapLexemes _ _ _ (.lexeme x) _ s
  unfold shift
  rw [hfed]
  cases s.feedFor l.automaton rule x.terminal (.lexeme x) with
  | refused s' => exact congrArg Except.error (unexpected_bare x (s'.expected l.automaton))
  | _ => rfl

theorem foldlM_shift_bare (xs : List Lexeme) (s : Stack) :
    (xs.map bare).foldlM (l.shift rule) (s.mapLexemes bare) =
      (xs.foldlM (l.shift rule) s).map (Stack.mapLexemes bare) := by
  induction xs generalizing s with
  | nil => rfl
  | cons x xs ih =>
      rw [List.map_cons, List.foldlM_cons, List.foldlM_cons, shift_bare]
      cases l.shift rule s x with
      | error f => rfl
      | ok s' => exact ih s'

/-- Behind bare lexemes stands the state behind the lexemes, with its leaves bare. -/
theorem stateBehind_bare (xs : List Lexeme) :
    l.stateBehind rule (xs.map bare) = (l.stateBehind rule xs).map (Stack.mapLexemes bare) := by
  unfold stateBehind
  cases hbegin : l.begin rule with
  | error f => rfl
  | ok s =>
      have hs : s.mapLexemes bare = s := by
        unfold begin at hbegin
        split at hbegin
        · rename_i hstart
          cases hbegin
          obtain ⟨n, -, rfl⟩ := Option.map_eq_some_iff.mp (Option.ite_none_right_eq_some.mp hstart).2
          rfl
        · cases hbegin
      show (xs.map bare).foldlM (l.shift rule) s = _
      rw [← hs, foldlM_shift_bare, hs]
      rfl

/-- How two readings end that have the same leaves, up to what bare lexemes forget, and other lexemes at
the end: with the same tree, or in front of the end. -/
inductive EndsLike (x y : Lexeme) : Except Failure Tree → Except Failure Tree → Prop
  | tree (t : Tree) : EndsLike x y (.ok t) (.ok (t.mapLexemes bare))
  | refused (expected : List String) :
      EndsLike x y (.error (unexpected x expected)) (.error (unexpected y expected))
  | endless : EndsLike x y (.error endlessReading) (.error endlessReading)

theorem finish_bare (s : Stack) {x y : Lexeme} (h : y.terminal = x.terminal) :
    EndsLike x y (l.finish rule s x) (l.finish rule (s.mapLexemes bare) y) := by
  have hfed : (s.mapLexemes bare).feedFor l.automaton rule y.terminal (.lexeme (bare x)) =
      (s.feedFor l.automaton rule x.terminal (.lexeme x)).mapLexemes bare := by
    rw [h]
    exact Stack.feed_mapLexemes _ _ _ (.lexeme x) _ s
  have halike : Stack.Alike ((s.feedFor l.automaton rule x.terminal (.lexeme x)).mapLexemes bare)
      ((s.mapLexemes bare).feedFor l.automaton rule y.terminal (.lexeme y)) :=
    hfed ▸ Stack.feed_leaf _ _ _ _ _ _ _
  unfold finish
  revert halike
  generalize s.feedFor l.automaton rule x.terminal (.lexeme x) = fed
  generalize (s.mapLexemes bare).feedFor l.automaton rule y.terminal (.lexeme y) = fed'
  intro halike
  cases fed with
  | taken s' =>
      rw [Fed.mapLexemes] at halike
      generalize s'.mapLexemes bare = changed at halike
      cases halike <;> exact .endless
  | finished t =>
      cases halike
      exact .tree t
  | refused s' =>
      cases halike
      exact .refused _
  | endless =>
      cases halike
      exact .endless

end Language

end Grammar

end GrammarBench
