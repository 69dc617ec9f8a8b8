import GrammarBench.Grammar.Symbol
import GrammarBench.Tree.Basic

/-!
# Trees of productions

How the tree of a production is made out of the trees of its items: dropped items leave nothing, the trees
of inlined rules leave their children, and every optional part that was absent leaves a null.

* `Production.children`: the children of the tree.
* `Production.tree`: the tree, or its only child when the rule says so.
-/

namespace GrammarBench.Grammar

/-- What an inlined tree leaves. -/
def inlined : Tree → List Tree
  | .rule _ children => children
  | t => [t]

def nulls (n : Nat) : List Tree := List.replicate n (.leaf .null)

/-- What the items leave, each behind the nulls of the gap before it; `gaps` goes on with the gap before
the next item. -/
def leavings (keepAll : Bool) : List Nat → List Item → List Tree → List Tree
  | gaps, item :: items, t :: ts =>
    let own :=
      if item.symbol.isTerminal && item.dropped && !keepAll then []
      else if item.symbol.isInlined then inlined t
      else [t]
    nulls (gaps.head?.getD 0) ++ own ++ leavings keepAll gaps.tail items ts
  | gaps, _, _ => nulls (gaps.head?.getD 0)

namespace Production

/-- The children of the tree made out of the trees of the items. -/
def children (p : Production) (trees : List Tree) : List Tree :=
  leavings p.options.keepAll p.gaps p.items trees

/-- The tree of a production. -/
def tree (p : Production) (trees : List Tree) : Tree :=
  match p.options.collapse && p.givenName.isNone, p.children trees with
  | true, [t] => t
  | _, children => .rule p.label children

end Production

end GrammarBench.Grammar
