import GrammarBench.Text.Letter

/-!
# Pattern expressions

Regular expressions with greedy and lazy repetition, captures, references to captures, conditions and
looks ahead and behind.

* `CharSet.has`: which characters a set holds, regardless of case when the set asks for it.
* `Expr.width`: the least and the greatest number of characters that an expression takes.
-/

namespace GrammarBench.Pattern

inductive Category where
  | digit
  | space
  | word
  deriving DecidableEq, Repr

/-- A character belongs to a class, in its ASCII part only when asked for. -/
def Category.has (ascii : Bool) (c : Char) : Category → Bool
  | .digit => Text.isDigit c && (!ascii || c.toNat < 128)
  | .space => Text.isBlank c && (!ascii || c = ' ' || (9 ≤ c.toNat && c.toNat ≤ 13))
  | .word => Text.isWord c && (!ascii || c.toNat < 128)

inductive SetItem where
  | range (low high : Nat)
  | category (kind : Category) (negated ascii : Bool)
  deriving DecidableEq, Repr

def SetItem.has (c : Char) : SetItem → Bool
  | .range low high => low ≤ c.toNat && c.toNat ≤ high
  | .category kind negated ascii => kind.has ascii c != negated

/-- A set of characters: those of some item, or all others. -/
structure CharSet where
  items : List SetItem
  negated : Bool := false
  anyCase : Bool := false
  deriving DecidableEq, Repr

def CharSet.has (s : CharSet) (c : Char) : Bool :=
  (if s.anyCase then (Text.caseVariants c).any fun v => s.items.any (·.has v)
   else s.items.any (·.has c)) != s.negated

/-- Conditions on a place in the text. -/
inductive Anchor where
  | textStart
  | lineStart
  | textEnd
  /-- The end of the text, or the place before a newline that ends it. -/
  | lastLineEnd
  | lineEnd
  | wordBoundary (ascii : Bool)
  | noWordBoundary (ascii : Bool)
  deriving DecidableEq, Repr

inductive Expr where
  | empty
  | set (set : CharSet)
  /-- A run of characters of one set. -/
  | span (set : CharSet) (least : Nat) (most : Option Nat) (lazy : Bool)
  | seq (first second : Expr)
  | alt (first second : Expr)
  | rep (body : Expr) (least : Nat) (most : Option Nat) (lazy : Bool)
  /-- Remembers the text that the body takes under a number. -/
  | capture (index : Nat) (body : Expr)
  /-- Takes the text of a capture again; the width of the captured expression is kept with it. -/
  | again (index : Nat) (anyCase : Bool) (width : Nat × Nat)
  /-- Takes nothing; the body must match from here on when `wanted`, and must not otherwise. -/
  | ahead (wanted : Bool) (body : Expr)
  /-- Takes nothing; the body must match, or not match, the given number of characters up to here. -/
  | behind (wanted : Bool) (size : Nat) (body : Expr)
  /-- The first way in which the body matches, and no other. -/
  | atomic (body : Expr)
  | anchor (anchor : Anchor)
  | ifCaptured (index : Nat) (yes no : Expr)
  deriving DecidableEq, Repr

/-- Widths are counted up to this number only. -/
def widthCap : Nat := Nat.pow 2 64

namespace Expr

def width : Expr → Nat × Nat
  | empty => (0, 0)
  | set _ => (1, 1)
  | span _ least most _ => (min least widthCap, min (most.getD widthCap) widthCap)
  | seq a b => (min (a.width.1 + b.width.1) widthCap, min (a.width.2 + b.width.2) widthCap)
  | alt a b => (min a.width.1 b.width.1, max a.width.2 b.width.2)
  | rep body least most _ =>
    (min (body.width.1 * least) widthCap,
      match most with
      | none => if body.width.2 = 0 then 0 else widthCap
      | some n => min (body.width.2 * n) widthCap)
  | capture _ body => body.width
  | again _ _ width => width
  | ahead _ _ => (0, 0)
  | behind _ _ _ => (0, 0)
  | atomic body => body.width
  | anchor _ => (0, 0)
  | ifCaptured _ yes no => (min yes.width.1 no.width.1, max yes.width.2 no.width.2)

/-- The expressions of a list one after the other. -/
def ofSeq (es : List Expr) : Expr :=
  match es with
  | [] => empty
  | [e] => e
  | e :: es => seq e (ofSeq es)

/-- A repetition; that of a single set is a run. -/
def repeated (body : Expr) (least : Nat) (most : Option Nat) (lazy : Bool) : Expr :=
  match body with
  | set s => span s least most lazy
  | e => rep e least most lazy

end Expr

end GrammarBench.Pattern
