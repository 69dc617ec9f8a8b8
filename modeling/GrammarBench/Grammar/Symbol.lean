/-!
# Symbols and productions

The productions that a grammar is compiled to. A production knows how the tree of its rule is shaped.

* `Symbol`: a terminal or a rule, by name.
* `Production`: one way to make a rule out of symbols.
-/

namespace GrammarBench.Grammar

inductive Symbol where
  | terminal (name : String)
  | rule (name : String)
  deriving DecidableEq, Repr, Inhabited, Hashable

namespace Symbol

def name : Symbol → String
  | terminal name | rule name => name

def isTerminal : Symbol → Bool
  | terminal _ => true
  | rule _ => false

def shown : Symbol → String
  | terminal name => "Terminal('" ++ name ++ "')"
  | rule name => "NonTerminal('" ++ name ++ "')"

/-- A rule whose tree is replaced by the children of that tree. -/
def isInlined : Symbol → Bool
  | terminal _ => false
  | rule name => name.startsWith "_"

end Symbol

/-- A symbol where it is used; a dropped one leaves nothing in the tree. -/
structure Item where
  symbol : Symbol
  dropped : Bool := false
  deriving DecidableEq, Repr, Inhabited

/-- What a rule's definition says about its trees and its rank. -/
structure RuleOptions where
  /-- No token of the rule is dropped. -/
  keepAll : Bool := false
  /-- A tree with one child is replaced by that child. -/
  collapse : Bool := false
  priority : Option Int := none
  /-- The name of the template that the rule was made from. -/
  template : Option String := none
  deriving DecidableEq, Repr, Inhabited

structure Production where
  origin : String
  items : List Item
  /-- The name that the tree gets instead of the name of the rule. -/
  givenName : Option String := none
  options : RuleOptions := {}
  /-- For each place before, between and after the items, how many absent optional parts stood there. -/
  gaps : List Nat := []
  deriving DecidableEq, Repr, Inhabited

namespace Production

def symbols (p : Production) : List Symbol := p.items.map (·.symbol)

/-- Productions are the same when they make the same rule out of the same symbols. -/
def same (p q : Production) : Bool := p.origin = q.origin && p.symbols = q.symbols

def shown (p : Production) : String :=
  "<" ++ p.origin ++ " : " ++ " ".intercalate (p.symbols.map Symbol.name) ++ ">"

/-- The name of the trees of a production. -/
def label (p : Production) : String := p.givenName.getD (p.options.template.getD p.origin)

end Production

end GrammarBench.Grammar
