import GrammarBench.Grammar.Language
import GrammarBench.Module.Signature
import GrammarBench.Token.Stream
import GrammarBench.Tree.Basic

/-!
# Members of classes

What the classes of a grammar module are made of: rules and other functions, tables of rules, lexers, and
plain values.

* `RuleBody`: what a function does with the parser that it is called on.
* `Entry`: what stands under the name of a rule.
* `Lexing`: how a class makes tokens.
* `Member`: what stands under a name of a class.
-/

namespace GrammarBench

/-- What a function does with the parser that it is called on. -/
inductive RuleBody where
  | give (tree : Tree)
  | fail (failure : Failure)
  /-- A node that shows whether the parser is told to build trees. -/
  | showFlag (label : String)
  /-- A node with the tokens of a channel, whole or only their texts; their types may be required. -/
  | listTokens (label : String) (channel : Int) (whole : Bool) (required : Option (List Int))
  deriving Repr

structure Function where
  signature : Signature := {}
  body : RuleBody
  deriving Repr

/-- What stands under the name of a rule. -/
inductive Entry where
  /-- A function, with the path of names to it. -/
  | function (f : Function) (path : String := "")
  /-- A rule of the grammar that a class was built from. -/
  | grammarRule (name : String)
  /-- A built-in type, which can be called but does not tell its signature. -/
  | builtin (name : String)
  | value (v : Value)
  deriving Repr

/-- The types of the tokens that a plain scanner makes; what has no type is not scanned. -/
structure ScanTypes where
  word : Option Int := none
  number : Option Int := none
  blank : Option Int := none
  deriving Repr

/-- How a class makes tokens. -/
inductive Lexing where
  | fixed (items : Emission)
  /-- By the lexer that all lexers come from, which makes none. -/
  | inherited
  | scan (types : ScanTypes)
  /-- By the grammar that the class was built from. -/
  | grammar
  deriving Repr

inductive Member where
  | value (v : Value)
  /-- A function; a marked one is a rule. -/
  | function (marked : Bool) (f : Function)
  /-- A function that derived classes have to define. -/
  | missing
  | lexing (l : Lexing)
  | table (entries : List (String × Entry))
  deriving Repr

namespace Member

def isMissing : Member → Bool
  | missing => true
  | _ => false

def isMarked : Member → Bool
  | function marked _ => marked
  | _ => false

def typeName : Member → String
  | value v => v.typeName
  | table _ => "dict"
  | _ => "function"

end Member

end GrammarBench
