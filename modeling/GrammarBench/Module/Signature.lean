import GrammarBench.Value.Shown

/-!
# Signatures

The parameters of a function and what it says that it returns.

* `Signature.shown`: the signature as it is written behind the name of the function.
* `Signature.binds`: whether the function can be called with some values in place.
* `Signature.returnsNothing`: whether it says that nothing is returned.
-/

namespace GrammarBench

inductive ParamKind where
  | positionalOnly
  | positional
  /-- Takes all further values in place. -/
  | values
  | named
  /-- Takes all further values by name. -/
  | namedValues
  deriving DecidableEq, Repr

structure Param where
  name : String
  kind : ParamKind := .positional
  default : Option Value := none
  /-- What is noted about the type of the parameter, as it is written. -/
  note : Option String := none
  deriving Repr

namespace Param

/-- The marks in front of a parameter that takes several values. -/
def marks : ParamKind → String
  | .values => "*"
  | .namedValues => "**"
  | _ => ""

/-- A parameter as it is written; blanks stand about the equals sign of a noted one only. -/
def shown (p : Param) : String :=
  marks p.kind ++ p.name ++
    (match p.note with | some note => ": " ++ note | none => "") ++
    match p.default with
    | some v => (if p.note.isSome then " = " else "=") ++ v.literal
    | none => ""

def isOptional (p : Param) : Bool :=
  p.default.isSome || p.kind = .values || p.kind = .namedValues

end Param

structure Signature where
  params : List Param := [{ name := "self" }]
  returns : Option String := none
  deriving Repr

namespace Signature

/-- The parameters as they are written: a slash behind the last one that takes no name, and a star before
the first one that needs a name, unless a parameter for further values stands before it. `pending` tells
that a slash is due, `star` that a star is. -/
def shownParams (pending star : Bool) : List Param → List String
  | [] => if pending then ["/"] else []
  | p :: rest =>
    match p.kind with
    | .positionalOnly => p.shown :: shownParams true star rest
    | .values => (if pending then ["/"] else []) ++ p.shown :: shownParams false false rest
    | .named =>
      (if pending then ["/"] else []) ++ (if star then ["*"] else []) ++
        p.shown :: shownParams false false rest
    | _ => (if pending then ["/"] else []) ++ p.shown :: shownParams false star rest

def shown (s : Signature) : String :=
  "(" ++ ", ".intercalate (shownParams false true s.params) ++ ")" ++
    match s.returns with
    | some note => " -> " ++ note
    | none => ""

/-- Goes through the parameters with some values that are given in place, none of them by name: whether every
value finds a parameter, and whether the parameters behind may be left out. -/
def binds : Nat → List Param → Bool
  | 0, [] => true
  | 0, p :: rest =>
    match p.kind with
    | .values => rest.all Param.isOptional
    | _ => p.isOptional && rest.all Param.isOptional
  | _ + 1, [] => false
  | n + 1, p :: rest =>
    match p.kind with
    | .named | .namedValues => false
    | .values => rest.all Param.isOptional
    | .positionalOnly | .positional => binds n rest

def returnsNothing (s : Signature) : Bool := s.returns = some "None" || s.returns = some "'None'"

end Signature

end GrammarBench
