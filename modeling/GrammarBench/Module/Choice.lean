import GrammarBench.Module.Lexing
import GrammarBench.World

/-!
# The choice of classes

A module offers classes; of these a lexer class and a parser class are chosen, by the name of a grammar when
there are several.

* `Module.offered`: the classes that a module offers.
* `Class.grammarName`: the name of the grammar that a class is for.
* `Module.lexerType`, `Module.parserType`: the class chosen, or why none is.
-/

namespace GrammarBench

/-- The two roles that classes are chosen for. -/
inductive Role where
  | lexer
  | parser
  deriving DecidableEq, Repr

namespace Role

def name : Role → String
  | lexer => "lexer"
  | parser => "parser"

/-- What the names of classes in a role usually end in. -/
def suffix : Role → String
  | lexer => "Lexer"
  | parser => "Parser"

def kind : Role → ReportKind
  | lexer => .noLexer
  | parser => .noParser

/-- Whether a class can play a role. -/
def fits (r : Role) (c : Class) : Bool :=
  !c.isAbstract &&
    match r with
    | lexer => c.isLexer
    | parser => c.isParser

end Role

/-- The name of the grammar that a class is for: the one it says, or its own without the suffix; in lower
case. -/
def Class.grammarName (c : Class) (suffix : String) : Except Failure String :=
  match c.member? "grammar_name" with
  | none =>
    .error (.fault .member ("type object '" ++ c.name ++ "' has no attribute 'grammar_name'"))
  | some (.value .null) =>
    .ok (Text.toLower <|
      if suffix = "" then ""
      else if c.name.endsWith suffix && suffix.length < c.name.length then
        String.ofList (c.name.toList.take (c.name.length - suffix.length))
      else c.name)
  | some (.value (.text s)) => .ok (Text.toLower s)
  | some m =>
    .error (.fault .member ("'" ++ m.typeName ++ "' object has no attribute 'lower'"))

namespace Module

def listName : String := "__all__"

def typesOf (bounds : List Bound) : List Class :=
  bounds.filterMap fun b => match b with | .type c => some c | _ => none

/-- What the names in a list stand for, where they stand for anything. -/
def listed (m : Module) (items : List Value) : Except Failure (List Bound) := do
  let names ← items.mapM fun v =>
    match v with
    | .text s => .ok s
    | v => .error (.fault .type ("attribute name must be string, not '" ++ v.typeName ++ "'"))
  return names.filterMap m.get?

/-- The classes that a module offers: those it lists, or those of its names that say they belong to it. -/
def offered (m : Module) : Except Failure (List Class) :=
  match m.get? listName with
  | none | some (.value .null) =>
    .ok ((typesOf (m.names.map (·.2))).filter fun c => c.home = m.ownName)
  | some (.value v) =>
    match RuleTable.pieces? v with
    | some items => (m.listed items).map typesOf
    | none => RuleTable.notIterable v.typeName
  | some (.type c) =>
    RuleTable.notIterable (if c.behind.any (·.watched) then "ABCMeta" else "type")
  | some (.module _) => RuleTable.notIterable "module"

/-- The classes that can play a role, only those for a grammar when one is named. -/
def candidates (m : Module) (r : Role) (grammar : Option String) : Except Failure (List Class) := do
  let types := (← m.offered).filter r.fits
  match grammar with
  | none => return types
  | some g => types.filterM fun c => do return (← c.grammarName r.suffix) = Text.toLower g

/-- The class chosen for a role. -/
def chosen (m : Module) (r : Role) (grammar : Option String) : Except Failure Class := do
  match ← m.candidates r grammar with
  | [c] => return c
  | [] =>
    .error (.report
      { kind := r.kind
        message :=
          match grammar with
          | some g =>
            "No " ++ r.name ++ " for grammar '" ++ g ++ "' in module '" ++ m.ownName ++ "'"
          | none => "No " ++ r.name ++ " found in module '" ++ m.ownName ++ "'" })
  | several => .error (.report (.ambiguous r.name (several.map (·.name))))

def lexerType (m : Module) (grammar : Option String) : Except Failure Class := m.chosen .lexer grammar

def parserType (m : Module) (grammar : Option String) : Except Failure Class :=
  m.chosen .parser grammar

/-- Both classes. -/
def resolve (m : Module) (grammar : Option String) : Act (Class × Class) := do
  let lexer ← World.lift (m.lexerType grammar)
  let parser ← World.lift (m.parserType grammar)
  World.note .debug "grunpy.resolver" ("Resolved lexer " ++ lexer.name ++ " and parser " ++ parser.name ++
    " in " ++ m.ownName)
  return (lexer, parser)

end Module

end GrammarBench
