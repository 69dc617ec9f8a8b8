import GrammarBench.Grammar.Source
import GrammarBench.Grammar.Literal

/-!
# Statements

What a grammar text says, statement by statement.

* `Statement`: definitions of rules and terminals, and what is ignored and declared.
* `Statement.imports`, `Statement.ofTree`: the imports and the statements in the tree of a grammar text.
-/

namespace GrammarBench.Grammar

/-- A definition as it is written. -/
structure Clause where
  name : String
  isTerminal : Bool
  params : List String := []
  body : Phrase
  options : RuleOptions := {}
  priority : Int := 0
  deriving Repr, Inhabited

/-- What is imported from a grammar: names there and the names they get here. -/
structure Import where
  path : List String
  /-- Whether the path starts at the importing grammar. -/
  isRelative : Bool
  names : List (String × String)
  deriving Repr, Inhabited

inductive Statement where
  | define (clause : Clause)
  | override (clause : Clause)
  | extend (clause : Clause)
  | ignore (body : Phrase)
  | declare (symbols : List Symbol)
  deriving Repr, Inhabited

namespace Statement

def refuse {α : Type} (message : String) : Except Failure α := .error (.fault .grammar message)

def textOf : Tree → String
  | .lexeme l => l.text
  | _ => ""

def childrenOf : Tree → List Tree
  | .rule _ children => children
  | _ => []

/-- The number that digits of any script write, with a sign. -/
def number (s : String) : Int :=
  let (negative, digits) := match s.toList with
    | '-' :: r => (true, r)
    | '+' :: r => (false, r)
    | r => (false, r)
  let n := digits.foldl (fun n c => 10 * n + Text.digitValue c) 0
  if negative then -(n : Int) else n

def repetition : List Tree → Repetition
  | [op] =>
    match textOf op with
    | "?" => .optional
    | "+" => .plus
    | _ => .star
  | [_, least] => .times (number (textOf least)) (number (textOf least)) false
  | _ :: least :: most :: _ => .times (number (textOf least)) (number (textOf most)) true
  | [] => .optional

def terminalItem (name : String) : Item := ⟨.terminal name, name.startsWith "_"⟩

mutual

def phrase : Tree → Phrase
  | .rule "expansions" ts => .choice (phrases ts)
  | .rule "expansion" ts => .sequence (phrases ts)
  | .rule "alias" (t :: ts) =>
    .named (phrase t) (match ts with
      | .rule _ (n :: _) :: _ => textOf n
      | _ => "")
  | .rule "expr" (t :: ts) => .repeated (phrase t) (repetition ts)
  | .rule "maybe" (t :: _) => .optional (phrase t)
  | .rule "value" (t :: _) => .value (phrase t)
  | .rule "terminal" (t :: _) => .symbol (terminalItem (textOf t))
  | .rule "nonterminal" (t :: _) => .symbol ⟨.rule (textOf t), false⟩
  | .rule "literal" (.lexeme l :: _) => .literal (l.terminal = "STRING") l.text
  | .rule "range" (a :: b :: _) => .range (textOf a) (textOf b)
  | .rule "template_usage" (.rule _ (n :: _) :: args) => .template (textOf n) (phrases args)
  | _ => .empty

def phrases : List Tree → List Phrase
  | [] => []
  | t :: ts => phrase t :: phrases ts

end

def ruleClause (modifiers name params priority body : Tree) : Except Failure Clause := do
  let name := textOf name
  let marks := (((childrenOf modifiers).head?.map textOf).getD "").toList
  let collapse := marks.contains '?'
  if collapse && name.startsWith "_" then
    refuse "Inlined rules (_rule) cannot use the ?rule modifier."
  let params := (childrenOf params).map textOf
  return { name := name
           isTerminal := false
           params := params
           body := phrase body
           options :=
             { keepAll := marks.contains '!'
               collapse := collapse
               priority := (childrenOf priority).head?.map fun t => number (textOf t)
               template := if params.isEmpty then none else some name } }

def clause : Tree → Except Failure Clause
  | .rule "rule" [modifiers, name, params, priority, body] =>
    ruleClause modifiers name params priority body
  | .rule "term" [name, body] =>
    return { name := textOf name, isTerminal := true, body := phrase body }
  | .rule "term" [name, priority, body] =>
    return { name := textOf name, isTerminal := true, body := phrase body
             priority := number (textOf priority) }
  | _ => .error (.fault .assertion "")

def symbolOf : Tree → Symbol
  | .rule "terminal" (t :: _) => .terminal (textOf t)
  | t => .rule (((childrenOf t).head?.map textOf).getD "")

/-- What an import statement imports: a list of names, or the last part of the path. -/
def importOf (path : Tree) (rest : List Tree) : Except Failure Import :=
  let parts := (childrenOf path).map textOf
  let isRelative := match path with
    | .rule "import_rel" _ => true
    | _ => false
  match rest with
  | .rule "name_list" names :: _ =>
    .ok ⟨parts, isRelative, Ordered.ofList (names.map fun n => (textOf n, textOf n))⟩
  | _ =>
    match parts.getLast?, parts.dropLast with
    | some name, [] => refuse ("Nothing was imported from grammar `" ++ name ++ "`")
    | some name, path =>
      .ok ⟨path, isRelative, [(name, (rest.head?.map textOf).getD name)]⟩
    | none, _ => .error (.fault .assertion "")

def imports (t : Tree) : Except Failure (List Import) :=
  (childrenOf t).filterMapM fun s =>
    match s with
    | .rule "import" (path :: rest) => (importOf path rest).map some
    | _ => .ok none

/-- The other statements of the tree of a grammar text, each on its own well formed or not. -/
def ofTree (t : Tree) : List (Except Failure Statement) :=
  (childrenOf t).filterMap fun s =>
    match s with
    | .rule "import" _ => none
    | .rule "override" (c :: _) => some ((clause c).map override)
    | .rule "extend" (c :: _) => some ((clause c).map extend)
    | .rule "ignore" (body :: _) => some (.ok (ignore (phrase body)))
    | .rule "declare" symbols => some (.ok (declare (symbols.map symbolOf)))
    | .rule _ _ => some ((clause s).map define)
    | _ => none

end Statement

end GrammarBench.Grammar
