import GrammarBench.Grammar.Automaton
import GrammarBench.Grammar.Shape
import GrammarBench.Grammar.Scanner

/-!
# Machines

A machine runs an automaton over lexemes: it is fed one at a time, reduces as often as the table says, and
then goes on with the lexeme or refuses it.

* `Stack.feed`: what becomes of the stack when a lexeme comes.
* `Stack.expected`, `Stack.accepted`: the terminals with an action in the last state, and those of them
  that would really be taken.
* `unexpected`: the failure about a refused lexeme.
-/

namespace GrammarBench.Grammar

/-- The states passed and the trees made so far, latest first. -/
structure Stack where
  states : List Nat
  trees : List Tree := []
  deriving Repr, Inhabited

/-- What becomes of a stack when a lexeme is fed to it. -/
inductive Fed where
  | taken (s : Stack)
  /-- The start rule has been read. -/
  | finished (t : Tree)
  /-- The lexeme cannot stand here. -/
  | refused (s : Stack)
  /-- The reductions did not come to an end. -/
  | endless
  deriving Repr, Inhabited

namespace Stack

def row (a : Automaton) (s : Stack) : List (String × Action) :=
  match s.states.head? with
  | some n => a.rows.getD n []
  | none => []

/-- The stack with the symbols of a production replaced by its rule. -/
def reduce (a : Automaton) (production : Nat) (s : Stack) : Option Stack :=
  let p := a.productions.getD production default
  let size := p.items.length
  let trees := (s.trees.take size).reverse
  let below : Stack := ⟨s.states.drop size, s.trees.drop size⟩
  match (below.row a).lookup p.origin with
  | some (.shift n) => some ⟨n :: below.states, p.tree trees :: below.trees⟩
  | _ => none

/-- Feeds a lexeme under the name of its terminal; `goal` is the state in which the start rule has been
read. Reductions go on until the lexeme is taken or refused. -/
def feed (a : Automaton) (goal : Option Nat) (terminal : String) (leaf : Tree) : Nat → Stack → Fed
  | 0, _ => .endless
  | rounds + 1, s =>
    match (s.row a).lookup terminal with
    | none => .refused s
    | some (.shift n) => .taken ⟨n :: s.states, leaf :: s.trees⟩
    | some (.reduce production) =>
      match s.reduce a production with
      | none => .refused s
      | some s' =>
        if terminal = Automaton.endName && s'.states.head? = goal then
          match s'.trees with
          | t :: _ => .finished t
          | [] => .endless
        else feed a goal terminal leaf rounds s'

/-- More reductions in a row than a table without a cycle makes. -/
def roundLimit (a : Automaton) (s : Stack) : Nat :=
  (s.states.length + a.rows.size + 1) * (a.productions.size + 1)

/-- Feeds a lexeme to the stack of a start rule. -/
def feedFor (a : Automaton) (start terminal : String) (leaf : Tree) (s : Stack) : Fed :=
  s.feed a (a.ends.lookup start) terminal leaf (s.roundLimit a)

/-- The terminals with an action in the last state. -/
def expected (a : Automaton) (s : Stack) : List String :=
  ((s.row a).map (·.1)).filter fun name => Text.allUpper name.toList

/-- The expected terminals that the stack would take. -/
def accepted (a : Automaton) (start : String) (s : Stack) : List String :=
  (s.expected a).filter fun name =>
    match s.feedFor a start name (.lexeme { terminal := name, text := "" }) with
    | .taken _ | .finished _ => true
    | _ => false

end Stack

/-- The stack with which the reading of a start rule begins. -/
def Automaton.begin? (a : Automaton) (start : String) : Option Stack :=
  (a.starts.lookup start).map fun n => ⟨[n], []⟩

/-- The failure about a lexeme that cannot stand where it stands. -/
def unexpected (l : Lexeme) (expected : List String) : Failure :=
  let shown (n : Option Int) : String := match n with
    | some n => toString n
    | none => "None"
  .unexpectedToken ⟨l.line, l.column, l.start⟩
    ("Unexpected token " ++ l.literal ++ " at line " ++ shown l.line ++ ", column " ++ shown l.column ++
      ".\n" ++ Scanner.expectedList expected)

/-- The failure of a reading that does not come to an end. -/
def endlessReading : Failure := .fault .runtime "the reductions do not come to an end"

end GrammarBench.Grammar
