import GrammarBench.CommandLine.Arguments
import GrammarBench.Run

/-!
# The command

The command reads its arguments, runs the module over the test file and prints what it is asked for.

* `Command.asked`, `Command.rendering`: the run that is asked for, and the drawing behind it.
* `Command.run`: what the command prints and how it ends.
-/

namespace GrammarBench.CommandLine

inductive Ending where
  /-- The work was done or given up, with a code. -/
  | code (n : Nat)
  /-- The program was left early, with a status. -/
  | leave (status : Nat)
  | failure (f : Failure)
  deriving DecidableEq, Repr

structure Result where
  output : String := ""
  errors : String := ""
  ending : Ending
  deriving Repr

/-- Where the command prints. -/
structure Console where
  /-- The columns of a line. -/
  width : Nat := 100
  showing : Showing := {}

namespace Command

/-- The text that leaves the program with the usage and a message. -/
def usageError (message : String) : Result :=
  { errors := usage ++ programName ++ ": error: " ++ message ++ "\n", ending := .leave 2 }

/-- How the reading of arguments ends the command. -/
def ofStop : Stop → Result
  | .usage message => usageError message
  | .help => { output := help, ending := .leave 0 }

/-- The lines about a failure. -/
def errorLines (s : Showing) (f : Failure) : Lines :=
  .ok "There was an error when trying to parse." :: s.message f :: s.details f

/-- How a failure ends the command, once the lines about it have been written. -/
def endingOf (f : Failure) : Ending :=
  match f with
  | .report _ => .code 1
  | f => .failure f

/-- The lines noted down that are shown: all of them when the command is verbose, else the warnings. -/
def logText (verbose : Bool) (log : List LogLine) : String :=
  String.join ((log.filter fun l => verbose || l.level = .warning).map fun l => l.written ++ "\n")

/-! ## Files looked at -/

def paths (s : Settings) : List String := [s.source, s.test, s.config].filterMap id

def references (s : Settings) (fs : Files) : List String :=
  let path := s.config.getD (Path.join (s.source.getD "") Config.fileName)
  match Loading.ConfigFile.valueIn fs path with
  | .ok v => ((Config.ofValue (some path) v).toOption.map (·.references)).getD []
  | .error _ => []

/-! ## The run -/

/-- The run that some settings ask for; without a source, a rule and a test file there is nothing to run. -/
def asked (s : Settings) (c : Console := {}) : Act Run :=
  Run.process { showTokens := s.tokens, showTree := s.tree, config := s.config }
    (s.source.getD "") (s.rule.getD "") (s.test.getD "") s.grammar c.showing

/-- What is drawn of the tree behind a run, when that is asked for. -/
def rendering (s : Settings) (c : Console) (r : Run) : Except Failure String :=
  if s.pretty then (c.showing.drawing (Class.symbolsOfValues r.symbols) r.tree).map (·.page c.width) else .ok ""

/-- What the command prints and how it ends, and the world that it leaves behind. A failure of the run is told, and
one of telling it takes its place; a failure of the drawing is not told. -/
def run (arguments : List String) (w : World) (c : Console := {}) : Result × World :=
  match Arguments.read arguments with
  | .error stop => (ofStop stop, w)
  | .ok s =>
    let test := s.test.getD ""
    if !w.files.isFile test then
      (usageError ("test file '" ++ test ++ "' does not exist"), w)
    else
      let (r, after) := (asked s c).run { w with log := [], output := "" }
      let log := logText s.verbose after.log.reverse
      let after' := { after with log := w.log, output := w.output }
      match r with
      | .ok r =>
        match rendering s c r with
        | .ok page => ({ output := after.output ++ page, errors := log, ending := .code 0 }, after')
        | .error f => ({ output := after.output, errors := log, ending := .failure f }, after')
      | .error f =>
        let lines := errorLines c.showing f
        ({ output := after.output, errors := log ++ lines.text
           ending := lines.failure?.elim (endingOf f) .failure }, after')

end Command

end GrammarBench.CommandLine
