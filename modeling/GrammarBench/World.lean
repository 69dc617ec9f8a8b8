import GrammarBench.Files
import GrammarBench.Log
import GrammarBench.Module.RuleTable

/-!
# The world of the bench

What the bench works on and changes: the files, the search path of modules, the modules that have been
made, the lines noted down and the text printed.

* `Module`: the names that the body of a module has bound.
* `Lines`: what is written of lines that may fail.
* `World`: everything that later work may look at.
* `Act`: work on the world that may fail; what it has changed by then stays changed.
-/

namespace GrammarBench

inductive Bound where
  | value (v : Value)
  | type (c : Class)
  | module (name : String)

structure Module where
  name : String
  file : Option String := none
  /-- In the order in which they were first bound. -/
  names : List (String × Bound) := []
  /-- The directories in which the parts of a package are looked for; other modules have none. -/
  parts : Option (List String) := none
  /-- Whether an import of the module is under way. -/
  loading : Bool := false

namespace Module

def bind (m : Module) (name : String) (b : Bound) : Module :=
  { m with names := Ordered.insert name b m.names }

def unbind (m : Module) (name : String) : Module := { m with names := Ordered.erase name m.names }

/-- What a name stands for; every module knows its own name, its file and that it is not described. What the
interpreter gives to all modules besides is left out: the names that are built in, and `__package__`, `__spec__`,
`__loader__` and `__cached__`, which tell how a module was loaded. They stand for nothing here until they are bound. -/
def get? (m : Module) (name : String) : Option Bound :=
  match Ordered.find? name m.names with
  | some b => some b
  | none =>
    match name with
    | "__name__" => some (.value (.text m.name))
    | "__doc__" => some (.value .null)
    | "__file__" => m.file.map fun f => .value (.text f)
    | _ => none

def ownName (m : Module) : String :=
  match m.get? "__name__" with
  | some (.value v) => v.shown
  | _ => m.name

end Module

/-- Tells a module from all others. -/
abbrev ModuleId := Nat

structure World where
  files : Files
  /-- The directories in which modules are looked for. -/
  searchPath : List String := []
  /-- All modules made so far. -/
  modules : Array Module := #[]
  /-- The modules that can be reached by name. -/
  registry : List (String × ModuleId) := []
  /-- The number for the next class. -/
  nextClass : Nat := Layer.firstFree
  /-- The lines noted down, latest first. -/
  log : List LogLine := []
  output : String := ""

abbrev Act := ExceptT Failure (StateM World)

/-- Lines that are written one after the other, up to the first one that fails. -/
abbrev Lines := List (Except Failure String)

namespace Lines

/-- What is written of some lines. -/
def text : Lines → String
  | .ok line :: rest => line ++ "\n" ++ text rest
  | _ => ""

/-- The failure of the first line that fails. -/
def failure? : Lines → Option Failure
  | [] => none
  | .ok _ :: rest => failure? rest
  | .error f :: _ => some f

end Lines

namespace World

def note (level : LogLevel) (speaker message : String) : Act Unit :=
  modify fun w => { w with log := ⟨level, speaker, message⟩ :: w.log }

def noteAll (lines : List LogLine) : Act Unit :=
  modify fun w => { w with log := lines.reverse ++ w.log }

def print (text : String) : Act Unit := modify fun w => { w with output := w.output ++ text }

def lift {α : Type} (r : Except Failure α) : Act α :=
  match r with
  | .ok a => pure a
  | .error f => throw f

/-- Prints some lines, when they are to be shown. -/
def printLines (shown : Bool) (lines : Lines) : Act Unit :=
  if shown then lines.forM fun line => do print ((← lift line) ++ "\n") else pure ()

def module (w : World) (id : ModuleId) : Module := w.modules.getD id { name := "" }

def create (m : Module) : Act ModuleId := do
  let w ← get
  set { w with modules := w.modules.push m }
  return w.modules.size

def update (id : ModuleId) (change : Module → Module) : Act Unit :=
  modify fun w => { w with modules := w.modules.modify id change }

def register (name : String) (id : ModuleId) : Act Unit :=
  modify fun w => { w with registry := Ordered.insert name id w.registry }

def unregister (name : String) : Act Unit :=
  modify fun w => { w with registry := Ordered.erase name w.registry }

/-- Those of some directories that are not on the search path. -/
def added (w : World) (directories : List String) : List String :=
  directories.filter fun d => !w.searchPath.contains d

/-- Takes directories off the search path, each once. -/
def leave (directories : List String) : Act Unit :=
  modify fun w => { w with searchPath := directories.foldl List.erase w.searchPath }

/-- The work with some directories in front of the search path, those that were not there already; they are
taken off again whatever comes of it. -/
def withSearchPath {α : Type} (directories : List String) (act : Act α) : Act α := do
  let w ← get
  set { w with searchPath := w.added directories ++ w.searchPath }
  let a ← tryCatch act fun f => do
    leave (w.added directories)
    throw f
  leave (w.added directories)
  return a

end World

end GrammarBench
