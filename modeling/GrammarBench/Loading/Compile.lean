import GrammarBench.Loading.Import
import GrammarBench.Loading.Naming
import GrammarBench.Module.FromGrammar

/-!
# Compilation

Several source files make up one grammar module: the classes of its grammars are bound first, then the
bodies are run in the order of the files. Every defect that can be found beforehand is listed before the
compilation is given up.

* `Compile.readSources`: what the files hold, and what is wrong with them.
* `Compile.checkReferences`: what the module refers to.
* `Compile.prepare`, `Compile.build`: all that is done before any body is run, and the rest.
* `compileModule`: the module.
-/

namespace GrammarBench.Loading

def grammarSuffix : String := ".lark"

/-- What has been found in the files so far. -/
structure Sources where
  bodies : List (String × List Statement) := []
  classes : List Class := []
  diagnostics : List String := []

def Sources.blame (s : Sources) (line : String) : Sources :=
  { s with diagnostics := s.diagnostics ++ [line] }

namespace Compile

def unreadable (path : String) (f : PathFault) : String :=
  diagnostic path none none ("cannot read file: " ++ f.reason)

def defectLine (path : String) : SourceDefect → String
  | .at line column message => diagnostic path (some line) (some column) message
  | .nullCharacter => diagnostic path none none Program.nullMessage
  | .encoding message => diagnostic path (some 0) (some (-1)) message

/-- The program that a file holds. -/
def programIn : Content → Except Failure Program
  | .program p => .ok p
  | c => ((Files.textOf c.data).map Program.ofText).mapError .undecodable

/-- Adds the body in a file, or what is wrong with it. -/
def addBody (path : String) (s : Sources) : Act Sources := do
  match (← get).files.opened path with
  | .error .nullCharacter => throw Failure.nullInPath
  | .error (.fault f) => return s.blame (unreadable path f)
  | .ok c =>
    match ← World.lift (programIn c) with
    | .body statements => return { s with bodies := s.bodies ++ [(path, statements)] }
    | .defective d => return s.blame (defectLine path d)

/-- Where imported grammars are found: relative to the working directory. -/
def shelf (fs : Files) : Grammar.Shelf :=
  { files := fun path =>
      match fs.opened path with
      | .ok c => some (((Files.textOf c.data).map String.ofList).mapError .undecodable)
      | .error _ => none }

/-- The diagnostic about a grammar that is refused: the first line of the message. -/
def grammarLine (path : String) (place : Place) (f : Failure) : String :=
  diagnostic path place.line place.column ((Text.firstLine? f.message).getD f.name)

/-- Adds the classes of the grammar in a file, or what is wrong with it. -/
def addGrammar (home : String) (options : List (String × Value)) (path : String) (s : Sources) :
    Act Sources := do
  let w ← get
  match w.files.opened path with
  | .error .nullCharacter => throw Failure.nullInPath
  | .error (.fault f) => return s.blame (unreadable path f)
  | .ok c =>
    let text ← World.lift ((Files.textOf c.data).mapError .undecodable)
    match GrammarClasses.build w.nextClass (Path.stem path) (String.ofList text) home options
        (shelf w.files) with
    | .ok g =>
      modify fun w => { w with nextClass := w.nextClass + 2 }
      World.noteAll g.log
      return { s with classes := s.classes ++ [g.lexer, g.parser] }
    | .error f =>
      match f.grammarPlace? with
      | some place => return s.blame (grammarLine path place f)
      | none => throw f

def addFile (home : String) (options : List (String × Value)) (s : Sources) (path : String) : Act Sources :=
  if path.endsWith grammarSuffix then addGrammar home options path s else addBody path s

def readSources (home : String) (options : List (String × Value)) (files : List String) : Act Sources :=
  files.foldlM (addFile home options) {}

/-- The diagnostic about a reference that is neither a path nor a module. -/
def referenceLine (reference : String) (f : Failure) : String :=
  "reference '" ++ reference ++ "': " ++ f.message

/-- Adds the path that a reference is, from the root on, or imports the module that it names; a diagnostic
is added when that cannot be imported. -/
def addReference (found : List String × List String) (reference : String) :
    Act (List String × List String) := do
  let fs := (← get).files
  if fs.exists? reference then pure (found.1 ++ [fs.absolute reference], found.2)
  else
    try
      let _ ← Import.module run reference
      pure found
    catch f =>
      if f.isImport then pure (found.1, found.2 ++ [referenceLine reference f])
      else throw f

/-- The paths that a module refers to, from the root on, and diagnostics about the references that are
neither a path nor a module. -/
def checkReferences (references : List String) : Act (List String × List String) :=
  references.foldlM addReference ([], [])

/-- A module that can be made: all its files could be read and compiled, and nothing it refers to is
missing. -/
structure Draft where
  name : String
  file : Option String
  classes : List Class
  /-- The bodies with the files that they are from. -/
  bodies : List (String × List Statement)
  /-- The directories that are searched for modules while the bodies are run. -/
  paths : List String

/-- Reads the files and looks for what they refer to; any defect is a failed compilation. -/
def prepare (files references : List String) (name : String) (options : List (String × Value)) :
    Act Draft := do
  let sources ← readSources name options files
  let (paths, lines) ← checkReferences references
  let diagnostics := sources.diagnostics ++ lines ++
    (if files.isEmpty then ["no source files matched"] else [])
  if !diagnostics.isEmpty then throw (.report (.compilation diagnostics))
  return { name := name, file := files.head?, classes := sources.classes, bodies := sources.bodies
           paths := paths }

/-- Runs the body of a file; a failure is a failed compilation. -/
def runBody (name : String) (id : ModuleId) (path : String) (statements : List Statement) : Act Unit := do
  try run id statements
  catch f =>
    World.unregister name
    throw (.report (.compilation [diagnostic path none none f.described]))

/-- The module of a draft before any body is run. -/
def Draft.module (d : Draft) : Module :=
  { name := d.name, file := d.file, names := Ordered.ofList (d.classes.map fun c => (c.name, .type c)) }

/-- Registers a module and runs its bodies in it. -/
def build (d : Draft) : Act ModuleId := do
  let id ← World.create d.module
  World.register d.name id
  World.withSearchPath d.paths
    (d.bodies.forM fun (path, statements) => runBody d.name id path statements)
  World.note .debug "grunpy.loader" ("Compiled " ++ toString d.bodies.length ++
    " source file(s) and " ++ toString d.classes.length ++ " grammar class(es) into " ++ d.name)
  return id

end Compile

def defaultModuleName : String := moduleMark ++ "module"

/-- The name of a module that may be given none. -/
def nameOrDefault : Option String → String
  | none | some "" => defaultModuleName
  | some name => name

/-- Compiles files into one module and registers it. -/
def compileModule (files references : List String) (name : Option String)
    (options : List (String × Value)) : Act ModuleId := do
  Compile.build (← Compile.prepare files references (nameOrDefault name) options)

end GrammarBench.Loading
