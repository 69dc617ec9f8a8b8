import GrammarBench.Loading.Compile
import GrammarBench.Loading.ConfigFile
import GrammarBench.Loading.Finder

/-!
# Loading

A grammar module is loaded from a directory of sources, from a file, or by its name.

* `loadDirectory`, `loadFile`, `loadNamed`: the three ways.
* `loadModule`: the one that a source asks for.
-/

namespace GrammarBench.Loading

def notFound (message : String) : Failure := .report { kind := .moduleNotFound, message := message }

def notAModule (source : String) : Failure :=
  notFound (source ++ " is not a directory nor a module file name.")

/-- The files below a directory that match patterns. -/
def findFiles (directory : String) (patterns : List String) : Act (List String) := do
  let found ← World.lift (Finder.find (← get).files directory patterns)
  World.note .debug "grunpy.loader" ("Matched " ++ toString found.length ++ " file(s) in " ++ directory ++
    " for " ++ literalTexts patterns)
  return found

/-- The configuration in a file that is named, or else that of the directory. -/
def configOf (directory : String) : Option String → Act Config
  | some path => ConfigFile.load path
  | none => ConfigFile.ofDirectory directory

def loadDirectory (directory : String) (config : Option String) : Act ModuleId := do
  let c ← configOf directory config
  let files ← findFiles directory c.patterns
  compileModule files c.references (some (moduleName directory)) c.options

/-- How a failure of running the body in a file is reported. -/
def fileFailure (path : String) (f : Failure) : Failure :=
  match f with
  | .badSource d =>
    .report (.compilation [diagnostic (d.path.getD path) (d.line.map Int.ofNat) d.column d.message])
  | f =>
    if f.isFile || f.isImport then
      notFound ("Cannot load module file '" ++ path ++ "': " ++ f.message)
    else .report (.compilation [diagnostic path none none f.described])

/-- The path of a file from the root on. -/
def fullPath (fs : Files) (path : String) : String := Path.join fs.workingPath path

/-- Runs the body in a file as that of a module. -/
def runFile (path : String) (id : ModuleId) : Act Unit := do
  let fs := (← get).files
  let c ← World.lift ((fs.opened path).mapError (·.failure (fullPath fs path)))
  if path.endsWith Import.compiledSuffix then throw (Import.badMagic (moduleName path) c.data)
  else run id (← World.lift (Import.programOf (fullPath fs path) c))

/-- Loads a module from a file of its own. -/
def loadSourceFile (path : String) : Act ModuleId := do
  let id ← World.create { name := moduleName path, file := some (fullPath (← get).files path) }
  World.register (moduleName path) id
  try runFile path id
  catch f =>
    World.unregister (moduleName path)
    throw (fileFailure path f)
  return id

/-- The failure of a file with the name of an extension module. It does not hold one: those are machine code, which
is left out. -/
def extensionFailure (fs : Files) (path : String) : Failure :=
  .fault .importing (fullPath fs path ++ ": " ++
    match fs.opened path with
    | .ok c => if c.data.length < 64 then "file too short" else "invalid ELF header"
    | .error _ => "cannot open shared object file: Permission denied")

def extensionSuffix : String := ".so"

def loadFile (path : String) : Act ModuleId := do
  if path.endsWith grammarSuffix then compileModule [path] [] (some (moduleName path)) []
  else if path.endsWith Import.sourceSuffix || path.endsWith Import.compiledSuffix then
    loadSourceFile path
  else if path.endsWith extensionSuffix then throw (extensionFailure (← get).files path)
  else throw (notFound (path ++ " is not a loadable module file"))

/-- Loads a module by its name. When the module or one of its parents is missing it is not found; a module
that is missing elsewhere is a failure of its own. -/
def loadNamed (name : String) : Act ModuleId := do
  try Import.module run name
  catch f =>
    match f.missing? with
    | some (some missing) =>
      if name = missing || name.startsWith (missing ++ ".") then throw (notAModule name) else throw f
    | some none => throw (notAModule name)
    | none => throw f

/-- Texts that are names of modules: names with dots between them. -/
def isModuleName (source : String) : Bool :=
  (Import.parts source).all fun part =>
    match part.toList with
    | [] => false
    | c :: r => (c.isAlpha || c = '_') && r.all Text.isWord

/-- Loads a module from wherever its source says. -/
def loadModule (source : String) (config : Option String) : Act ModuleId := do
  let fs := (← get).files
  if fs.isDirectory source then
    World.note .debug "grunpy.loader" ("Compiling grammar module from directory " ++ source)
    loadDirectory source config
  else if fs.isFile source then
    World.note .debug "grunpy.loader" ("Loading grammar module from file " ++ source)
    loadFile source
  else if isModuleName source then
    World.note .debug "grunpy.loader" ("Importing grammar module " ++ source)
    loadNamed source
  else throw (notAModule source)

end GrammarBench.Loading
