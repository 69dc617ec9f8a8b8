import GrammarBench.Loading.Installed
import GrammarBench.Module.Lexing

/-!
# Imports

Modules are looked for by name in the directories of the search path, parts of packages in the directories
of the package, and the body of a module is run when it is imported for the first time.

* `Import.search`: where a module is found.
* `Import.module`: imports a module.
* `run`: runs the body of a module.
-/

namespace GrammarBench.Loading

/-- Where a module is found. -/
inductive Found where
  | source (path : String)
  /-- A compiled file, which the bench does not read. -/
  | compiled (path : String)
  /-- A directory with a source of its own. -/
  | package (path directory : String)
  /-- Directories without a source of their own. -/
  | directories (list : List String)

namespace Import

def initName : String := "__init__"

def sourceSuffix : String := ".py"

def compiledSuffix : String := ".pyc"

/-- Where a module is found in one directory, by the last part of its name. -/
def searchDirectory (fs : Files) (directory name : String) : Option Found :=
  let names := fs.names directory
  let file (below : String) : Option String :=
    let path := Path.join directory below
    if fs.isFile path then some path else none
  let inner : Option Found :=
    if names.contains name && fs.isDirectory (Path.join directory name) then
      let own := Path.join directory name
      match file (name ++ "/" ++ initName ++ sourceSuffix) with
      | some path => some (.package path own)
      | none => some (.directories [own])
    else none
  match inner with
  | some (.package path own) => some (.package path own)
  | _ =>
    let plain (suffix : String) : Option String :=
      if names.contains (name ++ suffix) then file (name ++ suffix) else none
    match plain sourceSuffix, plain compiledSuffix with
    | some path, _ => some (.source path)
    | none, some path => some (.compiled path)
    | none, none => inner

/-- Where a module is found in some directories: a source before directories without one. -/
def search (fs : Files) (directories : List String) (name : String) : Option Found :=
  let found := directories.filterMap fun d => searchDirectory fs d name
  match found.find? fun f => match f with | .directories _ => false | _ => true with
  | some f => some f
  | none =>
    match found.flatMap fun f => match f with | .directories l => l | _ => [] with
    | [] => none
    | l => some (.directories l)

/-- The failure of a module that is not there. -/
def missing (name : String) : Failure :=
  .missingModule (some name) ("No module named " ++ Text.quoted name)

/-- The failure of the part of a module that has no parts. -/
def missingPart (name parent : String) : Failure :=
  .missingModule (some name) ("No module named " ++ Text.quoted name ++ "; " ++ Text.quoted parent ++
    " is not a package")

/-- The failure of a compiled file, which counts as one of another version. Those of the running version hold machine
code, which is left out. -/
def badMagic (name : String) (data : List UInt8) : Failure :=
  .fault .importing ("bad magic number in " ++ Text.quoted name ++ ": " ++
    Text.quotedBytes (data.take 4))

/-- The program in the file of a module, or the failure of compiling it. -/
def programOf (path : String) (c : Content) : Except Failure (List Statement) :=
  let p := match c with
    | .program p => p
    | c => Program.ofBytes c.data
  match p with
  | .body statements => .ok statements
  | .defective (.at line column message) =>
    .error (.badSource { path := some path, line := some line, column := some column, message := message })
  | .defective .nullCharacter => .error (.fault .value Program.nullMessage)
  | .defective (.encoding message) =>
    .error (.badSource { path := some path, line := some 0, column := some (-1), message := message })

/-- The program in the file at a path, or why there is none. -/
def sourceAt (fs : Files) (path : String) : Except Failure (List Statement) := do
  programOf path (← (fs.opened path).mapError (·.failure path))

/-- The parts of a name between its dots. -/
def parts (name : String) : List String := (name.toList.splitOn '.').map String.ofList

/-- A name and the names above it, topmost first: `a`, `a.b` and `a.b.c` for the last one. -/
def chain (name : String) : List String :=
  (List.range (parts name).length).map fun n => ".".intercalate ((parts name).take (n + 1))

/-- The name above a name, if there is one. -/
def parent? (name : String) : Option String :=
  match (parts name).dropLast with
  | [] => none
  | above => some (".".intercalate above)

/-- The last part of a name. -/
def lastPart (name : String) : String := (parts name).getLast?.getD name

/-- A module that is there already: registered, or always installed. -/
def known? (name : String) : Act (Option ModuleId) := do
  match Ordered.find? name (← get).registry with
  | some id => return some id
  | none =>
    match Installed.find? name with
    | none => return none
    | some m => do
      let id ← World.create m
      World.register name id
      return some id

/-- Makes a module, registers it and does the work of its body; when that fails the module is
unregistered. -/
def load (m : Module) (body : ModuleId → Act Unit) : Act ModuleId := do
  let id ← World.create { m with loading := true }
  World.register m.name id
  try
    body id
    World.update id fun m => { m with loading := false }
    return id
  catch f =>
    World.unregister m.name
    throw f

/-- Loads a module from where it is found. `runBody` runs the body of a module. -/
def loadFound (runBody : ModuleId → List Statement → Act Unit) (fs : Files) (name : String) :
    Found → Act ModuleId
  | .directories list => load { name := name, parts := some list } fun _ => pure ()
  | .compiled path =>
    load { name := name, file := some path } fun _ => do
      let c ← World.lift ((fs.opened path).mapError (·.failure path))
      throw (badMagic name c.data)
  | .source path =>
    load { name := name, file := some path } fun id => do runBody id (← World.lift (sourceAt fs path))
  | .package path own =>
    load { name := name, file := some path, parts := some [own] } fun id => do
      runBody id (← World.lift (sourceAt fs path))

/-- The module above a name, if it is registered. -/
def parentIn? (w : World) (name : String) : Option (String × ModuleId) :=
  (parent? name).bind fun p => (Ordered.find? p w.registry).map fun id => (p, id)

/-- The directories in which a module is looked for: those of the module above it, or the search path. -/
def directoriesFor (w : World) (name : String) : Except Failure (List String) :=
  match parentIn? w name with
  | none => .ok w.searchPath
  | some (p, id) =>
    match (w.module id).parts with
    | some list => .ok list
    | none => .error (missingPart name p)

/-- Imports one module whose parent is imported already, and binds it in its parent. -/
def one (runBody : ModuleId → List Statement → Act Unit) (name : String) : Act ModuleId := do
  if let some id ← known? name then return id
  let w ← get
  let directories ← World.lift (directoriesFor w name)
  match search w.files directories (lastPart name) with
  | none => throw (missing name)
  | some found =>
    let id ← loadFound runBody w.files name found
    if let some (_, parentId) := parentIn? w name then
      World.update parentId fun m => m.bind (lastPart name) (.module name)
    return id

/-- The names above a name behind the last registered one of them, topmost first. -/
def unregisteredAbove (w : World) (name : String) : List String :=
  ((chain name).dropLast.reverse.takeWhile fun above => (Ordered.find? above w.registry).isNone).reverse

/-- Imports a module by name, and before it those above it that are not there. -/
def module (runBody : ModuleId → List Statement → Act Unit) (name : String) : Act ModuleId := do
  if name.startsWith "." then
    throw (.fault .type ("the 'package' argument is required to perform a relative import for " ++
      Text.quoted name))
  else if name = "" then throw (.fault .value "Empty module name")
  else
    match ← known? name with
    | some id => return id
    | none => do
      (unregisteredAbove (← get) name).forM fun above => do let _ ← one runBody above
      one runBody name

/-- The failure of a name that a module does not have. -/
def missingName (m : Module) (name : String) : Failure :=
  let place := match m.file with
    | some path => " (" ++ path ++ ")"
    | none => " (unknown location)"
  .fault .importing ("cannot import name " ++ Text.quoted name ++ " from " ++
    (if m.loading then
      "partially initialized module " ++ Text.quoted m.name ++
        " (most likely due to a circular import)"
    else Text.quoted m.name) ++ place)

/-- What a name of a module stands for, or the part of a package that has the name. -/
def take (runBody : ModuleId → List Statement → Act Unit) (id : ModuleId) (name : String) : Act Bound := do
  let m := (← get).module id
  match m.get? name with
  | some b => return b
  | none =>
    let part := m.name ++ "." ++ name
    if m.parts.isSome then
      try
        let _ ← one runBody part
        return .module part
      catch f =>
        if f = missing part then throw (missingName m name) else throw f
    else throw (missingName m name)

end Import

/-! ## Running bodies -/

def unbound (name : String) : Failure :=
  .fault .nameLookup ("name " ++ Text.quoted name ++ " is not defined")

/-- The failure of deriving a class from nothing but values. -/
def notABase (b : Bound) : Failure :=
  .fault .type <|
    match b with
    | .value .null => "NoneType takes no arguments"
    | .value (.int _) => "int() takes at most 2 arguments (3 given)"
    | .value (.text _) => "str() argument 'encoding' must be str, not tuple"
    | .value v => v.typeName ++ " expected at most 1 argument, got 3"
    | _ => "module() takes at most 2 arguments (3 given)"

/-- The failure of deriving a class from a class and something else. -/
def mixedBases : Failure :=
  .fault .type ("metaclass conflict: the metaclass of a derived class must be a (non-strict) subclass " ++
    "of the metaclasses of all its bases")

/-- What a base of a class names. -/
def baseOf (m : Module) (name : String) : Except Failure Bound :=
  if name = "Lexer" then .ok (.type Class.lexer)
  else if name = "Parser" then .ok (.type Class.parser)
  else match m.get? name with
    | some b => .ok b
    | none => .error (unbound name)

/-- The name of the type of what a name stands for. -/
def boundType : Bound → String
  | .value v => v.typeName
  | .type c => if c.behind.any (·.watched) then "ABCMeta" else "type"
  | .module _ => "module"

def classOf? : Bound → Option Class
  | .type c => some c
  | _ => none

/-- The classes that the bases of a class name. -/
def basesOf (m : Module) (names : List String) : Except Failure (List Class) := do
  let bases ← names.mapM (baseOf m)
  match bases.mapM classOf?, bases with
  | some classes, _ => return classes
  | none, [] => return []
  | none, b :: rest =>
    .error (if rest.all fun c => boundType c = boundType b then notABase b else mixedBases)

/-- Runs a statement of a module; `importing` runs the bodies of the modules that it imports. -/
def perform (importing : ModuleId → List Statement → Act Unit) (id : ModuleId) : Statement → Act Unit
  | .define name bases members home => do
    let w ← get
    let m := w.module id
    let bases ← World.lift (basesOf m bases)
    let own : Layer :=
      { id := w.nextClass, name := name, home := home.getD m.ownName, members := Ordered.ofList members }
    let c ← World.lift (Class.define own bases)
    modify fun w => { w with nextClass := w.nextClass + 1 }
    World.update id fun m => m.bind name (.type c)
  | .assign name value => World.update id fun m => m.bind name (.value value)
  | .copy name source => do
    match ((← get).module id).get? source with
    | some b => World.update id fun m => m.bind name b
    | none => throw (unbound source)
  | .remove name => do
    match ((← get).module id).get? name with
    | some _ => World.update id fun m => m.unbind name
    | none => throw (unbound name)
  | .fail f => throw f
  | .shortenSearch => modify fun w => { w with searchPath := w.searchPath.tail }
  | .fetch name names => do
    let found ← Import.module importing name
    match names with
    | some names =>
      for n in names do
        let b ← Import.take importing found n
        World.update id fun m => m.bind n b
    | none =>
      let top := (Import.chain name).head?.getD name
      World.update id fun m => m.bind top (.module top)

/-- Runs a body; `depth` bounds the imports inside one another. -/
def runWithin : Nat → ModuleId → List Statement → Act Unit
  | 0, _, _ => throw (.fault .runtime "the imports do not come to an end")
  | depth + 1, id, statements => statements.forM (perform (runWithin depth) id)

/-- More imports inside one another than there are files to import. -/
def importDepth : Nat := 1000

/-- Runs the body of a module. -/
def run (id : ModuleId) (statements : List Statement) : Act Unit := runWithin importDepth id statements

end GrammarBench.Loading
