import GrammarBench.Grammar.Statement
import GrammarBench.Grammar.Library
import GrammarBench.Path

/-!
# Books of definitions

The definitions of a grammar text together with those it imports.

* `Book.load`: the book of a text, with the terminals inside terminals put in.
* `Book.check`: what is wrong with the uses of names in a book.
* `Book.ofText`: the book of a text, checked.
-/

namespace GrammarBench.Grammar

structure Definition where
  isTerminal : Bool
  params : List String := []
  /-- What the name stands for; a declared name stands for nothing yet. -/
  body : Option Phrase
  options : RuleOptions := {}
  priority : Int := 0
  deriving Repr, Inhabited

structure Book where
  definitions : List (String × Definition) := []
  ignored : List String := []
  deriving Repr, Inhabited

namespace Book

def refuse {α : Type} (message : String) : Except Failure α := .error (.fault .grammar message)

def find? (b : Book) (name : String) : Option Definition := Ordered.find? name b.definitions

def has (b : Book) (name : String) : Bool := (b.find? name).isSome

/-- What kind of thing a name is, in small letters and with a capital. -/
def kindOf (isTerminal : Bool) : String := if isTerminal then "terminal" else "rule"

def capitalKindOf (isTerminal : Bool) : String := if isTerminal then "Terminal" else "Rule"

/-! ## Adding definitions -/

/-- The book with a definition set; one that overrides must replace another, and no other may. -/
def define (b : Book) (override : Bool) (name : String) (d : Definition) : Except Failure Book := do
  if b.has name && !override then
    refuse (capitalKindOf d.isTerminal ++ " '" ++ name ++ "' defined more than once")
  if !b.has name && override then
    refuse ("Cannot override a nonexisting " ++ kindOf d.isTerminal ++ " " ++ name)
  if name.startsWith "__" then
    refuse ("Names starting with double-underscore are reserved (Error at " ++ name ++ ")")
  return { b with definitions := Ordered.insert name d b.definitions }

/-- The book with a further way, tried first, to make what a name stands for. -/
def extend (b : Book) (name : String) (d : Definition) : Except Failure Book := do
  let kind := kindOf d.isTerminal
  match b.find? name with
  | none => refuse ("Can't extend " ++ kind ++ " " ++ name ++ " as it wasn't defined before")
  | some old =>
    if d.isTerminal ≠ old.isTerminal then
      refuse ("Cannot extend " ++ kind ++ " " ++ name ++
        " - one is a terminal, while the other is not.")
    if d.params ≠ old.params then
      refuse ("Cannot extend " ++ kind ++ " with different parameters: " ++ name)
    match old.body, d.body with
    | some (.choice options), some new =>
      return { b with definitions :=
        Ordered.insert name { old with body := some (.choice (new :: options)) } b.definitions }
    | _, _ => refuse ("Can't extend " ++ kind ++ " " ++ name ++ " - it is abstract.")

/-- The terminal that a phrase consists of. -/
def loneTerminal? : Phrase → Option String
  | .choice [.sequence [.value (.symbol ⟨.terminal name, _⟩)]] => some name
  | _ => none

/-- The book with something ignored: a terminal by its name, anything else under a name of its own. -/
def ignore (b : Book) (body : Phrase) : Book :=
  match loneTerminal? body with
  | some name => { b with ignored := b.ignored ++ [name] }
  | none =>
    let name := "__IGNORE_" ++ toString b.ignored.length
    { definitions := Ordered.insert name { isTerminal := true, body := some body } b.definitions
      ignored := b.ignored ++ [name] }

/-! ## Names of imported definitions -/

/-- How the names of a grammar are changed; `none` for the grammar at the top. -/
abbrev Renaming := Option (String → String)

def Renaming.apply (r : Renaming) (name : String) : String :=
  match r with
  | some f => f name
  | none => name

/-- The names of an imported grammar: those asked for get their names here, others get a mark of their
grammar. -/
def importedName (mark : String) (names : List (String × String)) (name : String) : String :=
  match names.lookup name with
  | some here => here
  | none =>
    if name.startsWith "_" then "_" ++ mark ++ "__" ++ (name.drop 1).toString
    else mark ++ "__" ++ name

/-- The definition that a clause makes. -/
def definitionOf (keepAll : Bool) (r : Renaming) (c : Clause) : String × Definition :=
  (r.apply c.name,
    { isTerminal := c.isTerminal
      params := c.params.map r.apply
      body := some (match r with
        | some f => c.body.rename f
        | none => c.body)
      options := { c.options with keepAll := c.options.keepAll || (keepAll && !c.isTerminal) }
      priority := c.priority })

/-- The definition that declares a symbol. -/
def declared (keepAll : Bool) (s : Symbol) : Definition :=
  { isTerminal := s.isTerminal, body := none, options := { keepAll := keepAll }, priority := 1 }

/-- The book with a statement carried out. -/
def perform (keepAll : Bool) (r : Renaming) (b : Book) : Statement → Except Failure Book
  | .define c =>
    let (name, d) := definitionOf keepAll r c
    b.define false name d
  | .override c =>
    let (name, d) := definitionOf keepAll r c
    b.define true name d
  | .extend c =>
    let (name, d) := definitionOf keepAll r c
    b.extend name d
  | .ignore body => .ok (if r.isNone then b.ignore body else b)
  | .declare symbols =>
    symbols.foldlM (fun b s => b.define false (r.apply s.name) (declared keepAll s)) b

/-! ## Terminals inside terminals -/

/-- Checks what the values in the definition of a terminal are. -/
def checkTerminalValue (b : Book) (name : String) : Phrase → Except Failure Unit
  | .value (.symbol ⟨.rule r, _⟩) =>
    refuse ("Rules aren't allowed inside terminals (" ++ (Symbol.rule r).shown ++ " in " ++ name ++ ")")
  | .value (.symbol ⟨.terminal t, _⟩) =>
    match (b.find? t).filter (·.isTerminal) with
    | none => refuse ("Terminal used but not defined: " ++ t)
    | some d => if d.body.isNone then .error (.fault .assertion "") else .ok ()
  | _ => .ok ()

/-- The terminals used directly in a phrase. -/
def terminalsIn (p : Phrase) : List String :=
  p.flatten.filterMap fun q =>
    match q with
    | .value (.symbol ⟨.terminal t, _⟩) => some t
    | _ => none

/-- The terminals reached from some terminals in one step or more. -/
def reachedFrom (b : Book) : Nat → List String → List String → List String
  | 0, _, seen => seen
  | _, [], seen => seen
  | rounds + 1, t :: todo, seen =>
    let next := match (b.find? t).bind (·.body) with
      | some body => (terminalsIn body).eraseDups.filter fun u => !seen.contains u
      | none => []
    reachedFrom b rounds (todo ++ next) (seen ++ next)

/-- Whether a terminal is used inside its own definition. -/
def isRecursive (b : Book) (name : String) : Bool :=
  (b.reachedFrom (b.definitions.length + 2) [name] []).contains name

/-- A phrase with every terminal in it replaced by what it stands for. -/
def substitute (b : Book) : Nat → Phrase → Phrase
  | 0, p => p
  | rounds + 1, p =>
    Id.run (p.mapLevels fun q =>
      match q with
      | .value (.symbol ⟨.terminal t, _⟩) =>
        match (b.find? t).bind (·.body) with
        | some body => .value (b.substitute rounds body)
        | none => q
      | q => q)

/-- The book with the terminals inside terminals put in. -/
def resolve (b : Book) : Except Failure Book := do
  let terminals := b.definitions.filterMap fun (name, d) =>
    if d.isTerminal then d.body.map fun body => (name, body) else none
  terminals.forM fun (name, body) => body.flatten.forM (b.checkTerminalValue name)
  match terminals.find? fun (name, _) => b.isRecursive name with
  | some (name, _) =>
    refuse ("Recursion in terminal '" ++ name ++
      "' (recursion is only allowed in rules, not terminals)")
  | none =>
    return { b with definitions := b.definitions.map fun (name, d) =>
      if d.isTerminal then
        (name, { d with body := d.body.map (b.substitute (b.definitions.length + 1)) })
      else (name, d) }

/-! ## Loading -/

/-- The names used by a definition, and by what they stand for, and so on. -/
def usedFrom (b : Book) : Nat → List String → List String → List String
  | 0, _, seen => seen
  | _, [], seen => seen
  | rounds + 1, name :: todo, seen =>
    let next := match b.find? name with
      | some d =>
        if d.isTerminal then []
        else ((d.body.map Phrase.usedNames).getD []).eraseDups.filter fun u =>
          !d.params.contains u && !seen.contains u
      | none => []
    usedFrom b rounds (todo ++ next) (seen ++ next)

/-- The number of names in the phrases of a book. -/
def nameCount (b : Book) : Nat :=
  b.definitions.foldl (fun n (_, d) => n + ((d.body.map Phrase.usedNames).getD []).length + 1) 0

/-- The book with only what some names need. -/
def keep (b : Book) (names : List String) : Book :=
  let used := b.usedFrom (b.nameCount + names.length + 1) names names
  { b with definitions := b.definitions.filter fun (name, _) => used.contains name }

/-- The imports of a text, those from one grammar together. -/
def gathered (entries : List Import) : Except Failure (List Import) :=
  entries.foldlM (fun found (e : Import) =>
    match found.find? (·.path = e.path) with
    | none => return found ++ [e]
    | some old =>
      if old.isRelative ≠ e.isRelative then
        .error (.fault .assertion ("Inconsistent base_path for " ++ ".".intercalate e.path ++ "."))
      else
        return found.map fun (o : Import) =>
          if o.path = e.path then
            { o with names := e.names.foldl (fun m (k, v) => Ordered.insert k v m) o.names }
          else o) []

/-- A name as it is quoted among the parts of a path. -/
def shownPart (part : String) : String :=
  "Token('" ++ (if part.toList.any Char.isUpper then "TERMINAL" else "RULE") ++ "', " ++
    Text.quoted part ++ ")"

/-- The text of an imported grammar, with the path where it was found. -/
def findText (shelf : Shelf) (home : Option String) (e : Import) : Except Failure (String × String) :=
  let path := "/".intercalate e.path ++ ".lark"
  let directories := shelf.directories ++ (if e.isRelative then home.toList else [])
  match directories.findSome? fun d => (shelf.files (Path.join d path)).map fun t => (Path.join d path, t) with
  | some (found, text) => text.map fun text => (found, text)
  | none =>
    match libraryText? path with
    | some text => .ok (path, text)
    | none =>
      if (shelf.files path).isSome then
        .error (.fault .assertion ("Couldn't import grammar (" ++
          ", ".intercalate (e.path.map shownPart) ++ (if e.path.length = 1 then "," else "") ++
          "), but a corresponding file was found at a place where lark doesn't search for it"))
      else .error (.fault .fileNotFound ("[Errno 2] No such file or directory: " ++ Text.quoted path))

/-- The directory of a path. -/
def directoryOf (path : String) : String :=
  "/".intercalate (Path.parts path).dropLast

/-- More grammars inside one another than any import needs. -/
def importLimit : Nat := 200

/-- Adds the definitions of a book, none of which may be there already. -/
def merge (b new : Book) (path : String) : Except Failure Book :=
  match new.definitions.find? fun (name, _) => b.has name with
  | some (name, _) =>
    refuse ("Cannot import '" ++ name ++ "' from '" ++ path ++ "': Symbol already defined.")
  | none => .ok { b with definitions := b.definitions ++ new.definitions }

/-- The book of a text: first what it imports, then what it says itself. -/
def load (shelf : Shelf) (keepAll : Bool) :
    Nat → Option String → String → String → Renaming → Except Failure Book
  | 0, _, _, _, _ => .error (.fault .runtime "the imports do not come to an end")
  | rounds + 1, home, text, name, naming => do
    let tree ← Source.parse text name
    let entries ← gathered (← Statement.imports tree)
    let imported ← entries.foldlM (fun (b : Book) (e : Import) => do
      let (path, text) ← findText shelf home e
      let own := importedName ("__".intercalate e.path) e.names
      let rename := fun s => Renaming.apply naming (own s)
      let new ← load shelf keepAll rounds (some (directoryOf path)) text path (some rename)
      b.merge (new.keep (e.names.map fun n => rename n.1)) ("/".intercalate e.path ++ ".lark")) {}
    let b ← (Statement.ofTree tree).foldlM (fun b s => do perform keepAll naming b (← s)) imported
    b.resolve

/-! ## Checking -/

/-- Checks one use of a template. -/
def checkTemplate (b : Book) (name : String) (d : Definition) : Phrase → Except Failure Unit
  | .template t args =>
    let place := "(in " ++ kindOf d.isTerminal ++ " " ++ name ++ ")"
    if d.params.contains t then .ok ()
    else match b.find? t with
      | none => refuse ("Template '" ++ t ++ "' used but not defined " ++ place)
      | some target =>
        if args.length ≠ target.params.length then
          refuse ("Wrong number of template arguments used for " ++ t ++ " (expected " ++
            toString target.params.length ++ ", got " ++ toString args.length ++ ") " ++ place)
        else .ok ()
  | _ => .ok ()

/-- Checks the parameters of a definition: none is a definition, and no two are the same. -/
def checkParams (b : Book) (name : String) : List String → List String → Except Failure Unit
  | _, [] => .ok ()
  | before, p :: rest =>
    if b.has p then
      refuse ("Template Parameter conflicts with rule " ++ p ++ " (in template " ++ name ++ ")")
    else if before.contains p then
      refuse ("Duplicate Template Parameter " ++ p ++ " (in template " ++ name ++ ")")
    else checkParams b name (before ++ [p]) rest

/-- Checks the names that a definition uses. -/
def checkDefinition (b : Book) (name : String) (d : Definition) : Except Failure Unit := do
  b.checkParams name [] d.params
  match d.body with
  | none => return
  | some body =>
    body.flatten.forM (b.checkTemplate name d)
    match body.usedNames.find? fun s => !b.has s && !d.params.contains s with
    | some s =>
      refuse (capitalKindOf d.isTerminal ++ " '" ++ s ++ "' used but not defined (in " ++
        kindOf d.isTerminal ++ " " ++ name ++ ")")
    | none => return

/-- Checks all definitions, and that what is ignored is defined. -/
def check (b : Book) : Except Failure Unit := do
  b.definitions.forM fun (name, d) => b.checkDefinition name d
  match b.ignored.eraseDups.filter (!b.has ·) with
  | [] => return
  | missing =>
    refuse ("Terminals " ++ Scanner.literalSet missing ++
      " were marked to ignore but were not defined!")

/-- The book of a text under a name, checked. -/
def ofText (shelf : Shelf) (keepAll : Bool) (text name : String) : Except Failure Book := do
  let home := if name = "<string>" then none else some (directoryOf name)
  let b ← load shelf keepAll importLimit home text name none
  b.check
  return b

end Book

end GrammarBench.Grammar
