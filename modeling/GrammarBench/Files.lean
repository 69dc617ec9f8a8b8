import GrammarBench.Module.Statement
import GrammarBench.Path

/-!
# Files

The files that the bench works on: a tree of directories, in which a path is looked up from a working
directory.

* `Files.find`: what a path leads to, or why it leads nowhere.
* `Files.names`: the names in a directory.
* `Files.opened`, `Files.textOf`: the file at a path, and the text in its bytes.
* `Files.put`, `Files.delete`: the tree with a file written or deleted.
-/

namespace GrammarBench

inductive Content where
  | directory
  | bytes (data : List UInt8)
  /-- A source of a module that is given by what it says. -/
  | program (p : Program)
  deriving Repr

def Content.isDirectory : Content → Bool
  | .directory => true
  | _ => false

def Content.data : Content → List UInt8
  | .bytes data => data
  | _ => []

inductive PathFault where
  | missing
  | notDirectory
  | isDirectory
  | nameTooLong
  /-- What stands there may not be read. -/
  | denied
  deriving DecidableEq, Repr

namespace PathFault

def reason : PathFault → String
  | missing => "No such file or directory"
  | notDirectory => "Not a directory"
  | isDirectory => "Is a directory"
  | nameTooLong => "File name too long"
  | denied => "Permission denied"

def number : PathFault → Nat
  | missing => 2
  | notDirectory => 20
  | isDirectory => 21
  | nameTooLong => 36
  | denied => 13

def kind : PathFault → FaultKind
  | missing => .fileNotFound
  | notDirectory => .notDirectory
  | isDirectory => .isDirectory
  | nameTooLong => .os
  | denied => .permission

/-- The failure of opening a path. -/
def failure (f : PathFault) (path : String) : Failure :=
  .fault f.kind ("[Errno " ++ toString f.number ++ "] " ++ f.reason ++ ": " ++ Text.quoted path)

end PathFault

/-- Why a file cannot be opened: what its path leads to cannot be read, or no file can have such a path at all. -/
inductive OpenFault where
  | fault (f : PathFault)
  | nullCharacter
  deriving DecidableEq, Repr

/-- The failure of opening a path. -/
def OpenFault.failure (path : String) : OpenFault → Failure
  | fault f => f.failure path
  | nullCharacter => Failure.nullInPath

structure Files where
  /-- The working directory, from the root on. -/
  working : List String
  /-- What stands at which place, from the root on. -/
  entries : List (List String × Content)
  /-- The places of the files that are there but may not be read. -/
  locked : List (List String) := []

namespace Files

/-- No name may be longer, in bytes. -/
def longestName : Nat := 255

/-- A place and all places above it, from the root on. -/
def above (place : List String) : List (List String) :=
  (List.range (place.length + 1)).map fun n => place.take n

/-- Nothing but the working directory. -/
def empty (working : List String) : Files :=
  { working := working, entries := (above working).map fun p => (p, Content.directory) }

def at? (fs : Files) (place : List String) : Option Content := fs.entries.lookup place

/-- Goes from a place to the one that the next part of a path names. -/
def step (fs : Files) (place : List String) (part : String) : Except PathFault (List String) :=
  match fs.at? place with
  | none => .error .missing
  | some .directory =>
    if part = "" || part = "." then .ok place
    else if part = ".." then .ok place.dropLast
    else if longestName < part.utf8ByteSize then .error .nameTooLong
    else if (fs.at? (place ++ [part])).isSome then .ok (place ++ [part])
    else .error .missing
  | some _ => .error .notDirectory

def place (fs : Files) (path : String) : Except PathFault (List String) :=
  if path = "" then .error .missing
  else
    (Path.parts path).foldlM (fun place part => fs.step place part)
      (if path.startsWith "/" then [] else fs.working)

/-- What a path leads to. -/
def find (fs : Files) (path : String) : Except PathFault Content := do
  let place ← fs.place path
  match fs.at? place with
  | some c => .ok c
  | none => .error .missing

def exists? (fs : Files) (path : String) : Bool := (fs.find path).isOk

def isDirectory (fs : Files) (path : String) : Bool :=
  match fs.find path with
  | .ok .directory => true
  | _ => false

def isFile (fs : Files) (path : String) : Bool :=
  match fs.find path with
  | .ok .directory => false
  | .ok _ => true
  | .error _ => false

/-- The names in a directory; none in what is no directory. -/
def names (fs : Files) (path : String) : List String :=
  match fs.place path with
  | .error _ => []
  | .ok place =>
    fs.entries.filterMap fun (p, _) => if p.dropLast = place && p ≠ place then p.getLast? else none

/-- Whether a path leads to what may not be read. -/
def isLocked (fs : Files) (path : String) : Bool :=
  match fs.place path with
  | .ok place => fs.locked.contains place
  | .error _ => false

/-- What a path leads to when it is opened for reading. -/
def opened (fs : Files) (path : String) : Except OpenFault Content :=
  if '\x00' ∈ path.toList then .error .nullCharacter
  else
    match fs.find path with
    | .error f => .error (.fault f)
    | .ok .directory => .error (.fault .isDirectory)
    | .ok c => if fs.isLocked path then .error (.fault .denied) else .ok c

theorem opened_of_null {fs : Files} {path : String} (h : '\x00' ∈ path.toList) :
    fs.opened path = .error .nullCharacter := if_pos h

theorem opened_ne_nullCharacter {fs : Files} {path : String} (h : '\x00' ∉ path.toList) :
    fs.opened path ≠ .error .nullCharacter := by
  unfold opened
  rw [if_neg h]
  split
  · exact nofun
  · exact nofun
  · split <;> exact nofun

theorem opened_of_find {fs : Files} {path : String} {c : Content} (hpath : '\x00' ∉ path.toList)
    (hlocked : fs.locked = []) (h : fs.find path = .ok c) (hc : c ≠ .directory) : fs.opened path = .ok c := by
  have hreadable : fs.isLocked path = false := by
    unfold isLocked
    rw [hlocked]
    cases fs.place path <;> rfl
  unfold opened
  rw [if_neg hpath, h, hreadable]
  cases c with
  | directory => exact absurd rfl hc
  | _ => rfl

theorem find_of_opened {fs : Files} {path : String} {c : Content} (h : fs.opened path = .ok c) :
    fs.find path = .ok c ∧ c ≠ .directory := by
  unfold opened at h
  split at h
  · cases h
  cases hfind : fs.find path with
  | error f =>
    rw [hfind] at h
    cases h
  | ok found =>
    rw [hfind] at h
    cases found with
    | directory => cases h
    | _ =>
      dsimp only at h
      split at h <;> cases h
      exact ⟨rfl, nofun⟩

/-- The text in the bytes of a file, with every line ended by a newline. -/
def textOf (data : List UInt8) : Except Text.Utf8.Fault (List Char) :=
  (Text.Utf8.decode data).map Text.universal

def workingPath (fs : Files) : String := "/" ++ "/".intercalate fs.working

/-- A path from the root on, in normal form. -/
def absolute (fs : Files) (path : String) : String := Path.absolute fs.workingPath path

def set (place : List String) (c : Content) :
    List (List String × Content) → List (List String × Content)
  | [] => [(place, c)]
  | (p, old) :: rest => if p = place then (p, c) :: rest else (p, old) :: set place c rest

/-- The place of a path that need not be there. -/
def target (fs : Files) (path : String) : List String :=
  (Path.parts (Path.normal path)).foldl (fun place part =>
      if part = "" || part = "." then place else if part = ".." then place.dropLast else place ++ [part])
    (if path.startsWith "/" then [] else fs.working)

/-- The tree with something written at a path, below directories that are made where they are missing. -/
def put (fs : Files) (path : String) (c : Content) : Files :=
  let place := fs.target path
  let parents := (above place.dropLast).filter fun p => (fs.at? p).isNone
  { fs with entries := set place c (fs.entries ++ parents.map fun p => (p, Content.directory)) }

/-- The tree without what stands at a path and below. -/
def delete (fs : Files) (path : String) : Files :=
  let place := fs.target path
  { fs with entries := fs.entries.filter fun (p, _) => !place.isPrefixOf p }

end Files

end GrammarBench
