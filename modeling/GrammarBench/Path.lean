import GrammarBench.Text.Letter

/-!
# Paths

Paths are texts with the parts divided by slashes.

* `Path.normal`: the path without empty parts, dots and undone parts.
* `Path.stem`, `Path.extension`: the two halves of the last part.
* `Path.join`: a path below another.
-/

namespace GrammarBench.Path

def splitSlashes : List Char → List (List Char)
  | [] => [[]]
  | '/' :: r => [] :: splitSlashes r
  | c :: r =>
    match splitSlashes r with
    | [] => [[c]]
    | l :: ls => (c :: l) :: ls

def parts (path : String) : List String := (splitSlashes path.toList).map String.ofList

/-- The slashes that a normal path starts with: exactly two stay two. -/
def rootOf (path : String) : String :=
  match (path.toList.takeWhile (· = '/')).length with
  | 0 => ""
  | 2 => "//"
  | _ => "/"

/-- A part added to the parts before it, latest first; two dots undo the part before. -/
def addPart (rooted : Bool) (before : List String) (part : String) : List String :=
  if part = "" || part = "." then before
  else if part ≠ ".." then part :: before
  else
    match before with
    | [] => if rooted then [] else [part]
    | last :: rest => if last = ".." then part :: before else rest

/-- The path without empty parts, dots and undone parts. -/
def normal (path : String) : String :=
  let root := rootOf path
  let kept := (parts path).foldl (addPart (root ≠ "")) []
  let text := root ++ "/".intercalate kept.reverse
  if text = "" then "." else text

def base (path : String) : String := (parts path).getLast?.getD ""

/-- A name cut before its last dot; dots that lead it do not count. -/
def splitName (name : List Char) : List Char × List Char :=
  let lead := name.takeWhile (· = '.')
  let rest := name.drop lead.length
  let tail := (rest.reverse.takeWhile (· ≠ '.')).reverse
  if tail.length = rest.length then (name, [])
  else
    let stem := lead ++ rest.take (rest.length - tail.length - 1)
    (stem, name.drop stem.length)

def stem (path : String) : String := String.ofList (splitName (base path).toList).1

def extension (path : String) : String := String.ofList (splitName (base path).toList).2

/-- The two halves of a path at its last slash; slashes at the end of the first half are dropped unless
there is nothing else. -/
def split (path : String) : String × String :=
  let last := base path
  let front := path.toList.take (path.length - last.length)
  let kept := (front.reverse.dropWhile (· = '/')).reverse
  (String.ofList (if kept.isEmpty then front else kept), last)

/-- A path below another; one that starts at the root stays as it is. -/
def join (above below : String) : String :=
  if below.startsWith "/" then below
  else if above = "" || above.endsWith "/" then above ++ below
  else above ++ "/" ++ below

/-- A path without a directory in front starts at the working directory. -/
def absolute (working path : String) : String := normal (join working path)

end GrammarBench.Path
