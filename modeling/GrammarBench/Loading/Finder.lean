import GrammarBench.Files

/-!
# Finding files

The files below a directory that match patterns. A star stands for any text within a name, a question mark
for one character, brackets for one character of a set, and two stars alone for any directories.

* `Glyph.read`, `Glyph.fits`: the pattern of a name, and whether a name fits.
* `Finder.expand`: the paths that a pattern leads to.
* `Finder.gather`: the files that match the patterns, pattern by pattern and each once.
* `Finder.isBarred`, `Finder.find`: the patterns that cannot be followed, and the search with them.
-/

namespace GrammarBench.Loading

/-! ## Patterns of names -/

inductive Glyph where
  | char (c : Char)
  | any
  | star
  /-- A character in one of some ranges, or in none of them. -/
  | set (negated : Bool) (ranges : List (Char × Char))
  deriving DecidableEq, Repr

namespace Glyph

/-- The ranges that the inside of brackets lists. -/
def ranges : List Char → List (Char × Char)
  | a :: '-' :: b :: rest => (a, b) :: ranges rest
  | a :: rest => (a, a) :: ranges rest
  | [] => []

/-- The inside of brackets and what follows; a closing bracket in the first place does not close. -/
def inside? (s : List Char) : Option (List Char × List Char) :=
  let (lead, rest) := match s with
    | '!' :: ']' :: r => (['!', ']'], r)
    | '!' :: r => (['!'], r)
    | ']' :: r => ([']'], r)
    | r => ([], r)
  let body := rest.takeWhile (· ≠ ']')
  match rest.drop body.length with
  | _ :: behind => some (lead ++ body, behind)
  | [] => none

/-- The glyphs of a pattern; every round takes at least one character. -/
def readFrom : Nat → List Char → List Glyph
  | 0, _ => []
  | _, [] => []
  | n + 1, '*' :: r => .star :: readFrom n r
  | n + 1, '?' :: r => .any :: readFrom n r
  | n + 1, '[' :: r =>
    match inside? r with
    | none => .char '[' :: readFrom n r
    | some ('!' :: body, behind) => .set true (ranges body) :: readFrom n behind
    | some (body, behind) => .set false (ranges body) :: readFrom n behind
  | n + 1, c :: r => .char c :: readFrom n r

def read (pattern : String) : List Glyph := readFrom pattern.length pattern.toList

def takes (c : Char) : Glyph → Bool
  | .char d => c = d
  | .any => true
  | .star => false
  | .set negated ranges => (ranges.any fun (a, b) => a ≤ c && c ≤ b) != negated

def fits : List Glyph → List Char → Bool
  | [], s => s.isEmpty
  | .star :: gs, s => fits gs s || (match s with | [] => false | _ :: r => fits (.star :: gs) r)
  | g :: gs, c :: r => takes c g && fits gs r
  | _ :: _, [] => false
termination_by gs s => gs.length + s.length

end Glyph

/-! ## Paths -/

namespace Finder

def hasGlyph (s : String) : Bool := s.toList.any fun c => c = '*' || c = '?' || c = '['

def isHidden (name : String) : Bool := name.startsWith "."

def anyDepth : String := "**"

/-- The names in a directory; the working directory stands for no directory at all. -/
def namesIn (fs : Files) (directory : String) (directoriesOnly : Bool) : List String :=
  let directory := if directory = "" then "." else directory
  (fs.names directory).filter fun n =>
    !directoriesOnly || fs.isDirectory (Path.join directory n)

/-- All paths below a directory that pass through nothing hidden, each relative to it. -/
def below (fs : Files) (directoriesOnly : Bool) : Nat → String → List String
  | 0, _ => []
  | rounds + 1, directory =>
    (namesIn fs directory directoriesOnly).flatMap fun n =>
      if isHidden n then []
      else
        let path := if directory = "" then n else Path.join directory n
        n :: (below fs directoriesOnly rounds path).map (Path.join n)

/-- The names in a directory that the last part of a pattern leads to. -/
def matching (fs : Files) (directory part : String) (directoriesOnly : Bool) : List String :=
  if !hasGlyph part then
    if part = "" then (if fs.isDirectory directory then [""] else [])
    else if fs.exists? (Path.join directory part) then [part]
    else []
  else if part = anyDepth then "" :: below fs directoriesOnly (fs.entries.length + 1) directory
  else
    let glyphs := Glyph.read part
    (namesIn fs directory directoriesOnly).filter fun n =>
      (isHidden part || !isHidden n) && Glyph.fits glyphs n.toList

/-- The paths that a pattern leads to; every round takes the last part off the pattern. -/
def expand (fs : Files) : Nat → Bool → String → List String
  | 0, _, _ => []
  | rounds + 1, directoriesOnly, pattern =>
    let (directory, part) := Path.split pattern
    if !hasGlyph pattern then
      if part = "" then (if fs.isDirectory directory then [pattern] else [])
      else if fs.exists? pattern then [pattern]
      else []
    else if directory = "" then matching fs "" part directoriesOnly
    else
      let directories :=
        if directory ≠ pattern && hasGlyph directory then expand fs rounds true directory
        else [directory]
      directories.flatMap fun d => (matching fs d part directoriesOnly).map (Path.join d)

/-- The files that match some patterns below a directory, those of each pattern in the order of their code
points, in normal form and each once. -/
def gather (fs : Files) (directory : String) (patterns : List String) : List String :=
  patterns.foldl (fun found pattern =>
    let path := Path.join directory pattern
    (Report.sorted (expand fs (path.length + 1) false path)).foldl (fun found p =>
      let p := Path.normal p
      if fs.isFile p && !found.contains p then found ++ [p] else found) found) []

def hasNull (s : String) : Bool := s.toList.any fun c => c = '\x00'

/-- Whether a directory that no path can lead to has to be listed for a pattern; every round takes the last part off
the pattern. The directory in front of the first part with a glyph is listed whatever there is. -/
def isBarredIn : Nat → String → Bool
  | 0, _ => false
  | rounds + 1, pattern =>
    let directory := (Path.split pattern).1
    hasGlyph pattern &&
      if directory ≠ pattern && hasGlyph directory then isBarredIn rounds directory else hasNull directory

/-- Whether a pattern cannot be followed. -/
def isBarred (pattern : String) : Bool := isBarredIn (pattern.length + 1) pattern

/-- The files that match some patterns below a directory; a pattern that cannot be followed is a failure. -/
def find (fs : Files) (directory : String) (patterns : List String) : Except Failure (List String) :=
  if patterns.any fun pattern => isBarred (Path.join directory pattern) then .error Failure.nullInPath
  else .ok (gather fs directory patterns)

end Finder

end GrammarBench.Loading
