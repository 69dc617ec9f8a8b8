import GrammarBench.Pattern.Expr

/-!
# Matching

The ways in which an expression matches at a place are ordered: the left branch before the right one,
more repetitions before fewer, or fewer before more when lazy. `run` finds the first way that the rest
of the match can go on from.

* `Cursor`: a place in a text, with the captures made so far.
* `Expr.run`: the first way that a continuation accepts.
* `Expr.matchAt`: the first way of all.
-/

namespace GrammarBench.Pattern

/-- A place in a text: the characters before it, nearest first, and those after it, with the number of
those before and the captures, latest first. -/
structure Cursor where
  before : List Char
  after : List Char
  passed : Nat
  captures : List (Nat × List Char)
  deriving DecidableEq, Repr

namespace Cursor

def ofText (s : List Char) : Cursor := ⟨[], s, 0, []⟩

def advance (s : Cursor) (c : Char) (rest : List Char) : Cursor :=
  { s with before := c :: s.before, after := rest, passed := s.passed + 1 }

/-- The cursor some characters back, `none` when the text has fewer before it. -/
def back? (s : Cursor) (n : Nat) : Option Cursor :=
  if n ≤ s.passed then
    some { s with
      before := s.before.drop n
      after := (s.before.take n).reverse ++ s.after
      passed := s.passed - n }
  else none

/-- The text passed since an earlier cursor. -/
def since (s earlier : Cursor) : List Char := (s.before.take (s.passed - earlier.passed)).reverse

def captured? (s : Cursor) (index : Nat) : Option (List Char) := s.captures.lookup index

/-- The cursor behind a given text, if that text comes next. -/
def takeText? (anyCase : Bool) : List Char → Cursor → Option Cursor
  | [], s => some s
  | c :: cs, s =>
    match s.after with
    | [] => none
    | d :: rest =>
      if c = d || (anyCase && Text.fold c = Text.fold d) then takeText? anyCase cs (s.advance d rest)
      else none

end Cursor

/-- Whether a word character stands on one side of a place. -/
def wordSide (ascii : Bool) (side : List Char) : Bool := side.head?.any (Category.word.has ascii ·)

def Anchor.holds (s : Cursor) : Anchor → Bool
  | textStart => s.before.isEmpty
  | lineStart => s.before.isEmpty || s.before.head? = some '\n'
  | textEnd => s.after.isEmpty
  | lastLineEnd => s.after.isEmpty || s.after = ['\n']
  | lineEnd => s.after.isEmpty || s.after.head? = some '\n'
  | wordBoundary ascii => wordSide ascii s.before != wordSide ascii s.after
  | noWordBoundary ascii => wordSide ascii s.before == wordSide ascii s.after

/-- The cursors reached by taking characters of one set, farthest first; `found` holds those reached
already. -/
def reached (set : CharSet) : List Char → Option Nat → Cursor → List Cursor → List Cursor
  | [], _, s, found => s :: found
  | c :: rest, most, s, found =>
    if most = some 0 || !set.has c then s :: found
    else reached set rest (most.map (· - 1)) (s.advance c rest) (s :: found)

/-- What a match goes on with. -/
abbrev Continuation := Cursor → Option Cursor

/-- The first of two ways that succeeds. -/
@[inline] def orElse (first : Option Cursor) (second : Unit → Option Cursor) : Option Cursor :=
  match first with
  | some s => some s
  | none => second ()

/-- Repetition of a body. After the required repetitions a further one is tried only if the one before
took something, so that the characters left bound the rounds. -/
def repeatBody (body : Cursor → Continuation → Option Cursor) (lazy : Bool) (k : Continuation) :
    Nat → Nat → Option Nat → Option Nat → Cursor → Option Cursor
  | 0, _, _, _, s => k s
  | rounds + 1, least + 1, most, _, s =>
    body s fun s' => repeatBody body lazy k rounds least (most.map (· - 1)) none s'
  | rounds + 1, 0, most, last, s =>
    if most = some 0 || last = some s.passed then k s
    else
      let more := fun (_ : Unit) =>
        body s fun s' => repeatBody body lazy k rounds 0 (most.map (· - 1)) (some s.passed) s'
      if lazy then orElse (k s) more else orElse (more ()) fun _ => k s

namespace Expr

/-- The end of the first way in which an expression matches and the continuation succeeds. -/
def run : Expr → Cursor → Continuation → Option Cursor
  | empty, s, k => k s
  | set cs, s, k =>
    match s.after with
    | [] => none
    | c :: rest => if cs.has c then k (s.advance c rest) else none
  | span cs least most lazy, s, k =>
    let all := reached cs s.after most s []
    let enough := all.takeWhile fun t => s.passed + least ≤ t.passed
    (if lazy then enough.reverse else enough).findSome? k
  | seq a b, s, k => run a s fun s' => run b s' k
  | alt a b, s, k => orElse (run a s k) fun _ => run b s k
  | rep body least most lazy, s, k =>
    repeatBody (run body) lazy k (least + s.after.length + 2) least most none s
  | capture index body, s, k =>
    run body s fun s' => k { s' with captures := (index, s'.since s) :: s'.captures }
  | again index anyCase _, s, k =>
    match s.captured? index with
    | none => none
    | some text => (s.takeText? anyCase text).bind k
  | ahead wanted body, s, k =>
    match run body s some with
    | some s' => if wanted then k { s with captures := s'.captures } else none
    | none => if wanted then none else k s
  | behind wanted size body, s, k =>
    match (s.back? size).bind fun b => run body b some with
    | some s' => if wanted then k { s with captures := s'.captures } else none
    | none => if wanted then none else k s
  | atomic body, s, k => (run body s some).bind k
  | anchor a, s, k => if a.holds s then k s else none
  | ifCaptured index yes no, s, k =>
    if (s.captured? index).isSome then run yes s k else run no s k

/-- The end of the first way in which an expression matches at a place. -/
def matchAt (e : Expr) (s : Cursor) : Option Cursor := e.run s some

/-- The end of the first way in which an expression takes all that is left. -/
def matchAll (e : Expr) (s : Cursor) : Option Cursor :=
  e.run s fun t => if t.after.isEmpty then some t else none

end Expr

end GrammarBench.Pattern
