import GrammarBench.Tree.Basic
import GrammarBench.Text.Letter

/-!
# Drawings of trees

A tree drawn with one label per line and guides that show which node belongs to which.

* `Drawing.ofTree`: the labels of a tree, with the styles of their parts.
* `Drawing.page`: the drawing on a page of a given width.
-/

namespace GrammarBench

inductive Style where
  | plain
  | bold
  | cyan
  | dim
  deriving DecidableEq, Repr

def Style.name : Style → String
  | plain => ""
  | bold => "bold"
  | cyan => "cyan"
  | dim => "dim"

/-- A stretch of a label with a style of its own. -/
structure Span where
  first : Nat
  behind : Nat
  style : Style
  deriving DecidableEq, Repr

structure Label where
  text : List Char
  style : Style
  spans : List Span := []
  deriving DecidableEq, Repr

namespace Label

/-- The control characters that a label drops. -/
def isDropped (c : Char) : Bool :=
  c = '\x07' || c = '\x08' || c = '\x0b' || c = '\x0c' || c = '\r'

def ofText (s : String) (style : Style) : Label :=
  { text := s.toList.filter (!isDropped ·), style := style }

/-- A label with a further piece in a style; an empty piece has no span. -/
def add (l : Label) (s : String) (style : Style) : Label :=
  let piece := s.toList.filter (!isDropped ·)
  { l with
    text := l.text ++ piece
    spans :=
      if s.isEmpty || style = .plain then l.spans
      else l.spans ++ [⟨l.text.length, l.text.length + piece.length, style⟩] }

def typed (text type : String) : Label :=
  (((ofText "" .plain).add text .bold).add " " .plain).add ("<" ++ type ++ ">") .dim

end Label

/-- A label with the drawings below it. -/
inductive Drawing where
  | branch (label : Label) (children : List Drawing)
  deriving Repr

namespace Drawing

def leafLabel (symbols : Symbols) : Tree → Label
  | .token t => .typed (Text.escape (t.text.getD "")) (displayName t.kind symbols)
  | .lexeme l => .typed (Text.escape l.text) l.terminal
  | t => .ofText (Text.escape t.shown) .bold

mutual

def ofTree (symbols : Symbols) : Tree → Drawing
  | .rule label children => branch (.ofText label .cyan) (ofChildren symbols children)
  | .node label children => branch (.ofText label .cyan) (ofChildren symbols children)
  | .plain label children => branch (.ofText label .cyan) (ofChildren symbols children)
  | .bare children => branch (.ofText "Bare" .cyan) (ofChildren symbols children)
  | t => branch (leafLabel symbols t) []

/-- The drawings of the children of a node; null ones are left out. -/
def ofChildren (symbols : Symbols) : List Tree → List Drawing
  | [] => []
  | t :: ts =>
    if t.isNull then ofChildren symbols ts else ofTree symbols t :: ofChildren symbols ts

end

/-! ## Wrapping -/

/-- The words of a line, each with the blanks about it. -/
def words : Nat → List Char → List (List Char)
  | 0, _ => []
  | fuel + 1, s =>
    let lead := s.takeWhile Text.isBlank
    let rest := s.drop lead.length
    let body := rest.takeWhile (!Text.isBlank ·)
    let trail := (rest.drop body.length).takeWhile Text.isBlank
    if body.isEmpty then []
    else (lead ++ body ++ trail) :: words fuel ((rest.drop body.length).drop trail.length)

/-- A word cut into pieces of a width. -/
def chop (width : Nat) (word : List Char) : List (List Char) :=
  let (_, last, done) := word.foldl (fun ((used, last, done) : Nat × List Char × List (List Char)) c =>
    let n := Text.columns c
    if width < used + n then (n, [c], last.reverse :: done) else (used + n, c :: last, done))
    (0, [], [])
  (last.reverse :: done).reverse

/-- Where a line is broken: the offsets found so far, latest first, the offset reached and the columns
used. -/
structure Breaks where
  offsets : List Nat := []
  offset : Nat := 0
  used : Nat := 0

/-- The breaks behind the pieces of a word that is too long for any line. -/
def Breaks.addPieces (b : Breaks) : List (List Char) → Breaks
  | [] => b
  | piece :: rest =>
    let offsets := if b.offset = 0 then b.offsets else b.offset :: b.offsets
    addPieces ⟨offsets, b.offset + piece.length, Text.width piece⟩ rest

/-- The breaks with a further word: it stays on the line if it fits, goes to the next one if it fits
there, and is cut otherwise. -/
def Breaks.addWord (width : Nat) (b : Breaks) (word : List Char) : Breaks :=
  let size := Text.width (word.reverse.dropWhile Text.isBlank).reverse
  if b.used + size ≤ width then ⟨b.offsets, b.offset + word.length, b.used + Text.width word⟩
  else if width < size then b.addPieces (chop width word)
  else if b.used ≠ 0 ∧ b.offset ≠ 0 then
    ⟨b.offset :: b.offsets, b.offset + word.length, Text.width word⟩
  else ⟨b.offsets, b.offset + word.length, b.used⟩

/-- A text divided at ascending offsets. -/
def divide (passed : Nat) (s : List Char) : List Nat → List (List Char)
  | [] => [s]
  | n :: rest => s.take (n - passed) :: divide n (s.drop (n - passed)) rest

/-- Blanks at the end that stand beyond the width taken off. -/
def trimBeyond (width : Nat) (s : List Char) : List Char :=
  let blanks := (s.reverse.takeWhile Text.isBlank).length
  s.take (s.length - min blanks (s.length - width))

/-- As much of a line as fits; where half of a wide character would fit, a blank stands. -/
def crop (width : Nat) : List Char → List Char
  | [] => []
  | c :: r =>
    if Text.columns c ≤ width then c :: crop (width - Text.columns c) r
    else List.replicate width ' '

/-- Tabs replaced by blanks up to the next multiple of eight columns. -/
def expand (s : List Char) : List Char :=
  (s.foldl (fun ((used, out) : Nat × List Char) c =>
    if c = '\t' then
      let n := 8 - used % 8
      (used + n, List.replicate n ' ' ++ out)
    else (used + Text.columns c, c :: out)) (0, [])).2.reverse

/-- The lines of one line of a label on a page of a width. -/
def wrapLine (width : Nat) (line : List Char) : List (List Char) :=
  let line := if '\t' ∈ line then expand line else line
  let breaks := (words line.length line).foldl (Breaks.addWord width) {}
  (divide 0 line breaks.offsets.reverse).map fun l => crop width (trimBeyond width l)

/-- The lines of a label on a page of a width; where no column is left there are none. -/
def wrapped (width : Nat) (l : Label) : List (List Char) :=
  if width = 0 then [] else (Text.splitNewlines l.text).flatMap (wrapLine width)

/-! ## Guides -/

mutual

/-- The lines of a drawing: `head` stands before its first line, `next` before the others. -/
def rows (width : Nat) (head next : List Char) : Drawing → List (List Char)
  | branch label children =>
    (match wrapped (width - head.length) label with
      | [] => []
      | first :: more => (head ++ first) :: more.map (next ++ ·)) ++
      rowsOfAll width next children

/-- The lines of the drawings below one node; the last one has a guide of its own. -/
def rowsOfAll (width : Nat) (lead : List Char) : List Drawing → List (List Char)
  | [] => []
  | [d] => rows width (lead ++ "└── ".toList) (lead ++ "    ".toList) d
  | d :: ds =>
    rows width (lead ++ "├── ".toList) (lead ++ "│   ".toList) d ++ rowsOfAll width lead ds

end

/-- The drawing as text on a page of a width. -/
def page (width : Nat) (d : Drawing) : String :=
  String.ofList ((rows width [] [] d).flatMap (· ++ ['\n']))

end Drawing

end GrammarBench
