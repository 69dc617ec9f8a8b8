import GrammarBench.Text.Lines
import GrammarBench.Text.Quoted

/-!
# Tokens

A token is a piece of the input with its type, its place and its channel. Lines count from one, columns
and offsets from zero; `stop` is the offset of the last character.

* `Token.eofAt`: the token that ends the input.
* `Token.cut`: a token whose text is cut out of the input.
-/

namespace GrammarBench

structure Token where
  kind : Int
  text : Option String
  start : Int
  stop : Int
  line : Int
  column : Int
  channel : Int := 0
  index : Int := -1
  deriving DecidableEq, Repr

namespace Token

/-- The type of the token that ends the input. -/
def eof : Int := -1

/-- The type of a token that no terminal stands for. -/
def invalid : Int := 0

def defaultChannel : Int := 0

def hiddenChannel : Int := 1

def eofText : String := "<EOF>"

def isEof (t : Token) : Bool := t.kind = eof

def withIndex (t : Token) (index : Int) : Token := { t with index := index }

/-- The token that ends a text, at a line and a column. -/
def eofAt (text : String) (line column : Int) : Token :=
  { kind := eof, text := some eofText, start := text.length, stop := (text.length : Int) - 1,
    line := line, column := column }

/-- An end of a piece of `n` characters: an offset below zero counts from the end, and none is
outside. -/
def clampEnd (n : Nat) (i : Int) : Nat :=
  (if i < 0 then i + n else i).toNat.min n

/-- The piece of a text between two ends, empty when they are out of order. -/
def piece (text : List Char) (first behind : Int) : List Char :=
  let first := clampEnd text.length first
  let behind := clampEnd text.length behind
  (text.take behind).drop first

/-- A token with the text from one offset up to another. -/
def cut (text : String) (kind start stop line column : Int) (channel : Int := defaultChannel) :
    Token :=
  { kind := kind, text := some (String.ofList (piece text.toList start (stop + 1))),
    start := start, stop := stop, line := line, column := column, channel := channel }

def shown (t : Token) : String :=
  "Token(type=" ++ toString t.kind ++
    ", text=" ++ (match t.text with | some s => Text.quoted s | none => "None") ++
    ", start=" ++ toString t.start ++ ", stop=" ++ toString t.stop ++
    ", line=" ++ toString t.line ++ ", column=" ++ toString t.column ++
    ", channel=" ++ toString t.channel ++ ", index=" ++ toString t.index ++ ")"

end Token

end GrammarBench
