import GrammarBench.Token.Basic
import GrammarBench.Failure

/-!
# Token streams

A stream reads all tokens of a lexer once, up to the first one that ends the input, numbers them, and
answers from that list afterwards. When the lexer gives no such token, one is placed behind its last
token.

* `Emission`: what a lexer yields, token by token, until it may fail.
* `Supply`: an emission that is read from its start each time, or once only.
* `Stream.fill`: the tokens, read from the lexer the first time.
* `Stream.onChannel`: the tokens of one channel.
* `Stream.answers`: the answers to some requests, one after the other.
-/

namespace GrammarBench

/-- What a lexer yields one after the other; a failure ends the reading. -/
abbrev Emission := List (Except Failure Token)

/-- A lexer that is being read. -/
structure Supply where
  /-- Everything it yields. -/
  items : Emission
  /-- Whether a second reading goes on where the first one stopped, instead of starting again. -/
  oneShot : Bool := false
  /-- What a one-shot lexer has still to yield. -/
  rest : Emission := items
  /-- What has been taken from it, in order. -/
  taken : Emission := []
  deriving Repr

def Supply.pulled (s : Supply) : Nat := s.taken.length

/-- One reading of an emission: the tokens up to the first that ends the input, or the failure, with the
number of items taken. -/
def read : Emission → Except Failure (List Token) × Nat
  | [] => (.ok [], 0)
  | .error f :: _ => (.error f, 1)
  | .ok t :: rest =>
    if t.isEof then (.ok [t], 1)
    else
      let (tokens, n) := read rest
      (tokens.map (t :: ·), n + 1)

/-- What the next reading of a lexer starts with. -/
def Supply.pending (s : Supply) : Emission := if s.oneShot then s.rest else s.items

/-- A failed reading exhausts a one-shot lexer. -/
def Supply.read (s : Supply) : Except Failure (List Token) × Supply :=
  let (tokens, n) := GrammarBench.read s.pending
  (tokens, { s with
    rest := if tokens.isOk then s.pending.drop n else []
    taken := s.taken ++ s.pending.take n })

/-- The token that ends the input behind a given last token. -/
def eofAfter : Option Token → Token
  | none =>
    { kind := Token.eof, text := some Token.eofText, start := 0, stop := -1, line := 1, column := 0 }
  | some last =>
    let text := (last.text.getD "").toList
    let n := Text.newlines text
    { kind := Token.eof, text := some Token.eofText, start := last.stop + 1, stop := last.stop
      line := last.line + n
      column :=
        if n = 0 then last.column + text.length else (Text.afterLastNewline text).length }

/-- Tokens with a last one that ends the input. -/
def closed (tokens : List Token) : List Token :=
  match tokens.getLast? with
  | some t => if t.isEof then tokens else tokens ++ [eofAfter (some t)]
  | none => [eofAfter none]

def numbered (tokens : List Token) : List Token := tokens.mapIdx fun i t => t.withIndex i

structure Stream where
  supply : Supply
  tokens : List Token := []
  filled : Bool := false
  deriving Repr

namespace Stream

def ofEmission (items : Emission) (oneShot : Bool := false) : Stream :=
  { supply := { items := items, oneShot := oneShot } }

/-- The tokens of the stream; a failed reading leaves it as empty as it was. -/
def fill (s : Stream) : Except Failure (List Token) × Stream :=
  if s.filled then (.ok s.tokens, s)
  else
    match s.supply.read with
    | (.error f, supply) => (.error f, { s with supply := supply })
    | (.ok tokens, supply) =>
      let tokens := numbered (closed tokens)
      (.ok tokens, { supply := supply, tokens := tokens, filled := true })

/-- The tokens of a list on one channel; the one that ends the input is on all of them. -/
def select (channel : Int) (tokens : List Token) : List Token :=
  tokens.filter fun t => t.channel = channel || t.isEof

def onChannel (channel : Int) (s : Stream) : Except Failure (List Token) × Stream :=
  let (tokens, s) := s.fill
  (tokens.map (select channel), s)

def length (s : Stream) : Except Failure Nat × Stream :=
  let (tokens, s) := s.fill
  (tokens.map List.length, s)

/-! ## Requests -/

inductive Request where
  | fill
  | onChannel (channel : Int)
  | length
  /-- The tokens one after the other. -/
  | iterate
  deriving DecidableEq, Repr

inductive Answer where
  | tokens (tokens : List Token)
  | count (n : Nat)
  deriving DecidableEq, Repr

/-- The answer to a request, with the stream as it is afterwards. -/
def answer (s : Stream) : Request → Except Failure Answer × Stream
  | .fill | .iterate =>
    let (tokens, s) := s.fill
    (tokens.map .tokens, s)
  | .onChannel channel =>
    let (tokens, s) := s.onChannel channel
    (tokens.map .tokens, s)
  | .length =>
    let (n, s) := s.length
    (n.map .count, s)

/-- The answers to some requests, with the stream as it is behind the last one. -/
def answers : List Request → Stream → List (Except Failure Answer) × Stream
  | [], s => ([], s)
  | r :: requests, s =>
    let (a, s) := s.answer r
    let (rest, s) := answers requests s
    (a :: rest, s)

end Stream

end GrammarBench
