import GrammarBench.Grammar.Symbol
import GrammarBench.Grammar.Terminal

/-!
# Phrases

The right-hand sides of definitions in a grammar text.

* `Phrase`: choices, sequences, repetitions, optional parts and what they are made of.
* `Phrase.same`: equality up to whether a symbol is dropped.
* `Phrase.mapLevels`: a change of all phrases inside a phrase, those that lie deepest first.
* `Phrase.flatten`: all phrases inside a phrase in the same order.
-/

namespace GrammarBench.Grammar

inductive Repetition where
  | optional
  | plus
  | star
  /-- A number of times, or between two numbers of times. -/
  | times (least most : Int) (isRange : Bool)
  deriving DecidableEq, Repr

inductive Phrase where
  | choice (options : List Phrase)
  | sequence (items : List Phrase)
  /-- A phrase whose tree gets a name of its own. -/
  | named (body : Phrase) (name : String)
  | repeated (body : Phrase) (repetition : Repetition)
  /-- A part that may be absent and then leaves nulls. -/
  | optional (body : Phrase)
  /-- A single symbol, literal, range or template. -/
  | value (content : Phrase)
  | symbol (item : Item)
  /-- A literal text or a regular expression as it is written. -/
  | literal (isText : Bool) (source : String)
  /-- The characters from one to another, both as they are written. -/
  | range (first last : String)
  | template (name : String) (args : List Phrase)
  | pattern (pattern : TerminalPattern)
  /-- What an absent optional part leaves. -/
  | absent
  deriving Repr, Inhabited

namespace Phrase

def empty : Phrase := sequence []

mutual

/-- Equality up to whether a symbol is dropped. -/
def same : Phrase → Phrase → Bool
  | choice a, choice b => sameAll a b
  | sequence a, sequence b => sameAll a b
  | named a n, named b m => n = m && same a b
  | repeated a r, repeated b s => r = s && same a b
  | optional a, optional b => same a b
  | value a, value b => same a b
  | symbol a, symbol b => a.symbol = b.symbol
  | literal k a, literal l b => k = l && a = b
  | range a b, range c d => a = c && b = d
  | template n a, template m b => n = m && sameAll a b
  | pattern a, pattern b => a.same b
  | absent, absent => true
  | _, _ => false

def sameAll : List Phrase → List Phrase → Bool
  | [], [] => true
  | a :: as, b :: bs => same a b && sameAll as bs
  | _, _ => false

end

/-- A list without what is the same as something before it. -/
def distinct (phrases : List Phrase) : List Phrase :=
  (phrases.foldl (fun out p => if out.any (same p) then out else p :: out) []).reverse

/-! ## Going through a phrase -/

def parts : Phrase → List Phrase
  | choice ps | sequence ps | template _ ps => ps
  | named p _ | repeated p _ | optional p | value p => [p]
  | symbol _ | literal _ _ | range _ _ | pattern _ | absent => []

/-- Changes the phrases directly inside a phrase, from left to right. -/
def mapParts {m : Type → Type} [Monad m] (f : Phrase → m Phrase) : Phrase → m Phrase
  | choice ps => return choice (← ps.mapM f)
  | sequence ps => return sequence (← ps.mapM f)
  | template n ps => return template n (← ps.mapM f)
  | named p n => return named (← f p) n
  | repeated p r => return repeated (← f p) r
  | optional p => return optional (← f p)
  | value p => return value (← f p)
  | p => return p

mutual

def height : Phrase → Nat
  | choice ps | sequence ps | template _ ps => heightAll ps + 1
  | named p _ | repeated p _ | optional p | value p => height p + 1
  | _ => 0

def heightAll : List Phrase → Nat
  | [] => 0
  | p :: ps => max (height p) (heightAll ps)

end

/-- Changes the phrases at one depth. -/
def mapAt {m : Type → Type} [Monad m] (f : Phrase → m Phrase) : Nat → Phrase → m Phrase
  | 0, p => f p
  | depth + 1, p => p.mapParts (mapAt f depth)

/-- Changes the phrases at one depth, then those less deep. -/
def mapUpFrom {m : Type → Type} [Monad m] (f : Phrase → m Phrase) : Nat → Phrase → m Phrase
  | 0, p => f p
  | depth + 1, p => do mapUpFrom f depth (← mapAt f (depth + 1) p)

/-- Changes all phrases inside a phrase: level by level, the deepest one first, and from left to right on
each level. -/
def mapLevels {m : Type → Type} [Monad m] (f : Phrase → m Phrase) (p : Phrase) : m Phrase :=
  mapUpFrom f p.height p

/-- The phrases at one depth, from left to right. -/
def atDepth : Nat → Phrase → List Phrase
  | 0, p => [p]
  | depth + 1, p => p.parts.flatMap (atDepth depth)

/-- All phrases inside a phrase: level by level, the deepest one first. -/
def flatten (p : Phrase) : List Phrase :=
  (List.range (p.height + 1)).reverse.flatMap fun depth => atDepth depth p

mutual

def symbolNames : Phrase → List String
  | choice ps | sequence ps => symbolNamesAll ps
  | template n ps => n :: symbolNamesAll ps
  | named p n => symbolNames p ++ [n]
  | repeated p _ | optional p | value p => symbolNames p
  | symbol i => [i.symbol.name]
  | _ => []

def symbolNamesAll : List Phrase → List String
  | [] => []
  | p :: ps => symbolNames p ++ symbolNamesAll ps

/-- The names of the symbols inside the sequences of a phrase. -/
def usedNames : Phrase → List String
  | choice ps | template _ ps => usedNamesAll ps
  | sequence ps => symbolNamesAll ps
  | named p _ | repeated p _ | optional p | value p => usedNames p
  | _ => []

def usedNamesAll : List Phrase → List String
  | [] => []
  | p :: ps => usedNames p ++ usedNamesAll ps

def rename (f : String → String) : Phrase → Phrase
  | choice ps => choice (renameAll f ps)
  | sequence ps => sequence (renameAll f ps)
  | template n ps => template (f n) (renameAll f ps)
  | named p n => named (rename f p) (f n)
  | repeated p r => repeated (rename f p) r
  | optional p => optional (rename f p)
  | value p => value (rename f p)
  | symbol ⟨.terminal n, d⟩ => symbol ⟨.terminal (f n), d⟩
  | symbol ⟨.rule n, d⟩ => symbol ⟨.rule (f n), d⟩
  | p => p

def renameAll (f : String → String) : List Phrase → List Phrase
  | [] => []
  | p :: ps => rename f p :: renameAll f ps

end

end Phrase

end GrammarBench.Grammar
