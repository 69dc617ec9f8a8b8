import GrammarBench.Grammar.Phrase
import GrammarBench.Grammar.Literal

/-!
# Expansion of repetitions

Repetitions and optional parts become rules of their own and choices; then every choice is moved to the
top, so that what is left is a list of ways, each a list of symbols.

* `Workshop.replace`: a repetition or an optional part replaced by what means the same without it.
* `factors`: a number split into small factors and summands, by which many repetitions become few rules.
* `Phrase.simplify`: a phrase with its choices at the top.
* `Phrase.ways`: the ways that a simplified phrase offers.
-/

namespace GrammarBench.Grammar

/-! ## Repetitions -/

/-- A rule that was made for a repetition. -/
structure NewRule where
  name : String
  body : Phrase
  keepAll : Bool
  deriving Repr, Inhabited

/-- What a repetition was made a rule for: a phrase repeated, or a target and an atom so many times. -/
structure Purpose where
  atom : Phrase
  target : Option Phrase := none
  targets : Nat := 0
  atoms : Nat := 0
  isOptional : Bool := false
  deriving Repr, Inhabited

def Purpose.same (a b : Purpose) : Bool :=
  a.atom.same b.atom &&
    (match a.target, b.target with
      | some s, some t => s.same t
      | none, none => true
      | _, _ => false) &&
    a.targets = b.targets && a.atoms = b.atoms && a.isOptional = b.isOptional

/-- The rules made so far, each with its purpose, and the rule being worked on. -/
structure Workshop where
  rules : List NewRule := []
  purposes : List (Purpose × String) := []
  count : Nat := 0
  /-- The rule whose phrases are being replaced. -/
  owner : String := ""
  keepAll : Bool := false
  deriving Repr, Inhabited

abbrev Work := StateT Workshop (Except Failure)

namespace Workshop

def symbolOf (name : String) : Phrase := .symbol ⟨.rule name, false⟩

/-- The rule for a purpose: the one made before, or a new one. -/
def ruleFor (purpose : Purpose) (kind : String) (body : Phrase → Phrase) : Work Phrase := do
  let w ← get
  match w.purposes.find? fun p => p.1.same purpose with
  | some (_, name) => return symbolOf name
  | none =>
    let name := "__" ++ w.owner ++ "_" ++ kind ++ "_" ++ toString w.count
    set { w with
      rules := w.rules ++ [NewRule.mk name (body (symbolOf name)) w.keepAll]
      purposes := w.purposes ++ [(purpose, name)]
      count := w.count + 1 }
    return symbolOf name

/-- The rule for a phrase once or more often. -/
def onceOrMore (kind : String) (p : Phrase) : Work Phrase :=
  ruleFor { atom := p } kind fun self => .choice [.sequence [p], .sequence [self, p]]

/-- The rule for so many targets and then so many atoms. -/
def exactly (a b : Nat) (target atom : Phrase) : Work Phrase :=
  ruleFor { atom := atom, target := some target, targets := a, atoms := b }
    ("repeat_a" ++ toString a ++ "_b" ++ toString b) fun _ =>
    .choice [.sequence (List.replicate a target ++ List.replicate b atom)]

/-- The rule for less than so many targets and then so many atoms. -/
def fewer (a b : Nat) (target fewerTargets atom : Phrase) : Work Phrase :=
  ruleFor { atom := atom, target := some target, targets := a, atoms := b, isOptional := true }
    ("repeat_a" ++ toString a ++ "_b" ++ toString b ++ "_opt") fun _ =>
    .choice
      ((List.range a).map (fun i => .sequence (List.replicate i target ++ [fewerTargets])) ++
        (List.range b).map fun i => .sequence (List.replicate a target ++ List.replicate i atom))

end Workshop

/-- No factor and no sum of a factor and a summand is greater. -/
def factorLimit : Nat := 5

/-- From this number of repetitions on they are split up. -/
def splitLimit : Int := 50

/-- Factors and summands `(a, b)` such that starting at one and going to `n * a + b` each time gives the
number. -/
def factors : Nat → Nat → List (Nat × Nat)
  | 0, _ => []
  | rounds + 1, n =>
    if n ≤ factorLimit then [(n, 0)]
    else
      match ([5, 4, 3, 2] : List Nat).find? fun a => a + n % a ≤ factorLimit with
      | some a => factors rounds (n / a) ++ [(a, n % a)]
      | none => []

namespace Workshop

/-- Many repetitions by way of rules that multiply. -/
def manyTimes (p : Phrase) (least most : Nat) : Work Phrase := do
  let target ← (factors (least + 1) least).foldlM (fun t (a, b) => exactly a b t p) p
  if most = least then return target
  let parts := factors (most - least + 2) (most - least + 1)
  let (some_, fewer_) ← parts.dropLast.foldlM (fun (t, f) (a, b) => do
    let f' ← fewer a b t f p
    let t' ← exactly a b t p
    return (t', f')) (p, Phrase.empty)
  match parts.getLast? with
  | some (a, b) =>
    let rest ← fewer a b some_ fewer_ p
    return .choice [.sequence [target, rest]]
  | none => return target

/-- A phrase so many times. -/
def times (p : Phrase) (least most : Int) : Work Phrase :=
  if most < splitLimit then
    let counts := (List.range (most - least + 1).toNat).map fun (i : Nat) => (least + (i : Int)).toNat
    return .choice (counts.map fun n => .sequence (List.replicate n p))
  else manyTimes p least.toNat most.toNat

end Workshop

/-! ## Sizes of optional parts -/

mutual

/-- How many children a phrase leaves in a tree; `none` for a phrase that has a name of its own. -/
def leftBy (keepAll : Bool) : Phrase → Option Nat
  | .symbol ⟨.rule name, _⟩ => some (if name.startsWith "_" then 0 else 1)
  | .symbol ⟨.terminal _, dropped⟩ => some (if keepAll || !dropped then 1 else 0)
  | .sequence ps => (leftByAll keepAll ps).map List.sum
  | .choice ps => (leftByAll keepAll ps).map fun ns => ns.foldl max 0
  | .absent => some 0
  | _ => none

def leftByAll (keepAll : Bool) : List Phrase → Option (List Nat)
  | [] => some []
  | p :: ps => (leftBy keepAll p).bind fun n => (leftByAll keepAll ps).map (n :: ·)

end

mutual

/-- A phrase without repetitions as messages show it. -/
def shownPhrase : Phrase → String
  | .choice ps => "Tree('expansions', [" ++ ", ".intercalate (shownPhrases ps) ++ "])"
  | .sequence ps => "Tree('expansion', [" ++ ", ".intercalate (shownPhrases ps) ++ "])"
  | .named p name => "Tree('alias', [" ++ shownPhrase p ++ ", " ++ (Symbol.rule name).shown ++ "])"
  | .symbol i => i.symbol.shown
  | .absent => "Symbol('<EMPTY>')"
  | _ => ""

def shownPhrases : List Phrase → List String
  | [] => []
  | p :: ps => shownPhrase p :: shownPhrases ps

end

/-- A repetition or an optional part replaced. -/
def Workshop.replace : Phrase → Work Phrase
  | .repeated p .optional => return .choice [p, .empty]
  | .repeated p .plus => onceOrMore "plus" p
  | .repeated p .star => do return .choice [← onceOrMore "star" p, .empty]
  | .repeated p (.times least most isRange) =>
    if isRange && (most < least || least < 0) then
      liftM (Literal.badRange (shownPhrase p) least most : Except Failure Phrase)
    else times p least most
  | .optional p => do
    match leftBy (← get).keepAll p with
    | some n => return .choice [p, .sequence (List.replicate n .absent)]
    | none =>
      throw (Literal.failedVisit "maybe" ("Error trying to process rule \"expansions\":\n\n"))
  | p => return p

/-! ## Choices at the top -/

namespace Phrase

/-- A sequence with the sequences inside it dissolved. -/
def spliceSequences : List Phrase → List Phrase
  | [] => []
  | sequence ps :: rest => ps ++ spliceSequences rest
  | p :: rest => p :: spliceSequences rest

def spliceChoices : List Phrase → List Phrase
  | [] => []
  | choice ps :: rest => ps ++ spliceChoices rest
  | p :: rest => p :: spliceChoices rest

/-- Dissolving goes on until nothing is left to dissolve. -/
def flatSequence : Nat → List Phrase → List Phrase
  | 0, ps => ps
  | rounds + 1, ps =>
    if ps.any fun p => match p with | sequence _ => true | _ => false then
      flatSequence rounds (spliceSequences ps)
    else ps

def flatChoice : Nat → List Phrase → List Phrase
  | 0, ps => ps
  | rounds + 1, ps =>
    if ps.any fun p => match p with | choice _ => true | _ => false then
      flatChoice rounds (spliceChoices ps)
    else ps

/-- The first choice in a sequence, with what stands before and after it. -/
def firstChoice? : List Phrase → Option (List Phrase × List Phrase × List Phrase)
  | [] => none
  | choice options :: rest => some ([], options, rest)
  | p :: rest => (firstChoice? rest).map fun (before, options, after) => (p :: before, options, after)

def heights (ps : List Phrase) : Nat := heightAll ps

/-- A sequence of simplified phrases as a choice of sequences without choices, or as one sequence. -/
def distribute : Nat → List Phrase → Phrase
  | 0, ps => sequence ps
  | rounds + 1, ps =>
    let ps := flatSequence (heights ps + 1) ps
    match firstChoice? ps with
    | none => sequence ps
    | some (before, options, after) =>
      let all := (distinct options).map fun o => distribute rounds (before ++ o :: after)
      choice (flatChoice (heights all + 1) all)

/-- A choice with the choices inside it dissolved and each option once. -/
def simplifiedChoice (ps : List Phrase) : Phrase := choice (distinct (flatChoice (heights ps + 1) ps))

/-- A name given to a choice is given to each option. -/
def simplifiedName (p : Phrase) (name : String) : Phrase :=
  match p with
  | choice options => choice (options.map (named · name))
  | p => named p name

mutual

/-- How many choices are inside a phrase. -/
def choices : Phrase → Nat
  | choice ps => choicesAll ps + 1
  | sequence ps | template _ ps => choicesAll ps
  | named p _ | repeated p _ | optional p | value p => choices p
  | _ => 0

def choicesAll : List Phrase → Nat
  | [] => 0
  | p :: ps => choices p + choicesAll ps

end

mutual

/-- A phrase with its choices at the top. -/
def simplify : Phrase → Phrase
  | choice ps => simplifiedChoice (simplifyAll ps)
  | sequence ps =>
    let ps := simplifyAll ps
    distribute (choicesAll ps + 1) ps
  | named p name => simplifiedName (simplify p) name
  | p => p

def simplifyAll : List Phrase → List Phrase
  | [] => []
  | p :: ps => simplify p :: simplifyAll ps

end

/-- One way to make a rule: its items, the places of absent parts among them, and a name of its own. -/
structure Way where
  items : List Phrase
  name : Option String
  deriving Repr, Inhabited

def wayOf : Phrase → Except Failure Way
  | sequence ps => .ok ⟨ps, none⟩
  | named (sequence ps) name => .ok ⟨ps, some name⟩
  | _ => .error (.fault .assertion "")

/-- The ways that a simplified phrase offers. -/
def ways : Phrase → Except Failure (List Way)
  | choice ps => ps.mapM wayOf
  | _ => .error (.fault .assertion "")

end Phrase

end GrammarBench.Grammar
