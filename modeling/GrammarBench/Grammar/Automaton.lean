import GrammarBench.Grammar.Symbol
import GrammarBench.Failure
import GrammarBench.Log

/-!
# Automata

The table of a bottom-up parser with one token of look-ahead. States are sets of productions that are
partly read; what may follow a reduction is computed from the transitions on rules.

* `Automaton`: the table, with one start and one end state for each start rule.
* `itemSets`: the states and their transitions.
* `lookaheads`: the terminals in front of which a state may reduce.
* `Automaton.ofProductions`: the table of some productions, or why there is none.
-/

namespace GrammarBench.Grammar

inductive Action where
  /-- Go to a state with the symbol. -/
  | shift (state : Nat)
  /-- Make a rule out of the symbols read last, by the production of a number. -/
  | reduce (production : Nat)
  deriving DecidableEq, Repr, Inhabited

structure Automaton where
  /-- For each state, what to do about a terminal, and where to go with a rule. -/
  rows : Array (List (String × Action))
  /-- The start state of each start rule. -/
  starts : List (String × Nat)
  /-- The state of each start rule in which it has been read. -/
  ends : List (String × Nat)
  productions : Array Production
  deriving Repr, Inhabited

namespace Automaton

/-- The terminal behind the last token. -/
def endName : String := "$END"

/-- The rule above a start rule. -/
def rootOf (start : String) : String := "$root_" ++ start

/-! ## Numbered symbols -/

/-- Productions with numbers for their symbols. -/
structure Index where
  /-- The symbols, each once; the number of a symbol is its place. The end comes first, the other terminals
  next, and then the rules. -/
  symbols : Array Symbol
  /-- The number of terminals. -/
  terminals : Nat
  /-- For each production the number of its rule and the numbers of its symbols. -/
  productions : Array (Nat × List Nat)
  /-- For each symbol its productions. -/
  ofSymbol : Array (List Nat)

/-- A symbol as a number, whose digits are its kind and the bytes of its name. Numbers are told apart at
once, whatever the length of the names. -/
def keyOf (x : Symbol) : Nat :=
  x.name.toUTF8.data.toList.foldl (fun n b => n * 257 + b.toNat + 1) (if x.isTerminal then 1 else 2)

/-- Symbols with their keys, each once. -/
def distinct (symbols : List (Nat × Symbol)) : List (Nat × Symbol) :=
  (symbols.map (·.1)).eraseDups.filterMap fun key => symbols.find? (·.1 = key)

def Index.ofList (productions : List (String × List Symbol)) : Index :=
  let keyed := productions.map fun (origin, symbols) =>
    (.rule origin :: symbols).map fun x => (keyOf x, x)
  let all := (keyOf (.terminal endName), .terminal endName) :: keyed.flatten
  let terminals := distinct (all.filter (·.2.isTerminal))
  let symbols := terminals ++ distinct (all.filter (!·.2.isTerminal))
  let keys := symbols.map (·.1)
  let numbered := keyed.map fun own =>
    let numbers := own.map fun x => keys.idxOf x.1
    (numbers.headD 0, numbers.tail)
  { symbols := (symbols.map (·.2)).toArray
    terminals := terminals.length
    productions := numbered.toArray
    ofSymbol := ((List.range symbols.length).map fun n =>
      (numbered.zipIdx.filter fun ((origin, _), _) => origin = n).map (·.2)).toArray }

namespace Index

def symbol (ix : Index) (n : Nat) : Symbol := ix.symbols.getD n default

def isTerminal (ix : Index) (n : Nat) : Bool := n < ix.terminals

/-- More than the number of symbols of any production. -/
def width (ix : Index) : Nat := ix.productions.foldl (fun n (_, symbols) => max n (symbols.length + 1)) 1

end Index

/-! ## States -/

/-- A production of which some symbols have been read. -/
structure Partial where
  production : Nat
  read : Nat
  deriving DecidableEq, Repr, Inhabited

namespace Index

def next? (ix : Index) (p : Partial) : Option Nat :=
  match ix.productions[p.production]? with
  | some (_, symbols) => symbols[p.read]?
  | none => none

/-- The productions of a rule, and of every rule that one of them starts with, and so on. -/
def expand (ix : Index) : Nat → List Nat → List Nat → List Nat → List Nat
  | 0, _, _, found => found.reverse
  | _, [], _, found => found.reverse
  | rounds + 1, rule :: todo, seen, found =>
    let own := ix.ofSymbol.getD rule []
    let firsts := own.filterMap fun n => (ix.next? ⟨n, 0⟩).filter (!ix.isTerminal ·)
    let new := (firsts.filter fun r => !seen.contains r).eraseDups
    expand ix rounds (todo ++ new) (seen ++ new) (own.reverse ++ found)

/-- For each symbol the productions that may start where it stands. -/
def expanded (ix : Index) : Array (List Nat) :=
  ((List.range ix.symbols.size).map fun n =>
    if ix.isTerminal n then [] else ix.expand (ix.productions.size + 1) [n] [n] []).toArray

end Index

/-- The productions that may start where the partial productions of a kernel stand. -/
def startedIn (ix : Index) (expanded : Array (List Nat)) (kernel : List Partial) : List Partial :=
  let symbols := (kernel.filterMap ix.next?).eraseDups
  let started := (symbols.flatMap fun x => expanded.getD x []).eraseDups
  (started.map fun n => (⟨n, 0⟩ : Partial)).filter (!kernel.contains ·)

/-- What partial productions become when their next symbol is read, for each such symbol, in the order in
which the symbols first occur. -/
def grouped (ix : Index) (partials : List Partial) : List (Nat × List Partial) :=
  let symbols := (partials.filterMap ix.next?).eraseDups
  symbols.map fun x =>
    (x, (partials.filter fun p => ix.next? p = some x).map fun p => { p with read := p.read + 1 })

/-- Partial productions as a number with one bit for each, whatever their order. -/
def keyOfKernel (ix : Index) (kernel : List Partial) : Nat :=
  kernel.foldl (fun key p => key ||| (1 <<< (p.production * ix.width + p.read))) 0

/-- The partial productions of a kernel and those that may start in it, with the kernels that their next
symbols lead to; kernels are told apart by their keys. -/
structure Closure where
  key : Nat
  partials : List Partial
  next : List (Nat × Nat × List Partial)

def Closure.ofKernel (ix : Index) (expanded : Array (List Nat)) (key : Nat) (kernel : List Partial) :
    Closure :=
  let partials := kernel ++ startedIn ix expanded kernel
  { key := key
    partials := partials
    next := (grouped ix partials).map fun (x, kernel) => (x, keyOfKernel ix kernel, kernel) }

/-- The kernels of a list whose keys are not among some others, each once. -/
def newKernels (known : List Nat) : List (Nat × List Partial) → List (Nat × List Partial)
  | [] => []
  | k :: rest =>
    if known.contains k.1 then newKernels known rest else k :: newKernels (k.1 :: known) rest

/-- The closures of some kernels and of all that they lead to; `found` holds those that are done, latest
first. -/
def explore (ix : Index) (expanded : Array (List Nat)) :
    Nat → List (Nat × List Partial) → List Closure → List Closure
  | 0, _, found => found.reverse
  | _, [], found => found.reverse
  | rounds + 1, (key, kernel) :: todo, found =>
    let c := Closure.ofKernel ix expanded key kernel
    let known := key :: todo.map (·.1) ++ found.map (·.key)
    explore ix expanded rounds (todo ++ newKernels known (c.next.map (·.2))) (c :: found)

/-- More states than any grammar of use has. -/
def stateLimit : Nat := 1000000

/-- A state: the productions that are partly read in it, and the states that its symbols lead to. -/
structure ItemSet where
  partials : List Partial
  transitions : List (Nat × Nat)
  deriving Repr, Inhabited

def ItemSet.next? (s : ItemSet) (symbol : Nat) : Option Nat := s.transitions.lookup symbol

/-- The states of all start rules, whose own productions have the given numbers. -/
def itemSets (ix : Index) (roots : List Nat) : Array ItemSet :=
  let start := roots.map fun n => ([⟨n, 0⟩] : List Partial)
  let closures := explore ix ix.expanded stateLimit (start.map fun k => (keyOfKernel ix k, k)) []
  let keys := closures.map (·.key)
  (closures.map fun c =>
    { partials := c.partials, transitions := c.next.map fun (x, key, _) => (x, keys.idxOf key) }).toArray

/-! ## Look-ahead -/

/-- The rules that can be made out of nothing. -/
def nullable (ix : Index) : Nat → List Nat → List Nat
  | 0, known => known
  | rounds + 1, known =>
    let new := ix.productions.toList.filterMap fun (origin, symbols) =>
      if !known.contains origin && symbols.all known.contains then some origin else none
    if new.isEmpty then known else nullable ix rounds (known ++ new.eraseDups)

/-- A transition of a state on a rule. -/
structure Edge where
  state : Nat
  rule : Nat
  deriving DecidableEq, Repr

/-- An edge as a number. -/
def Edge.key (ix : Index) (e : Edge) : Nat := e.state * ix.symbols.size + e.rule

/-- The edges of all states. -/
def edgesOf (ix : Index) (sets : Array ItemSet) : List Edge :=
  (sets.toList.zipIdx).flatMap fun (s, n) =>
    ((s.transitions.map (·.1)).filter (!ix.isTerminal ·)).map fun r => ⟨n, r⟩

/-- The terminals that can be read next behind an edge, each by the bit of its number; the end stands behind
a start rule. -/
def directBits (ix : Index) (sets : Array ItemSet) (roots : List Nat) (e : Edge) : Nat :=
  let next := ((sets.getD e.state default).next? e.rule).getD 0
  ((sets.getD next default).transitions.map (·.1)).foldl
    (fun bits x => if ix.isTerminal x then bits ||| (1 <<< x) else bits)
    (if roots[e.state]? = some e.rule then 1 else 0)

/-- The edges behind an edge that can be made out of nothing: what stands behind them stands behind it. -/
def readsOf (sets : Array ItemSet) (empty : List Nat) (e : Edge) : List Edge :=
  let next := ((sets.getD e.state default).next? e.rule).getD 0
  (((sets.getD next default).transitions.map (·.1)).filter empty.contains).map fun r => ⟨next, r⟩

/-- The state reached from a state by some symbols, with the states passed on the way, one before each
symbol. -/
def walk (sets : Array ItemSet) : Nat → List Nat → List (Nat × Nat) × Option Nat
  | state, [] => ([], some state)
  | state, x :: rest =>
    match (sets.getD state default).next? x with
    | none => ([(state, x)], none)
    | some next =>
      let (passed, last) := walk sets next rest
      ((state, x) :: passed, last)

/-- The edges on the way of a production behind which nothing else need come: what stands behind the rule
of the production stands behind them. -/
def passedEdges (ix : Index) (empty : List Nat) : List (Nat × Nat) → List Edge
  | [] => []
  | (state, x) :: rest =>
    if (rest.map (·.2)).all empty.contains && !ix.isTerminal x then
      ⟨state, x⟩ :: passedEdges ix empty rest
    else passedEdges ix empty rest

/-- The edges that have all the terminals that an edge has. -/
def includedBy (ix : Index) (sets : Array ItemSet) (empty : List Nat) (e : Edge) : List Edge :=
  (sets.getD e.state default).partials.flatMap fun p =>
    let (origin, symbols) := ix.productions.getD p.production default
    if origin = e.rule then passedEdges ix empty (walk sets e.state (symbols.drop p.read)).1 else []

/-- The reductions after which an edge is taken, each by the state in which it is made. -/
def lookbackOf (ix : Index) (sets : Array ItemSet) (e : Edge) : List (Nat × Nat) :=
  (sets.getD e.state default).partials.filterMap fun p =>
    let (origin, symbols) := ix.productions.getD p.production default
    if p.read = 0 && origin = e.rule then
      (walk sets e.state symbols).2.map fun state => (state, p.production)
    else none

/-- One of many sets of numbers that are kept in one number, side by side with `width` bits for each. -/
def bitsOf (width n sets : Nat) : Nat := (sets >>> (n * width)) % Nat.pow 2 width

/-- The sets, side by side, when the first set of each pair has whatever the second one has. -/
def saturate (width : Nat) (pairs : List (Nat × Nat)) : Nat → Nat → Nat
  | 0, sets => sets
  | rounds + 1, sets =>
    let next := pairs.foldl (fun sets (m, n) => sets ||| (bitsOf width n sets <<< (m * width))) sets
    if next = sets then sets else saturate width pairs rounds next

/-- The terminals that may stand behind each edge, side by side. -/
def follow (ix : Index) (sets : Array ItemSet) (roots : List Nat) (edges : List Edge) : Nat :=
  let empty := nullable ix (ix.productions.size + 1) []
  let keys := edges.map (·.key ix)
  let place (e : Edge) : Nat := keys.idxOf (e.key ix)
  let reads := edges.zipIdx.flatMap fun (e, n) => (readsOf sets empty e).map fun m => (n, place m)
  let includes := edges.zipIdx.flatMap fun (e, n) =>
    (includedBy ix sets empty e).map fun m => (place m, n)
  let direct := edges.zipIdx.foldl (fun all (e, n) =>
    all ||| (directBits ix sets roots e <<< (n * ix.terminals))) 0
  let rounds := edges.length + 1
  saturate ix.terminals includes rounds (saturate ix.terminals reads rounds direct)

/-- For each state, the productions that it may reduce by, each with the bits of the terminals in front
of which it may. -/
def lookaheads (ix : Index) (sets : Array ItemSet) (roots : List Nat) : List (List (Nat × Nat)) :=
  let edges := edgesOf ix sets
  let follow := follow ix sets roots edges
  let found := edges.zipIdx.flatMap fun (e, n) =>
    (lookbackOf ix sets e).map fun (state, production) =>
      (state, production, bitsOf ix.terminals n follow)
  (List.range sets.size).map fun state =>
    let own := (found.filter (·.1 = state)).map (·.2)
    (own.map (·.1)).eraseDups.map fun production =>
      (production, (own.filter (·.1 = production)).foldl (fun bits r => bits ||| r.2) 0)

/-! ## The table -/

def refuse {α : Type} (message : String) : Except Failure α := .error (.fault .grammar message)

/-- The production to reduce by when several could: the one of the highest priority, if there is only
one of that. -/
def preferred (productions : Array Production) (candidates : List Nat) : Option Nat :=
  let rank (n : Nat) : Int := ((productions.getD n default).options.priority).getD 0
  match candidates.filter fun n => candidates.all fun m => rank m ≤ rank n with
  | [n] => some n
  | _ => none

/-- How conflicts are dealt with. -/
structure Strictness where
  /-- A choice between going on and reducing is refused. -/
  strict : Bool := false
  /-- Such a choice is warned of. -/
  loud : Bool := false

/-- A row that is being made: its actions, the lines noted down, and the clashes found. -/
structure RowState where
  actions : List (String × Action)
  log : List LogLine := []
  clashes : List String := []

/-- What a state does in front of a terminal when it may reduce: going on comes first. -/
def addReduction (productions : Array Production) (strictness : Strictness) (terminal : String)
    (goesOn : Bool) (candidates : List Nat) (row : RowState) : Except Failure RowState :=
  let shown (n : Nat) := (productions.getD n default).shown
  match preferred productions candidates with
  | none =>
    .ok { row with clashes := row.clashes ++
      ["Reduce/Reduce collision in " ++ (Symbol.terminal terminal).shown ++
        " between the following rules: " ++
        String.join ((Report.sorted (candidates.map shown)).map ("\n\t- " ++ ·))] }
  | some n =>
    if goesOn then
      if strictness.strict then
        refuse ("Shift/Reduce conflict for terminal " ++ terminal ++ ". [strict-mode]\n ")
      else
        let level := if strictness.loud then LogLevel.warning else LogLevel.debug
        .ok { row with log := row.log ++
          [⟨level, "lark", "Shift/Reduce conflict for terminal " ++ terminal ++ ": (resolving as shift)"⟩,
           ⟨level, "lark", " * " ++ shown n⟩] }
    else .ok { row with actions := row.actions ++ [(terminal, .reduce n)] }

/-- The row of a state. -/
def rowOf (ix : Index) (productions : Array Production) (strictness : Strictness) (set : ItemSet)
    (reductions : List (Nat × Nat)) : Except Failure RowState :=
  (List.range ix.terminals).foldlM (fun row t =>
    match (reductions.filter fun (_, bits) => bits.testBit t).map (·.1) with
    | [] => .ok row
    | candidates =>
      addReduction productions strictness (ix.symbol t).name (set.next? t).isSome candidates row)
    { actions := set.transitions.map fun (x, n) => ((ix.symbol x).name, .shift n) }

/-- Every rule that a production uses must have a production; the productions of the given number that
come first are looked at last. -/
def checkDefined (ix : Index) (roots : Nat) : Except Failure Unit :=
  let productions := ix.productions.toList.drop roots ++ ix.productions.toList.take roots
  match (productions.flatMap (·.2)).find? fun x => !ix.isTerminal x && (ix.ofSymbol.getD x []).isEmpty with
  | some x => refuse ("Using an undefined rule: " ++ (ix.symbol x).shown)
  | none => .ok ()

/-- The table of some productions for some start rules, with the lines noted down while it was made. -/
def ofProductions (productions : List Production) (starts : List String) (strictness : Strictness) :
    Except Failure (Automaton × List LogLine) := do
  let rootProductions : List Production := starts.map fun s =>
    { origin := rootOf s, items := [{ symbol := .rule s }] }
  let numbered := rootProductions ++ productions
  let ix := Index.ofList (numbered.map fun p => (p.origin, p.symbols))
  checkDefined ix starts.length
  let sets := itemSets ix (List.range starts.length)
  let roots := (ix.productions.toList.take starts.length).filterMap (·.2.head?)
  let reductions := lookaheads ix sets roots
  let rows ← (sets.toList.zip reductions).mapM fun (set, own) =>
    rowOf ix numbered.toArray strictness set own
  match rows.flatMap (·.clashes) with
  | [] => pure ()
  | clashes => refuse ("\n\n".intercalate clashes)
  let ends := (starts.zip roots).zipIdx.filterMap fun ((s, root), n) =>
    ((sets.getD n default).next? root).map fun m => (s, m)
  return ({ rows := (rows.map (·.actions)).toArray
            starts := starts.zipIdx
            ends := ends
            productions := numbered.toArray }, rows.flatMap (·.log))

end Automaton

end GrammarBench.Grammar
