import GrammarBench.Grammar.Terminal
import GrammarBench.Tree.Basic
import GrammarBench.Text.Lines

/-!
# Scanners

A scanner cuts a text into lexemes. At each place the terminals are tried in a fixed order, those of higher
priority and wider patterns first, and the first one that matches wins. A literal that a regular
expression of the same priority matches as a whole is a keyword: it is left out, and lexemes of that
expression with its text get its name.

* `Scanner.check`: whether terminals can be scanned for at all.
* `Scanner.ofTerminals`: the scanner of some terminals.
* `Scanner.findings`: the lexemes of a text, each with the terminal that found it, up to the first place
  where no terminal matches.
* `Scanner.scan`: the lexemes alone.
-/

namespace GrammarBench.Grammar

/-- The order in which terminals are tried: by priority, by greatest width, by length of the pattern,
and by name. -/
structure Rank where
  priority : Int
  width : Nat
  length : Nat
  name : String
  deriving DecidableEq, Repr

/-- Whether the first of two ranks comes before the second one, or they are the same. -/
def Rank.le (a b : Rank) : Bool :=
  if a.priority ≠ b.priority then b.priority < a.priority
  else if a.width ≠ b.width then b.width < a.width
  else if a.length ≠ b.length then b.length < a.length
  else decide (a.name ≤ b.name)

/-- The rank of a terminal whose pattern can be measured. -/
def Terminal.rank (t : Terminal) : Except Failure Rank := do
  let (_, width) ← t.pattern.width
  return ⟨t.priority, width, t.pattern.value.length, t.name⟩

/-- A ranked terminal put before the first one that it is not behind. -/
def place (t : Rank × Terminal) : List (Rank × Terminal) → List (Rank × Terminal)
  | [] => [t]
  | u :: rest => if t.1.le u.1 then t :: u :: rest else u :: place t rest

/-- Terminals in the order in which they are tried. -/
def inOrder (terminals : List Terminal) : Except Failure (List Terminal) := do
  let ranked ← terminals.mapM fun t => return (← t.rank, t)
  return (ranked.foldr place []).map (·.2)

abbrev Branch := String × Pattern.Expr

structure Scanner where
  /-- All terminals, in the order in which they are tried. -/
  terminals : List Terminal
  /-- What is tried at each place. -/
  branches : List Branch
  /-- For a terminal, the keywords that its lexemes may turn out to be. -/
  keywords : List (String × List Branch)
  /-- The terminals in whose lexemes newlines are counted. -/
  multiline : List String
  deriving Repr

namespace Scanner

def refuse {α : Type} (message : String) : Except Failure α := .error (.fault .lex message)

/-- A pattern must be readable and may not match the empty text. -/
def checkTerminal (flags : Pattern.Flags) (t : Terminal) : Except Failure Unit := do
  match Pattern.read flags t.pattern.regexp.toList with
  | .error f =>
    throw (TerminalPattern.failureOf f
      (.fault .lex ("Cannot compile token " ++ t.name ++ ": " ++ t.pattern.shown)))
  | .ok _ =>
    let (least, _) ← t.pattern.width
    if least = 0 then
      refuse ("Lexer does not allow zero-width terminals. (" ++ t.name ++ ": " ++ t.pattern.shown ++ ")")

def literalSet (names : List String) : String :=
  "\x7b" ++ ", ".intercalate (names.map Text.quoted) ++ "\x7d"

/-- Every pattern must be usable and every ignored name must be a terminal. -/
def check (flags : Pattern.Flags) (terminals : List Terminal) (ignored : List String) :
    Except Failure Unit := do
  terminals.forM (checkTerminal flags)
  match ignored.eraseDups.filter fun name => terminals.all (·.name ≠ name) with
  | [] => return
  | missing => refuse ("Ignore terminals are not defined: " ++ literalSet missing)

/-- All patterns as the branches of one expression. -/
def joined (flags : Pattern.Flags) (terminals : List Terminal) : Except Failure (List Branch) :=
  if terminals.isEmpty then .ok []
  else
    let text := ['|'].intercalate (terminals.map fun t =>
      '(' :: '?' :: 'P' :: '<' :: t.name.toList ++ '>' :: t.pattern.regexp.toList ++ [')'])
    match Pattern.readAlternatives flags text with
    | .ok branches => .ok ((terminals.map (·.name)).zip branches)
    | .error f => .error (TerminalPattern.failureOf f (.fault .pattern (f.describe text)))

/-- Whether the first match of a pattern in a text is all of that text. -/
def takesAll (flags : Pattern.Flags) (t : Terminal) (s : List Char) : Bool :=
  match Pattern.read flags t.pattern.regexp.toList with
  | .ok e => (e.matchAt (.ofText s)).any (·.after.isEmpty)
  | .error _ => false

/-- The literals of the same priority that a regular expression matches as a whole. -/
def keywordsOf (flags : Pattern.Flags) (terminals : List Terminal) (t : Terminal) : List Terminal :=
  if t.pattern.isLiteral then []
  else terminals.filter fun k =>
    k.pattern.isLiteral && k.priority = t.priority && takesAll flags t k.pattern.value.toList

/-- The scanner of terminals that can be scanned for. -/
def ofTerminals (flags : Pattern.Flags) (terminals : List Terminal) : Except Failure Scanner := do
  let terminals ← inOrder terminals
  let found := (terminals.map fun t => (t, keywordsOf flags terminals t)).filter (!·.2.isEmpty)
  let hidden := found.flatMap fun (t, ks) =>
    (ks.filter fun k => k.pattern.flags.all (t.pattern.flags.contains ·)).map (·.name)
  let keywords ← found.mapM fun (t, ks) => return (t.name, ← joined flags ks)
  let branches ← joined flags (terminals.filter fun t => !hidden.contains t.name)
  return { terminals := terminals
           branches := branches
           keywords := keywords
           multiline := (terminals.filter fun t => mayHoldNewline t.pattern.regexp).map (·.name) }

/-! ## Scanning -/

/-- A place in the text with its line and column, which count from one. -/
structure Position where
  cursor : Pattern.Cursor
  line : Nat := 1
  column : Nat := 1
  deriving Repr

/-- The first branch that matches, with the cursor behind the match. -/
def firstMatch (s : Pattern.Cursor) : List Branch → Option (String × Pattern.Cursor)
  | [] => none
  | (name, e) :: rest =>
    match e.matchAt s with
    | some s' => some (name, s')
    | none => firstMatch s rest

/-- The name of a lexeme of a terminal: the first of its keywords that the whole text is, if any. -/
def renamed (sc : Scanner) (name : String) (text : List Char) : String :=
  match sc.keywords.lookup name with
  | none => name
  | some branches =>
    match branches.find? fun b => (b.2.matchAll (.ofText text)).isSome with
    | some (keyword, _) => keyword
    | none => name

/-- The position behind a text; newlines are counted only where the terminal may hold them. -/
def Position.behind (p : Position) (multiline : Bool) (text : List Char) (s : Pattern.Cursor) :
    Position :=
  let s := { s with captures := [] }
  if multiline && Text.newlines text ≠ 0 then
    ⟨s, p.line + Text.newlines text, (Text.afterLastNewline text).length + 1⟩
  else ⟨s, p.line, p.column + text.length⟩

def expectedList (names : List String) : String :=
  "Expected one of: \n\t* " ++ "\n\t* ".intercalate (Report.sorted names) ++ "\n"

/-- The failure at a place where no terminal matches. -/
def unlexable (sc : Scanner) (text : List Char) (p : Position) (c : Char) (last : Option Lexeme) :
    Failure :=
  let names := sc.branches.map fun b =>
    ((sc.terminals.find? (·.name = b.1)).map Terminal.shown).getD b.1
  .unlexable ⟨some p.line, some p.column, some p.cursor.passed⟩
    ("No terminal matches '" ++ c.toString ++ "' in the current parser context, at line " ++
      toString p.line ++ " col " ++ toString p.column ++ "\n\n" ++ Text.around text p.cursor.passed ++
      expectedList (if names.isEmpty then ["<END-OF-FILE>"] else names) ++
      (match last with
        | some l => "\nPrevious tokens: " ++ l.literal ++ "\n"
        | none => ""))

/-- A lexeme with the terminal whose expression found it, which is another one than the lexeme's own when
the lexeme is a keyword. -/
structure Finding where
  finder : String
  lexeme : Lexeme
  deriving DecidableEq, Repr

/-- The failure of a scanning that stays in its place for ever. -/
def endless : Failure := .fault .runtime "the scanning does not come to an end"

/-- The finding at a position, with the position behind it. -/
def findingAt (sc : Scanner) (p : Position) : Option (Finding × Position) :=
  (firstMatch p.cursor sc.branches).map fun (name, s) =>
    let piece := s.since p.cursor
    let next := p.behind (sc.multiline.contains name) piece s
    (⟨name,
      { terminal := sc.renamed name piece
        text := String.ofList piece
        start := some p.cursor.passed
        stop := some next.cursor.passed
        line := some p.line
        column := some p.column
        endLine := some next.line
        endColumn := some next.column }⟩, next)

/-- The findings from a position on. A match of at least one character leaves fewer rounds to do; an empty
match is repeated until the rounds are used up. -/
def findFrom (sc : Scanner) (text : List Char) :
    Nat → Position → Option Lexeme → List (Except Failure Finding)
  | 0, p, _ => if p.cursor.after.isEmpty then [] else [.error endless]
  | rounds + 1, p, last =>
    match p.cursor.after with
    | [] => []
    | c :: _ =>
      match sc.findingAt p with
      | none => [.error (sc.unlexable text p c last)]
      | some (f, next) => .ok f :: findFrom sc text rounds next (some f.lexeme)

/-- The findings in a text, up to the first place where no terminal matches. -/
def findings (sc : Scanner) (text : String) : List (Except Failure Finding) :=
  let s := text.toList
  sc.findFrom s (s.length + 1) { cursor := .ofText s } none

/-- The lexemes of a text, up to the first place where no terminal matches. -/
def scan (sc : Scanner) (text : String) : List (Except Failure Lexeme) :=
  (sc.findings text).map fun f => f.map Finding.lexeme

end Scanner

end GrammarBench.Grammar
