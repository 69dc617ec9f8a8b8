import GrammarBench.Grammar.Phrase

/-!
# Literals

The patterns of literal texts, regular expressions and ranges as a grammar text writes them, and the
patterns of whole terminals.

* `evaluate`: a literal with its escapes replaced.
* `Literal.pattern`: the pattern of a text or a regular expression.
* `Literal.rangePattern`: the pattern of a range of characters.
* `Phrase.toPattern`: the one pattern of all that stands in the definition of a terminal.
-/

namespace GrammarBench.Grammar.Literal

def refuse {α : Type} (message : String) : Except Failure α := .error (.fault .grammar message)

/-! ## Escapes -/

/-- The escapes that stand for a character of their own. -/
def isEvaluated (c : Char) : Bool := "Uuxnftr".toList.contains c

/-- A text with the backslash of every other escape doubled; `none` when a backslash ends it. -/
def protect : List Char → Option (List Char)
  | [] => some []
  | ['\\'] => none
  | '\\' :: c :: r =>
    (protect r).map fun rest =>
      '\\' :: (if c = '\\' then ['\\', '\\'] else if isEvaluated c then [] else ['\\']) ++ c :: rest
  | c :: r => (protect r).map (c :: ·)

/-- Every backslash before a double quote taken away. -/
def bareQuotes : List Char → List Char
  | '\\' :: '"' :: r => '"' :: bareQuotes r
  | c :: r => c :: bareQuotes r
  | [] => []

/-- A backslash put before every single quote. -/
def guardQuotes (s : List Char) : List Char :=
  s.flatMap fun c => if c = '\'' then ['\\', '\''] else [c]

/-- Why an escape has no value: where it stands, how far it goes, and the reason. -/
structure EscapeFault where
  first : Nat
  last : Nat
  reason : String
  deriving DecidableEq, Repr

def digitsOf : Char → Option Nat
  | 'x' => some 2
  | 'u' => some 4
  | 'U' => some 8
  | _ => none

def escapeName (c : Char) (n : Nat) : String :=
  "truncated \\" ++ c.toString ++ String.ofList (List.replicate n 'X') ++ " escape"

/-- The character of an escape without digits. -/
def plainEscape : Char → Option Char
  | 'n' => some '\n'
  | 'f' => some '\x0c'
  | 't' => some '\t'
  | 'r' => some '\r'
  | '\\' => some '\\'
  | '\'' => some '\''
  | '"' => some '"'
  | _ => none

/-- A text with its escapes replaced by the characters they stand for. -/
def unescape : Nat → Nat → List Char → Except EscapeFault (List Char)
  | 0, _, _ => .ok []
  | _, _, [] => .ok []
  | rounds + 1, place, '\\' :: c :: r =>
    match digitsOf c with
    | some n =>
      let digits := (r.take n).takeWhile Pattern.isHex
      if digits.length < n then
        .error ⟨place, place + 1 + digits.length, escapeName c n⟩
      else
        let code := Pattern.valueIn 16 digits
        if 0x10FFFF < code then .error ⟨place, place + 1 + n, "illegal Unicode character"⟩
        else do
          let rest ← unescape rounds (place + 2 + n) (r.drop n)
          return Char.ofNat code :: rest
    | none => do
      let rest ← unescape rounds (place + 2) r
      return match plainEscape c with
        | some d => d :: rest
        | none => '\\' :: c :: rest
  | rounds + 1, place, c :: r => do
    let rest ← unescape rounds (place + 1) r
    return c :: rest

/-- A literal with its escapes replaced; those that stand for no single character keep their backslash. -/
def evaluate (s : List Char) : Except Failure (List Char) :=
  match protect s with
  | none =>
    refuse ("Literal ended unexpectedly (bad escaping): `" ++ Text.quoted (String.ofList s) ++ "`")
  | some protected' =>
    let body := guardQuotes (bareQuotes protected')
    match unescape (body.length + 1) 0 body with
    | .ok evaluated => .ok evaluated
    | .error f =>
      let whole := "u'''" ++ String.ofList body ++ "'''"
      let reason := "(unicode error) 'unicodeescape' codec can't decode bytes in position " ++
        toString f.first ++ "-" ++ toString f.last ++ ": " ++ f.reason
      refuse ("(" ++ Text.quoted (String.ofList s) ++ ", SyntaxError(" ++ Text.quoted reason ++
        ", ('<unknown>', 1, " ++ toString whole.length ++ ", " ++ Text.quoted whole ++ ", 1, -1)))")

/-- Every pair of backslashes replaced by one. -/
def halveBackslashes : List Char → List Char
  | '\\' :: '\\' :: r => '\\' :: halveBackslashes r
  | c :: r => c :: halveBackslashes r
  | [] => []

/-! ## Patterns -/

def isDelimiter (c : Char) : Bool := c = '/' || c = '"'

/-- The pattern of a text or a regular expression: what stands between its delimiters, and the flags
behind them. -/
def pattern (isText : Bool) (source : String) : Except Failure TerminalPattern := do
  let written := source.toList
  let flags := (written.reverse.takeWhile (!isDelimiter ·)).reverse
  if isText && '\n' ∈ written then refuse "You cannot put newlines in string literals"
  if !isText && '\n' ∈ written && !flags.contains 'x' then
    refuse "You can only use newlines in regular expressions with the `x` (verbose) flag"
  let body := ((written.take (written.length - flags.length)).drop 1).dropLast
  let evaluated ← evaluate body
  if evaluated.isEmpty then refuse ("Empty terminals are not allowed (" ++ source ++ ")")
  return { isLiteral := isText
           value := String.ofList (if isText then halveBackslashes evaluated else evaluated)
           flags := flags.eraseDups.mergeSort fun a b => a ≤ b
           source := some source }

/-- A failure while a part of a grammar was worked on. -/
def failedVisit (rule message : String) : Failure :=
  .fault .visit ("Error trying to process rule \"" ++ rule ++ "\":\n\n" ++ message)

/-- The pattern of a range; both ends must be single characters. -/
def rangePattern (first last : String) : Except Failure TerminalPattern := do
  let first := (first.toList.drop 1).dropLast
  let last := (last.toList.drop 1).dropLast
  let a ← evaluate first
  let b ← evaluate last
  if a.length = 1 && b.length = 1 then
    return { isLiteral := false, value := String.ofList ('[' :: first ++ '-' :: last ++ [']']) }
  else .error (failedVisit "range" "")

/-- A literal or range replaced by its pattern. -/
def resolve : Phrase → Except Failure Phrase
  | .literal isText source => return .pattern (← pattern isText source)
  | .range first last => return .pattern (← rangePattern first last)
  | p => return p

/-! ## Terminals -/

/-- The pattern with the least and greatest widths by which alternatives are ordered. -/
structure Measured where
  pattern : TerminalPattern
  least : Nat
  most : Nat

/-- Wider patterns come first, then those of greater least width, then longer ones. -/
def Measured.le (a b : Measured) : Bool :=
  if a.most ≠ b.most then b.most < a.most
  else if a.least ≠ b.least then b.least < a.least
  else b.pattern.value.length ≤ a.pattern.value.length

def measure (p : TerminalPattern) : Except Failure Measured :=
  match p.width with
  | .ok (least, most) => .ok ⟨p, least, most⟩
  | .error f => .error (failedVisit "expansions" f.message)

/-- A pattern made of others. -/
def composed (regexp : String) : TerminalPattern := { isLiteral := false, value := regexp }

def inTurn : List TerminalPattern → TerminalPattern
  | [] => { isLiteral := true, value := "" }
  | [p] => p
  | ps => composed (String.join (ps.map (·.regexp)))

def oneOf : List TerminalPattern → Except Failure TerminalPattern
  | [p] => .ok p
  | ps => do
    let measured ← ps.mapM measure
    let ordered := measured.mergeSort Measured.le
    return composed ("(?:" ++ "|".intercalate (ordered.map (·.pattern.regexp)) ++ ")")

/-- A range of times that ends before it begins. -/
def badRange {α : Type} (shown : String) (least most : Int) : Except Failure α :=
  refuse ("Bad Range for " ++ shown ++ " (" ++ toString least ++ ".." ++ toString most ++
    " isn't allowed)")

/-- How a repetition is written behind a pattern. -/
def mark (p : TerminalPattern) : Repetition → Except Failure String
  | .optional => .ok "?"
  | .plus => .ok "+"
  | .star => .ok "*"
  | .times least most isRange =>
    if !isRange then .ok ("\x7b" ++ toString least ++ "\x7d")
    else if most < least then badRange p.shown least most
    else .ok ("\x7b" ++ toString least ++ "," ++ toString most ++ "\x7d")

def repeatedPattern (p : TerminalPattern) (r : Repetition) : Except Failure TerminalPattern := do
  let m ← mark p r
  return { isLiteral := false, value := "(?:" ++ p.regexp ++ ")" ++ m, flags := p.flags }

mutual

/-- The pattern of a phrase in the definition of a terminal. -/
def toPattern : Phrase → Except Failure TerminalPattern
  | .choice ps => do oneOf (← toPatterns ps)
  | .sequence ps => do return inTurn (← toPatterns ps)
  | .named p _ => do
    let _ ← toPattern p
    refuse "Aliasing not allowed in terminals (You used -> in the wrong place)"
  | .repeated p r => do repeatedPattern (← toPattern p) r
  | .optional p => do repeatedPattern (← toPattern p) .optional
  | .value p => toPattern p
  | .pattern p => .ok p
  | _ => .error (.fault .assertion "")

def toPatterns : List Phrase → Except Failure (List TerminalPattern)
  | [] => .ok []
  | p :: ps => do
    let first ← toPattern p
    return first :: (← toPatterns ps)

end

end GrammarBench.Grammar.Literal
