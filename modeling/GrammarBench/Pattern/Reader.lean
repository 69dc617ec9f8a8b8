import GrammarBench.Pattern.Expr
import GrammarBench.Text.Quoted

/-!
# Reading patterns

The written form of a pattern expression. Flags change what the characters mean: they are read into the
sets and anchors, so that an expression needs no flags of its own.

* `Flags`: regardless of case, every line, dot for all, verbose, ASCII classes.
* `readAlternatives`: the branches of a pattern, or the first fault.
* `read`: the whole pattern as one expression.
* `measure`: how many characters a pattern takes.
-/

namespace GrammarBench.Pattern

structure Flags where
  anyCase : Bool := false
  everyLine : Bool := false
  dotAll : Bool := false
  verbose : Bool := false
  ascii : Bool := false
  deriving DecidableEq, Repr

/-- The flags of a bit mask: 2 for any case, 8 for every line, 16 for dot for all, 64 for verbose and
256 for ASCII. -/
def Flags.ofMask (mask : Nat) : Flags where
  anyCase := mask.testBit 1
  everyLine := mask.testBit 3
  dotAll := mask.testBit 4
  verbose := mask.testBit 6
  ascii := mask.testBit 8

/-- Besides patterns that are no expression there are such that ask for too many repetitions or for flags
that exclude each other. -/
inductive FaultKind where
  | malformed
  | tooLarge
  | incompatible
  deriving DecidableEq, Repr

/-- A fault in a pattern and the place where it was seen; a fault of a finished expression has none. -/
structure Fault where
  message : String
  place : Option Nat
  kind : FaultKind := .malformed
  deriving DecidableEq, Repr

/-- The fault in words; a pattern of several lines gets line and column too. -/
def Fault.describe (f : Fault) (pattern : List Char) : String :=
  match f.place with
  | none => f.message
  | some place =>
    let passed := pattern.take place
    let column := (passed.reverse.takeWhile (· ≠ '\n')).length + 1
    f.message ++ " at position " ++ toString place ++
      (if '\n' ∈ pattern then
        " (line " ++ toString (passed.count '\n' + 1) ++ ", column " ++ toString column ++ ")"
      else "")

/-- A pattern that is being read: what is left, where that stands, and the captures so far. -/
structure Source where
  rest : List Char
  place : Nat := 0
  /-- The number of the next capture. -/
  next : Nat := 1
  names : List (String × Nat) := []
  /-- The widths of the captures that are closed. -/
  widths : List (Nat × (Nat × Nat)) := []
  flags : Flags := {}
  /-- Whether the pattern as a whole asks for classes of all characters. -/
  unicode : Bool := false
  /-- Inside a look behind, the number of the first capture that it may not refer to. -/
  behindFrom : Option Nat := none
  /-- Whether a look behind of no fixed width was read. -/
  loose : Bool := false
  /-- The numbers that conditions ask for, with their places. -/
  conditions : List (Nat × Nat) := []

abbrev Reader := StateT Source (Except Fault)

namespace Reader

def failAt {α : Type} (place : Nat) (message : String) : Reader α :=
  throw { message, place := some place }

/-- A fault the given number of characters before the current place. -/
def failBack {α : Type} (n : Nat) (message : String) : Reader α := do
  failAt ((← get).place - n) message

def peek : Reader (Option Char) := do return (← get).rest.head?

def place : Reader Nat := do return (← get).place

def skip (n : Nat) : Reader Unit :=
  modify fun s => { s with rest := s.rest.drop n, place := s.place + min n s.rest.length }

/-- The next character, taken. -/
def take : Reader (Option Char) := do
  let c ← peek
  skip 1
  return c

def accept (c : Char) : Reader Bool := do
  if (← peek) = some c then
    skip 1
    return true
  else return false

/-- Takes at most `n` characters of a kind. -/
def takeWhileUpTo (n : Nat) (p : Char → Bool) : Reader (List Char) := do
  let found := ((← get).rest.take n).takeWhile p
  skip found.length
  return found

def takeDigits : Reader (List Char) := do
  let found := (← get).rest.takeWhile Char.isDigit
  skip found.length
  return found

/-- The length of a name or a comment with the character that ends it, and whether there is one. A
character behind a backslash ends nothing. -/
def spanTo (stop : Char) : List Char → Nat × Bool
  | [] => (0, false)
  | '\\' :: _ :: rest => ((spanTo stop rest).1 + 2, (spanTo stop rest).2)
  | c :: rest =>
    if c = stop then (1, true) else ((spanTo stop rest).1 + 1, (spanTo stop rest).2)

/-- The text up to a closing character, which is taken too. -/
def takeUntil (stop : Char) (what : String) : Reader (List Char) := do
  let (length, ended) := spanTo stop (← get).rest
  let found := (← get).rest.take (if ended then length - 1 else length)
  skip length
  if ended then
    if found.isEmpty then failBack 1 ("missing " ++ what) else return found
  else if found.isEmpty then failBack 0 ("missing " ++ what)
  else failBack found.length ("missing " ++ stop.toString ++ ", unterminated name")

/-- Skips a comment and says whether it was ended. -/
def skipComment (stop : Char) : Reader Bool := do
  let (length, ended) := spanTo stop (← get).rest
  skip length
  return ended

/-- The next unit as it is written: a character, or a backslash with the character behind it. -/
def takeUnit : Reader (Option String) := do
  match (← get).rest with
  | '\\' :: c :: _ =>
    skip 2
    return some (String.ofList ['\\', c])
  | _ => return (← take).map Char.toString

end Reader

open Reader

def isHex (c : Char) : Bool := c.isDigit || ('a' ≤ c && c ≤ 'f') || ('A' ≤ c && c ≤ 'F')

def isOctal (c : Char) : Bool := '0' ≤ c && c ≤ '7'

def hexValue (c : Char) : Nat :=
  if c.isDigit then c.toNat - 48 else if 'a' ≤ c then c.toNat - 87 else c.toNat - 55

def valueIn (base : Nat) (digits : List Char) : Nat :=
  digits.foldl (fun n c => n * base + hexValue c) 0

/-- Escapes that stand for one character. -/
def plainEscape? : Char → Option Nat
  | 'a' => some 7
  | 'f' => some 12
  | 'n' => some 10
  | 'r' => some 13
  | 't' => some 9
  | 'v' => some 11
  | '\\' => some 92
  | _ => none

/-- Escapes that stand for a class of characters. -/
def classEscape? (ascii : Bool) : Char → Option SetItem
  | 'd' => some (.category .digit false ascii)
  | 'D' => some (.category .digit true ascii)
  | 's' => some (.category .space false ascii)
  | 'S' => some (.category .space true ascii)
  | 'w' => some (.category .word false ascii)
  | 'W' => some (.category .word true ascii)
  | _ => none

def anchorEscape? (ascii : Bool) : Char → Option Anchor
  | 'A' => some .textStart
  | 'Z' => some .textEnd
  | 'b' => some (.wordBoundary ascii)
  | 'B' => some (.noWordBoundary ascii)
  | _ => none

/-- The code point of an escape of exactly `n` hexadecimal digits. -/
def hexEscape (letter : Char) (n : Nat) : Reader Nat := do
  let digits ← takeWhileUpTo n isHex
  let written := String.ofList ('\\' :: letter :: digits)
  if digits.length < n then failBack written.length ("incomplete escape " ++ written)
  let value := valueIn 16 digits
  if 0x110000 ≤ value then failBack written.length ("bad escape " ++ written)
  return value

/-- The code point of an escape that is a number or no letter; the character after the backslash is
taken already. -/
def codeEscape (c : Char) : Reader Nat := do
  match c with
  | 'x' => hexEscape 'x' 2
  | 'u' => hexEscape 'u' 4
  | 'U' => hexEscape 'U' 8
  | 'N' =>
    if !(← accept '\x7b') then failBack 0 "missing \x7b"
    let name ← takeUntil '\x7d' "character name"
    failBack (name.length + 4) ("undefined character name " ++ Text.quoted (String.ofList name))
  | c =>
    if c.isAlpha || c.isDigit then failBack 2 ("bad escape \\" ++ c.toString) else return c.toNat

def takeEscaped : Reader Char := do
  match ← take with
  | some c => return c
  | none => failBack 1 "bad escape (end of pattern)"

/-- The code point or the class of an escape inside a set. -/
def setEscape (ascii : Bool) : Reader (Nat ⊕ SetItem) := do
  let c ← takeEscaped
  if c = 'b' then return .inl 8
  if let some n := plainEscape? c then return .inl n
  if let some item := classEscape? ascii c then return .inr item
  if isOctal c then
    let digits := c :: (← takeWhileUpTo 2 isOctal)
    let value := valueIn 8 digits
    if 255 < value then
      failBack (digits.length + 1)
        ("octal escape value \\" ++ String.ofList digits ++ " outside of range 0-0o377")
    return .inl value
  return .inl (← codeEscape c)

/-- One character or class of a set, as written and as read. -/
def setElement (ascii : Bool) (c : Char) : Reader (String × (Nat ⊕ SetItem)) := do
  if c = '\\' then
    let written := (← peek).elim "\\" fun d => "\\" ++ d.toString
    return (written, ← setEscape ascii)
  else return (c.toString, .inl c.toNat)

def itemOf : Nat ⊕ SetItem → SetItem
  | .inl n => .range n n
  | .inr item => item

/-- The items of a set up to its closing bracket; `opened` is the place of the opening one. -/
def setItems (ascii : Bool) (opened : Nat) : Nat → List SetItem → Reader (List SetItem)
  | 0, _ => failAt opened "unterminated character set"
  | fuel + 1, items => do
    let some c ← take | failAt opened "unterminated character set"
    if c = ']' && !items.isEmpty then return items
    let (written, element) ← setElement ascii c
    if !(← accept '-') then setItems ascii opened fuel (items ++ [itemOf element])
    else
      let some d ← take | failAt opened "unterminated character set"
      if d = ']' then return items ++ [itemOf element, .range 45 45]
      let (written', element') ← setElement ascii d
      let bad : Reader (List SetItem) :=
        failBack (written.length + 1 + written'.length)
          ("bad character range " ++ written ++ "-" ++ written')
      match element, element' with
      | .inl low, .inl high =>
        if high < low then bad else setItems ascii opened fuel (items ++ [.range low high])
      | _, _ => bad

/-- Inside a look behind only captures from before it may be asked for. -/
def checkBehind (index : Nat) : Reader Unit := do
  let s ← get
  match s.behindFrom with
  | none => return
  | some from' =>
    if (s.widths.lookup index).isNone then failBack 0 "cannot refer to an open group"
    if from' ≤ index then
      failBack 0 "cannot refer to group defined in the same lookbehind subpattern"

/-- A reference to a capture, which has to be closed. -/
def reference (index back : Nat) (anyCase : Bool) : Reader Expr := do
  let s ← get
  match s.widths.lookup index with
  | none => failBack back "cannot refer to an open group"
  | some width =>
    checkBehind index
    return .again index anyCase width

def literal (flags : Flags) (n : Nat) : Expr := .set { items := [.range n n], anyCase := flags.anyCase }

def escape (flags : Flags) : Reader Expr := do
  let c ← takeEscaped
  if let some a := anchorEscape? flags.ascii c then return .anchor a
  if let some item := classEscape? flags.ascii c then
    return .set { items := [item], anyCase := flags.anyCase }
  if let some n := plainEscape? c then return literal flags n
  if c = '0' then
    let digits ← takeWhileUpTo 2 isOctal
    return literal flags (valueIn 8 digits)
  if c.isDigit then
    let more ← takeWhileUpTo 1 Char.isDigit
    let s ← get
    match more, s.rest.head? with
    | [d], some e =>
      if isOctal c && isOctal d && isOctal e then
        skip 1
        let value := valueIn 8 [c, d, e]
        if 255 < value then
          failBack 4 ("octal escape value \\" ++ String.ofList [c, d, e] ++
            " outside of range 0-0o377")
        return literal flags value
    | _, _ => pure ()
    let index := valueIn 10 (c :: more)
    if index < s.next then reference index (more.length + 2) flags.anyCase
    else failBack (more.length + 1) ("invalid group reference " ++ toString index)
  else return literal flags (← codeEscape c)

/-- What may stand after an item decides whether it can be repeated. -/
inductive Role where
  | anchor
  | repetition
  | other
  deriving DecidableEq

/-- Bounds of repetitions are smaller than this. -/
def repetitionLimit : Nat := Nat.pow 2 32 - 1

def repetitionFault : Fault := ⟨"the repetition number is too large", none, .tooLarge⟩

/-- The bounds of a repetition; `none` when the brace stands for itself. -/
def bounds (c : Char) (here : Nat) : Reader (Option (Nat × Option Nat)) := do
  match c with
  | '?' => return some (0, some 1)
  | '*' => return some (0, none)
  | '+' => return some (1, none)
  | _ =>
    if (← peek) = some '\x7d' then return none
    let saved ← get
    let low ← takeDigits
    let high ← if ← accept ',' then takeDigits else pure low
    if !(← accept '\x7d') then
      set saved
      return none
    let least := valueIn 10 low
    if repetitionLimit ≤ least then throw repetitionFault
    if high.isEmpty then return some (least, none)
    let most := valueIn 10 high
    if repetitionLimit ≤ most then throw repetitionFault
    if most < least then failAt here "min repeat greater than max repeat"
    return some (least, some most)

/-- Flags that are switched inside a pattern. -/
structure Switches where
  on : List Char := []
  off : List Char := []
  /-- Whether they hold for the whole pattern and not for one group. -/
  whole : Bool := false

def isFlagLetter (c : Char) : Bool := "imsxatuL".toList.contains c

/-- The flags with one of them switched. -/
def Flags.switch (flags : Flags) (on : Bool) : Char → Flags
  | 'i' => { flags with anyCase := on }
  | 'm' => { flags with everyLine := on }
  | 's' => { flags with dotAll := on }
  | 'x' => { flags with verbose := on }
  | 'a' => { flags with ascii := on }
  | 'u' => { flags with ascii := !on }
  | _ => flags

/-- The flags with all switches applied. -/
def Flags.apply (flags : Flags) (s : Switches) : Flags :=
  s.off.foldl (·.switch false ·) (s.on.foldl (·.switch true ·) flags)

/-- The letters that switch flags off, up to the colon. -/
def flagsOff : Nat → List Char → Reader (List Char)
  | 0, off => return off
  | fuel + 1, off => do
    match ← take with
    | none => failBack 0 "missing :"
    | some ':' => return off
    | some c =>
      if c = 'a' || c = 'u' || c = 'L' then
        failBack 0 "bad inline flags: cannot turn off flags 'a', 'u' and 'L'"
      if isFlagLetter c then flagsOff fuel (c :: off)
      else failBack 1 (if Text.isLetter c then "unknown flag" else "missing :")

/-- The letters that switch flags on, up to a colon, a parenthesis or a minus, and that character. -/
def flagsOn : Nat → List Char → Reader (List Char × Char)
  | 0, on => return (on, ':')
  | fuel + 1, on => do
    match ← take with
    | none => failBack 0 "missing -, : or )"
    | some c =>
      if c = ')' || c = ':' || c = '-' then return (on, c)
      if c = 'L' then failBack 0 "bad inline flags: cannot use 'L' flag with a str pattern"
      if (c = 'a' && on.contains 'u') || (c = 'u' && on.contains 'a') then
        failBack 0 "bad inline flags: flags 'a', 'u' and 'L' are incompatible"
      if isFlagLetter c then flagsOn fuel (c :: on)
      else failBack 1 (if Text.isLetter c then "unknown flag" else "missing -, : or )")

/-- The switches of a group. No flag is switched on and off at once. -/
def switches : Reader Switches := do
  let fuel := (← get).rest.length + 1
  let (on, stop) ← flagsOn fuel []
  if stop = ')' then return { on, whole := true }
  if on.contains 't' then failBack 1 "bad inline flags: cannot turn on global flag"
  let off ←
    if stop = '-' then
      match ← peek with
      | none => failBack 0 "missing flag"
      | some c =>
        if isFlagLetter c then flagsOff fuel []
        else
          skip 1
          failBack 1 (if Text.isLetter c then "unknown flag" else "missing flag")
    else pure []
  if off.contains 't' then failBack 1 "bad inline flags: cannot turn off global flag"
  if off.any on.contains then failBack 1 "bad inline flags: flag turned on and off"
  return { on, off }

def isName (s : List Char) : Bool :=
  match s with
  | [] => false
  | c :: cs => Text.startsName c && cs.all Text.continuesName

/-- The number of a named capture. -/
def named (name : List Char) : Reader Nat := do
  if !isName name then
    failBack (name.length + 1) ("bad character in group name " ++ Text.quoted (String.ofList name))
  match (← get).names.lookup (String.ofList name) with
  | some index => return index
  | none => failBack (name.length + 1) ("unknown group name " ++ Text.quoted (String.ofList name))

def openCapture (name : Option (List Char)) : Reader Nat := do
  let s ← get
  let index := s.next
  match name with
  | none => set { s with next := index + 1 }
  | some name =>
    if !isName name then
      failBack (name.length + 1) ("bad character in group name " ++ Text.quoted (String.ofList name))
    match s.names.lookup (String.ofList name) with
    | some old =>
      failBack (name.length + 1) ("redefinition of group name " ++ Text.quoted (String.ofList name) ++
        " as group " ++ toString index ++ "; was group " ++ toString old)
    | none => set { s with next := index + 1, names := (String.ofList name, index) :: s.names }
  return index

def closeCapture (index : Nat) (body : Expr) : Reader Unit :=
  modify fun s => { s with widths := (index, body.width) :: s.widths }

def closeGroup (opened : Nat) : Reader Unit := do
  if !(← accept ')') then failAt opened "missing ), unterminated subpattern"

/-- The number of characters that a look behind takes, which has to be a fixed one. -/
def fixedWidth (body : Expr) : Reader Nat := do
  let (low, high) := body.width
  if low ≠ high then modify fun s => { s with loose := true }
  return low

/-- The branches between bars, in order. -/
def altOf : List Expr → Expr
  | [] => .empty
  | [e] => e
  | e :: es => .alt e (altOf es)

mutual

/-- The branches of a pattern or of a group. Flags set at the very start of the pattern hold for all its
branches. -/
def branches : Nat → Flags → Bool → Reader (List Expr)
  | 0, _, _ => failBack 0 "pattern too long"
  | fuel + 1, flags, outermost => do
    let first ← items fuel flags outermost []
    let flags ← if outermost then pure (← get).flags else pure flags
    moreBranches fuel flags [first]

def moreBranches : Nat → Flags → List Expr → Reader (List Expr)
  | 0, _, _ => failBack 0 "pattern too long"
  | fuel + 1, flags, found => do
    if ← accept '|' then
      let e ← items fuel flags false []
      moreBranches fuel flags (found ++ [e])
    else return found

/-- The items of one branch, latest first in `found`. -/
def items : Nat → Flags → Bool → List (Role × Expr) → Reader Expr
  | 0, _, _, _ => failBack 0 "pattern too long"
  | fuel + 1, flags, first, found => do
    let done := Expr.ofSeq (found.reverse.map (·.2))
    let start ← place
    match ← peek with
    | none => return done
    | some c =>
      if c = '|' || c = ')' then return done
      skip 1
      let add (role : Role) (e : Expr) : Reader Expr := items fuel flags first ((role, e) :: found)
      if flags.verbose && Text.isBlank c && c.toNat < 128 then items fuel flags first found
      else if flags.verbose && c = '#' then
        let _ ← skipComment '\n'
        items fuel flags first found
      else match c with
      | '\\' =>
        let e ← escape flags
        add (match e with | .anchor _ => .anchor | _ => .other) e
      | '[' =>
        let negated ← accept '^'
        let set ← setItems flags.ascii start ((← get).rest.length + 1) []
        add .other (.set { items := set, negated, anyCase := flags.anyCase })
      | '.' =>
        add .other (.set { items := if flags.dotAll then [] else [.range 10 10], negated := true })
      | '^' => add .anchor (.anchor (if flags.everyLine then .lineStart else .textStart))
      | '$' => add .anchor (.anchor (if flags.everyLine then .lineEnd else .lastLineEnd))
      | '(' => group fuel flags first found start
      | c =>
        if c = '?' || c = '*' || c = '+' || c = '\x7b' then
          match ← bounds c (start + 1) with
          | none => add .other (literal flags c.toNat)
          | some (least, most) =>
            match found with
            | [] => failAt start "nothing to repeat"
            | (.anchor, _) :: _ => failAt start "nothing to repeat"
            | (.repetition, _) :: _ => failAt start "multiple repeat"
            | (.other, e) :: before =>
              let lazy ← accept '?'
              let once ← if lazy then pure false else accept '+'
              let r := Expr.repeated e least most lazy
              items fuel flags first ((.repetition, if once then .atomic r else r) :: before)
        else add .other (literal flags c.toNat)

/-- A group, whose opening parenthesis stood at `opened`, and the items after it. -/
def group : Nat → Flags → Bool → List (Role × Expr) → Nat → Reader Expr
  | 0, _, _, _, _ => failBack 0 "pattern too long"
  | fuel + 1, flags, first, found, opened => do
    let add (e : Expr) : Reader Expr := items fuel flags first ((.other, e) :: found)
    let inner (flags : Flags) : Reader Expr := do
      let e := altOf (← branches fuel flags false)
      closeGroup opened
      return e
    let capturing (name : Option (List Char)) : Reader Expr := do
      let index ← openCapture name
      let e ← inner flags
      closeCapture index e
      add (.capture index e)
    if !(← accept '?') then capturing none
    else
      let some c ← take | failBack 0 "unexpected end of pattern"
      match c with
      | ':' => add (← inner flags)
      | '>' => add (.atomic (← inner flags))
      | '#' =>
        if !(← skipComment ')') then failAt opened "missing ), unterminated comment"
        items fuel flags first found
      | '=' => add (.ahead true (← inner flags))
      | '!' => add (.ahead false (← inner flags))
      | '<' =>
        let some d ← takeUnit | failBack 0 "unexpected end of pattern"
        if d ≠ "=" && d ≠ "!" then failBack (d.length + 2) ("unknown extension ?<" ++ d)
        let outer := (← get).behindFrom
        modify fun s => { s with behindFrom := some (outer.getD s.next) }
        let e ← inner flags
        modify fun s => { s with behindFrom := outer }
        add (.behind (d == "=") (← fixedWidth e) e)
      | 'P' =>
        if ← accept '<' then capturing (some (← takeUntil '>' "group name"))
        else if ← accept '=' then
          let name ← takeUntil ')' "group name"
          let index ← named name
          add (← reference index (name.length + 1) flags.anyCase)
        else
          let some d ← takeUnit | failBack 0 "unexpected end of pattern"
          failBack (d.length + 2) ("unknown extension ?P" ++ d)
      | '(' =>
        let name ← takeUntil ')' "group name"
        let index ←
          if isName name then named name
          else if !name.all Char.isDigit then
            failBack (name.length + 1)
              ("bad character in group name " ++ Text.quoted (String.ofList name))
          else
            let index := valueIn 10 name
            if index = 0 then failBack (name.length + 1) "bad group number"
            let asked := (← place) - name.length - 1
            modify fun s => { s with conditions := s.conditions ++ [(index, asked)] }
            pure index
        checkBehind index
        let yes ← items fuel flags false []
        let no ← if ← accept '|' then items fuel flags false [] else pure .empty
        if (← peek) = some '|' then
          failBack 0 "conditional backref with more than two branches"
        closeGroup opened
        add (.ifCaptured index yes no)
      | c =>
        if c = '-' || isFlagLetter c then
          modify fun s => { s with rest := c :: s.rest, place := s.place - 1 }
          let w ← switches
          let flags' := flags.apply w
          if w.whole then
            let flags' := { flags' with ascii := flags.ascii || flags'.ascii }
            if !first || !found.isEmpty then
              failAt opened "global flags not at the start of the expression"
            modify fun s => { s with flags := flags', unicode := s.unicode || w.on.contains 'u' }
            items fuel flags' first found
          else
            add (← inner flags')
        else
          modify fun s => { s with rest := c :: s.rest, place := s.place - 1 }
          let some d ← takeUnit | failBack 0 "unexpected end of pattern"
          failBack (d.length + 1) ("unknown extension ?" ++ d)

end

/-- Whether the last backslash of a pattern has nothing behind it. -/
def endsOpen (pattern : List Char) : Bool :=
  (pattern.reverse.takeWhile (· = '\\')).length % 2 = 1

/-- The branches of a pattern and whether a look behind in it has no fixed width, or the first fault. -/
def readLoosely (flags : Flags) (pattern : List Char) : Except Fault (List Expr × Bool) :=
  let whole : Reader (List Expr) := do
    let es ← branches (3 * pattern.length + 8) flags true
    let s ← get
    if s.rest.isEmpty && endsOpen pattern then failBack 1 "bad escape (end of pattern)"
    if s.unicode && s.flags.ascii then
      throw ⟨"ASCII and UNICODE flags are incompatible", none, .incompatible⟩
    if !s.rest.isEmpty then failBack 0 "unbalanced parenthesis"
    match s.conditions.find? fun (index, _) => s.next ≤ index with
    | some (index, asked) => failAt asked ("invalid group reference " ++ toString index)
    | none => return es
  (whole.run { rest := pattern, flags }).map fun (es, s) => (es, s.loose)

/-- The branches of a pattern, or its first fault. -/
def readAlternatives (flags : Flags) (pattern : List Char) : Except Fault (List Expr) := do
  let (es, loose) ← readLoosely flags pattern
  if loose then throw { message := "look-behind requires fixed-width pattern", place := none }
  return es

/-- A pattern as one expression, or its first fault. -/
def read (flags : Flags) (pattern : List Char) : Except Fault Expr :=
  (readAlternatives flags pattern).map altOf

/-- The least and the greatest number of characters that a pattern takes, or its first fault. -/
def measure (pattern : List Char) : Except Fault (Nat × Nat) :=
  (readLoosely {} pattern).map fun (es, _) => (altOf es).width

end GrammarBench.Pattern
