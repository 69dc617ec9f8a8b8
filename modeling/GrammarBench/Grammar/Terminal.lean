import GrammarBench.Pattern.Reader
import GrammarBench.Pattern.Match
import GrammarBench.Failure

/-!
# Terminals

A terminal is a name for a pattern: a literal text or a regular expression, with flags.

* `TerminalPattern.regexp`: the pattern as a regular expression.
* `TerminalPattern.width`: the least and the greatest number of characters that it takes.
* `mayHoldNewline`: whether a regular expression looks as if it could match a newline.
-/

namespace GrammarBench.Grammar

structure TerminalPattern where
  isLiteral : Bool
  value : String
  /-- The flag letters, each once. -/
  flags : List Char := []
  /-- The pattern as the grammar text writes it. -/
  source : Option String := none
  deriving DecidableEq, Repr, Inhabited

structure Terminal where
  name : String
  pattern : TerminalPattern
  priority : Int := 0
  deriving DecidableEq, Repr, Inhabited

/-- The characters that a regular expression writes with a backslash to mean themselves. -/
def isSpecial (c : Char) : Bool :=
  "()[]\x7b\x7d?*+-|^$\\.&~# \t\n\r\x0b\x0c".toList.contains c

def quotedPattern (s : String) : String :=
  String.ofList (s.toList.flatMap fun c => if isSpecial c then ['\\', c] else [c])

def isInside (part : List Char) : List Char → Bool
  | [] => part.isEmpty
  | c :: r => part.isPrefixOf (c :: r) || isInside part r

/-- The texts in a regular expression that suggest that it matches newlines. -/
def mayHoldNewline (regexp : String) : Bool :=
  let s := regexp.toList
  let holds (part : String) := isInside part.toList s
  holds "\n" || holds "\\n" || holds "\\s" || holds "[^" || (holds "(?s" && holds ".")

/-- A class of characters by its Unicode category, which patterns cannot use. -/
def namesCategory : List Char → Bool
  | [] => false
  | '\\' :: 'p' :: '\x7b' :: r =>
    let name := r.takeWhile fun c => c.isAlpha || c = '_'
    (!name.isEmpty && (r.drop name.length).head? = some '\x7d') || namesCategory r
  | _ :: r => namesCategory r

namespace TerminalPattern

/-- Two patterns that match the same by their text and flags. -/
def same (p q : TerminalPattern) : Bool :=
  p.isLiteral = q.isLiteral && p.value = q.value && p.flags = q.flags

/-- The pattern as a regular expression: each flag holds for the whole of it. -/
def regexp (p : TerminalPattern) : String :=
  p.flags.foldl (fun s f => "(?" ++ f.toString ++ ":" ++ s ++ ")")
    (if p.isLiteral then quotedPattern p.value else p.value)

def shown (p : TerminalPattern) : String := Text.quoted p.regexp

/-- The failure about a fault in a pattern, where malformed patterns are refused in words of their own. -/
def failureOf (f : Pattern.Fault) (malformed : Failure) : Failure :=
  match f.kind with
  | .malformed => malformed
  | .tooLarge => .fault .overflow f.message
  | .incompatible => .fault .value f.message

/-- The least and the greatest width of a regular expression. -/
def widthOf (regexp : String) : Except Failure (Nat × Nat) :=
  if namesCategory regexp.toList then
    .error (.fault .importing ("(" ++
      Text.quoted "`regex` module must be installed in order to use Unicode categories." ++ ", " ++
      Text.quoted regexp ++ ")"))
  else
    match Pattern.measure regexp.toList with
    | .ok width => .ok width
    | .error f => .error (failureOf f (.fault .value regexp))

/-- The least and the greatest number of characters that a pattern takes. -/
def width (p : TerminalPattern) : Except Failure (Nat × Nat) :=
  if p.isLiteral then .ok (p.value.length, p.value.length) else widthOf p.regexp

end TerminalPattern

/-- A terminal as messages show it: a generated one by its source. -/
def Terminal.shown (t : Terminal) : String :=
  if t.name.startsWith "__" then
    match t.pattern.source with
    | some s => if s = "" then t.name else s
    | none => t.name
  else t.name

end GrammarBench.Grammar
