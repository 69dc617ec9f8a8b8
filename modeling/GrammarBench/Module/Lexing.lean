import GrammarBench.Grammar.Bridge
import GrammarBench.Module.RuleTable

/-!
# Lexing

How the classes of a grammar module make tokens out of a text.

* `Scan.emission`: the tokens of the plain scanner: words, numbers and blanks.
* `Class.symbols`: the names of the token types of a class.
* `Class.emission`: the tokens of a lexer class.
-/

namespace GrammarBench

namespace Scan

def startsWord (c : Char) : Bool := c.isAlpha || c = '_'

def continuesWord (c : Char) : Bool := c.isAlphanum || c = '_'

def isBlank (c : Char) : Bool := c = ' ' || c = '\t' || c = '\r' || c = '\n'

/-- The longest piece of some kind at the front of a text, `none` when it is empty. -/
def piece? (first rest : Char → Bool) : List Char → Option (List Char)
  | [] => none
  | c :: r => if first c then some (c :: r.takeWhile rest) else none

/-- The type, the channel and the text of the token at the front of a text. -/
def front? (types : ScanTypes) (s : List Char) : Option (Int × Int × List Char) :=
  let try_ (type : Option Int) (channel : Int) (first rest : Char → Bool) :=
    type.bind fun t => (piece? first rest s).map fun p => (t, channel, p)
  (try_ types.word Token.defaultChannel startsWord continuesWord).or
    ((try_ types.number Token.defaultChannel Char.isDigit Char.isDigit).or
      (try_ types.blank Token.hiddenChannel isBlank isBlank))

/-- The tokens of a text from an offset on; every token has at least one character, so that the length of
the text bounds the rounds. -/
def tokens (types : ScanTypes) : Nat → Nat → Int → Int → List Char → Emission
  | 0, _, _, _, _ => []
  | _, _, _, _, [] => []
  | rounds + 1, offset, line, column, c :: r =>
    match front? types (c :: r) with
    | none =>
      [.error (.fault .grammarRuntime ("token recognition error at: '" ++ String.singleton c ++ "'"))]
    | some (type, channel, text) =>
      let n := Text.newlines text
      .ok { kind := type, text := some (String.ofList text), start := offset
            stop := (offset + text.length : Nat) - 1, line := line, column := column
            channel := channel } ::
        tokens types rounds (offset + text.length) (line + n)
          (if n = 0 then column + text.length else (Text.afterLastNewline text).length)
          ((c :: r).drop text.length)

def emission (types : ScanTypes) (text : String) : Emission :=
  tokens types text.length 0 1 0 text.toList

end Scan

namespace Class

/-! ## Lexer classes -/

def symbolsName : String := "symbolic_names"

def hiddenName : String := "hidden"

def tokenizeName : String := "tokenize"

/-- The names of token types that a member lists; an absent or null one lists none. -/
def symbolsOf : Option Member → Except Failure (List Value)
  | none | some (.value .null) => .ok []
  | some (.value v) =>
    match RuleTable.pieces? v with
    | some items => .ok items
    | none => RuleTable.notIterable v.typeName
  | some (.table entries) => .ok (entries.map fun e => .text e.1)
  | some m => RuleTable.notIterable m.typeName

/-- The names of the token types of a class, as they are listed. -/
def symbolValues (c : Class) : Except Failure (List Value) := symbolsOf (c.member? symbolsName)

/-- Names as tokens are written with them. -/
def symbolsOfValues (values : List Value) : Symbols :=
  values.map fun v => if v.isNull then none else some v.shown

/-- The names of the terminals that a class hides. -/
def hiddenNames (c : Class) : List String :=
  match c.member? hiddenName with
  | some (.value v) => ((RuleTable.pieces? v).getD []).filterMap Value.text?
  | _ => []

/-- Checks that an instance of a class can be made for one argument, a text or a stream. -/
def checkTakesOne (c : Class) : Except Failure Unit :=
  if c.isLexer || c.isParser then c.checkComplete else refuse (c.name ++ "() takes no arguments")

/-- Checks that an instance of a class can be made without arguments. -/
def checkTakesNone (c : Class) : Except Failure Unit := do
  c.checkComplete
  if c.isLexer then
    refuse "Lexer.__init__() missing 1 required positional argument: 'text'"
  if c.isParser then
    refuse "Parser.__init__() missing 1 required positional argument: 'token_stream'"

/-- The tokens that the grammar of a class makes. -/
def grammarEmission (c : Class) (text : String) : Emission :=
  match c.language?, c.member? symbolsName with
  | some _, some (.value .null) => [RuleTable.notIterable "NoneType"]
  | some l, m =>
    match symbolsOf m with
    | .ok values => Grammar.Bridge.emissionWith l (symbolsOfValues values) c.hiddenNames text
    | .error f => [.error f]
  | none, _ => [.error (.fault .member "'NoneType' object has no attribute 'lex'")]

def emission (c : Class) (text : String) : Emission :=
  if !c.isLexer then [RuleTable.notIterable c.name]
  else
    match c.member? tokenizeName with
    | some (.lexing (.fixed items)) => items
    | some (.lexing (.scan types)) => Scan.emission types text
    | some (.lexing .grammar) => c.grammarEmission text
    | some (.lexing .inherited) | some .missing | none => [.error (.fault .notImplemented "")]
    | some m => [refuse ("'" ++ m.typeName ++ "' object is not callable")]

end Class

end GrammarBench
