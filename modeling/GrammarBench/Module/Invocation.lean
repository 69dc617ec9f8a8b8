import GrammarBench.Log
import GrammarBench.Module.Lexing

/-!
# Invocation of rules

A rule is looked up, its shape is checked, and only then it is called: as a function of a module body, or
as a rule of the grammar that the class was built from.

* `Entry.check`: whether what stands under the name of a rule can be called as one.
* `Parser.call`: what comes of calling it.
* `Parser.attempt`: the whole of it, for any way of calling.
* `Parser.invoke`: the invocation of a rule.
-/

namespace GrammarBench

/-- The tokens of a channel, as a parser gets them. -/
abbrev Channels := Int → Except Failure (List Token)

/-- An instance of a class, on which rules are called. -/
structure Parser where
  type : Class
  /-- The tokens it reads; instances of classes that are no parsers have none. -/
  channels : Option Channels := none
  /-- Whether it has been told to build trees. -/
  building : Bool := false

/-- What comes of an invocation: the tree, whether the parser has been told to build trees, and the lines
noted down. -/
structure Invocation where
  result : Except Failure Tree
  building : Bool := false
  log : List LogLine := []

def refuseInvocation (message : String) : Failure :=
  .report { kind := .invocation, message := message }

/-- Checks that a function can be called with a parser and says that it returns something. -/
def Signature.check (rule : String) (s : Signature) : Except Failure Unit :=
  if !binds 1 s.params then
    .error (refuseInvocation ("Rule '" ++ rule ++ s.shown ++ "' cannot be called without arguments"))
  else if s.returnsNothing then
    .error (refuseInvocation ("Rule '" ++ rule ++ "' is declared to return nothing"))
  else .ok ()

namespace Entry

/-- The signature of what stands under the name of a rule, if it can be called and tells one. The function
for a rule of a grammar takes nothing but the parser. -/
def signature? : Entry → Option Signature
  | .function f _ => some f.signature
  | .grammarRule _ => some {}
  | .builtin _ | .value _ => none

/-- Why what does not tell a signature is refused. -/
def obscurity (rule : String) : Entry → String
  | .builtin name => "Cannot inspect the signature of rule '" ++ rule ++
    "': no signature found for builtin type <class '" ++ name ++ "'>"
  | _ => "Rule '" ++ rule ++ "' is not callable"

/-- Checks that what stands under the name of a rule can be called with a parser and says that it returns
something. -/
def check (rule : String) (e : Entry) : Except Failure Unit :=
  match e.signature? with
  | none => .error (refuseInvocation (e.obscurity rule))
  | some s => s.check rule

end Entry

/-- The node that a function makes out of the tokens of a channel. -/
def RuleBody.listing (label : String) (whole : Bool) (required : Option (List Int))
    (tokens : List Token) : Except Failure Tree :=
  match required with
  | some kinds =>
    if tokens.map (·.kind) = kinds then .ok (node tokens)
    else .error (.fault .grammarRuntime "unexpected tokens")
  | none => .ok (node tokens)
where
  node (tokens : List Token) : Tree :=
    .node label <|
      if whole then tokens.map .token
      else (tokens.filter (!·.isEof)).map fun t =>
        match t.text with
        | some s => .text s
        | none => .leaf .null

namespace Parser

/-- An instance of a parser class that reads a stream. -/
def ofStream (type : Class) (s : Stream) : Parser :=
  { type := type, channels := some fun n => (s.onChannel n).1 }

def tokens (p : Parser) (channel : Int) : Except Failure (List Token) :=
  match p.channels with
  | some channels => channels channel
  | none =>
    .error (.fault .member ("'" ++ p.type.name ++ "' object has no attribute 'token_stream'"))

/-- Calls a rule of the grammar of the class: the tokens of the default channel are fed, and the reading is
closed. -/
def callGrammar (p : Parser) (rule : String) : Except Failure Tree × List LogLine :=
  let fed : Except Failure (Grammar.Language × Symbols × Grammar.Stack × Option Token) := do
    match p.type.language? with
    | none => .error (.fault .member ("'" ++ p.type.name ++ "' object has no attribute 'parse_rule'"))
    | some l =>
      let symbols := Class.symbolsOfValues (← p.type.symbolValues)
      let start ← l.begin rule
      let (s, last) ←
        Grammar.Bridge.feedAll l.reading symbols rule start (← p.tokens Token.defaultChannel)
      return (l, symbols, s, last)
  match fed with
  | .error f => (.error f, [])
  | .ok (l, symbols, s, last) =>
    (Grammar.Bridge.close l.reading symbols rule s last,
      [⟨.debug, "grunpy.lark.parse", "Fed tokens to rule '" ++ rule ++ "', closing the parse"⟩])

/-- Calls what stands under the name of a rule. -/
def call (p : Parser) : Entry → Except Failure Tree × List LogLine
  | .grammarRule name => p.callGrammar name
  | .function f _ =>
    match f.body with
    | .give t => (.ok t, [])
    | .fail f => (.error f, [])
    | .showFlag label => (.ok (.node label [.text (if p.building then "True" else "False")]), [])
    | .listTokens label channel whole required =>
      (p.tokens channel >>= RuleBody.listing label whole required, [])
  | .builtin _ | .value _ => (.ok (.leaf .null), [])

/-- What comes of the attempt to call a rule. -/
structure Attempt (ε : Type) where
  result : Except Failure Tree
  /-- The parser as it is then. -/
  parser : Parser
  /-- What the call has left behind, if there was one. -/
  effect : Option ε

/-- Looks a rule up and checks its shape. -/
def lookUp (p : Parser) (rule : String) : Except Failure Entry := do
  let e ← p.type.rule rule
  e.check rule
  return e

/-- The failure of a rule that returns nothing. -/
def nothingReturned (rule : String) : Failure :=
  refuseInvocation ("Rule '" ++ rule ++ "' returned no parse tree")

/-- Looks a rule up, checks its shape, tells the parser to build trees and calls the rule, which has to
return something. `call` calls what stands under the name. -/
def attempt {ε : Type} (call : Parser → Entry → Except Failure Tree × ε) (p : Parser) (rule : String) :
    Attempt ε :=
  match p.lookUp rule with
  | .error f => { result := .error f, parser := p, effect := none }
  | .ok e =>
    let ready := { p with building := true }
    let (result, effect) := call ready e
    { result := result.bind fun t => if t.isNull then .error (nothingReturned rule) else .ok t
      parser := ready
      effect := some effect }

/-- The line noted down about a rule that is called. -/
def callLine (p : Parser) (rule : String) : LogLine :=
  ⟨.debug, "grunpy.invoker", "Invoking rule '" ++ rule ++ "' on " ++ p.type.name⟩

/-- The invocation of a rule. -/
def invoke (p : Parser) (rule : String) : Invocation :=
  let a := p.attempt call rule
  { result := a.result
    building := a.parser.building
    log := a.effect.elim [] fun log => p.callLine rule :: log }

end Parser

end GrammarBench
