import GrammarBench.Text.Quoted
import GrammarBench.Text.Utf8
import GrammarBench.Value.Shown

/-!
# Failures

What can go wrong. A `Report` is a failure that the bench itself explains to its user, with a message and
further details; every other `Failure` is raised by a grammar, by a module body or by the file system and
passes through unchanged. What ends the interpreter is no failure and left out.

* `Report.compilation`, `Report.ambiguous`, `Report.noSuchRule`: the reports whose texts are composed.
* `Failure.name`, `Failure.message`: the kind of a failure and its text.
-/

namespace GrammarBench

/-! ## Reports -/

inductive ReportKind where
  | general
  | config
  | compilation
  | moduleNotFound
  | noLexer
  | noParser
  | ambiguous
  | noSuchRule
  | inputFile
  | invocation
  deriving DecidableEq, Repr

structure RuleChoice where
  wanted : String
  available : List String
  deriving DecidableEq, Repr

structure Report where
  kind : ReportKind
  message : String
  details : List String := []
  choice : Option RuleChoice := none
  deriving DecidableEq, Repr

def ReportKind.name : ReportKind → String
  | general => "HarnessError"
  | config => "ConfigError"
  | compilation => "CompilationError"
  | moduleNotFound => "GrammarModuleNotFoundError"
  | noLexer => "NoLexerFoundError"
  | noParser => "NoParserFoundError"
  | ambiguous => "AmbiguousGrammarError"
  | noSuchRule => "NoSuchRuleError"
  | inputFile => "InputFileError"
  | invocation => "RuleInvocationError"

namespace Report

/-- A compilation that failed; the details are its diagnostics. -/
def compilation (diagnostics : List String)
    (message : String := "Compilation of the grammar module failed") : Report :=
  { kind := .compilation
    message := message ++ " with " ++ toString diagnostics.length ++ " diagnostic(s)"
    details := diagnostics }

/-- Several classes that could each play a role. -/
def ambiguous (role : String) (candidates : List String) : Report :=
  { kind := .ambiguous
    message := "More than one " ++ role ++ " found: " ++ ", ".intercalate candidates ++
      ". Pass a grammar name to choose one"
    details := candidates }

/-- Texts in the order of their code points. -/
def sorted (texts : List String) : List String := texts.mergeSort fun a b => decide (a ≤ b)

/-- A rule that is not there; the rules there are stand in the order of their code points. -/
def noSuchRule (wanted : String) (available : List String) : Report :=
  let available := sorted available
  { kind := .noSuchRule
    message := "No rule '" ++ wanted ++ "'. Choose from: " ++ literalTexts available
    details := available
    choice := some ⟨wanted, available⟩ }

end Report

/-! ## Failures of all kinds -/

inductive FaultKind where
  | grammarRuntime
  | runtime
  | value
  | key
  | type
  | importing
  | os
  | fileNotFound
  | isDirectory
  | notDirectory
  | permission
  | nameLookup
  | member
  | notImplemented
  | assertion
  | index
  | overflow
  | grammar
  /-- A terminal that cannot be used for lexing. -/
  | lex
  | configuration
  /-- A part of a grammar that cannot be worked on. -/
  | visit
  | pattern
  deriving DecidableEq, Repr

def FaultKind.name : FaultKind → String
  | grammarRuntime => "GrammarRuntimeError"
  | runtime => "RuntimeError"
  | value => "ValueError"
  | key => "KeyError"
  | type => "TypeError"
  | importing => "ImportError"
  | os => "OSError"
  | fileNotFound => "FileNotFoundError"
  | isDirectory => "IsADirectoryError"
  | notDirectory => "NotADirectoryError"
  | permission => "PermissionError"
  | nameLookup => "NameError"
  | member => "AttributeError"
  | notImplemented => "NotImplementedError"
  | assertion => "AssertionError"
  | index => "IndexError"
  | overflow => "OverflowError"
  | grammar => "GrammarError"
  | lex => "LexError"
  | configuration => "ConfigurationError"
  | visit => "VisitError"
  | pattern => "error"

/-- A place in a text that was lexed or parsed: line and column count from one. -/
structure Place where
  line : Option Int
  column : Option Int
  offset : Option Int
  deriving DecidableEq, Repr

/-- A source text that is not well formed, with the file, line and column if they are known. -/
structure SourceFault where
  path : Option String := none
  line : Option Nat := none
  column : Option Int := none
  message : String
  deriving DecidableEq, Repr

inductive Failure where
  | report (report : Report)
  | fault (kind : FaultKind) (message : String)
  /-- A module that does not exist, with its full name if that is known. -/
  | missingModule (name : Option String) (message : String)
  | badSource (fault : SourceFault)
  | undecodable (fault : Text.Utf8.Fault)
  /-- A place at which no terminal matches. -/
  | unlexable (place : Place) (message : String)
  /-- A token that the grammar does not allow where it stands. -/
  | unexpectedToken (place : Place) (message : String)
  deriving DecidableEq, Repr

namespace Failure

def name : Failure → String
  | report r => r.kind.name
  | fault kind _ => kind.name
  | missingModule _ _ => "ModuleNotFoundError"
  | badSource _ => "SyntaxError"
  | undecodable _ => "UnicodeDecodeError"
  | unlexable _ _ => "UnexpectedCharacters"
  | unexpectedToken _ _ => "UnexpectedToken"

def fileName (path : String) : String :=
  String.ofList (path.toList.reverse.takeWhile (· ≠ '/')).reverse

/-- The text of a failure. A missing key is shown as a literal; a source fault names its file and line. -/
def message : Failure → String
  | report r => r.message
  | fault .key m => Text.quoted m
  | fault _ m => m
  | missingModule _ m => m
  | badSource f =>
    match f.path, f.line with
    | some p, some l => f.message ++ " (" ++ fileName p ++ ", line " ++ toString l ++ ")"
    | _, _ => f.message
  | undecodable f => f.message
  | unlexable _ m => m
  | unexpectedToken _ m => m

/-- The lines in which a failure explains itself further. -/
def details : Failure → List String
  | report r => r.details
  | _ => []

def isImport : Failure → Bool
  | report r => r.kind = .moduleNotFound
  | fault .importing _ => true
  | missingModule _ _ => true
  | _ => false

/-- What a failure of finding a module tells about it: its name, or that it is not known. A report that a module was
not found does not name it. -/
def missing? : Failure → Option (Option String)
  | report r => if r.kind = .moduleNotFound then some none else none
  | missingModule name _ => some name
  | _ => none

def isFile : Failure → Bool
  | fault .os _ | fault .fileNotFound _ | fault .isDirectory _ | fault .notDirectory _ | fault .permission _ => true
  | _ => false

/-- The failure of opening a path that no file can have. -/
def nullInPath : Failure := fault .value "embedded null byte"

/-- The failures with which a grammar text is refused, and the place they give. -/
def grammarPlace? : Failure → Option Place
  | fault .grammar _ | fault .lex _ | fault .configuration _ | fault .visit _ => some ⟨none, none, none⟩
  | unlexable place _ | unexpectedToken place _ => some place
  | _ => none

/-- The kind and the text of a failure, as a diagnostic shows them. -/
def described (f : Failure) : String := f.name ++ ": " ++ f.message

end Failure

end GrammarBench
