import GrammarBench.CommandLine.Arguments
import GrammarBench.CommandLine.Command
import GrammarBench.CommandLine.Flag
import GrammarBench.CommandLine.Option
import GrammarBench.Config
import GrammarBench.Failure
import GrammarBench.Files
import GrammarBench.Grammar.Automaton
import GrammarBench.Grammar.Book
import GrammarBench.Grammar.Bridge
import GrammarBench.Grammar.Compile
import GrammarBench.Grammar.Expansion
import GrammarBench.Grammar.Language
import GrammarBench.Grammar.Library
import GrammarBench.Grammar.Literal
import GrammarBench.Grammar.Machine
import GrammarBench.Grammar.Options
import GrammarBench.Grammar.Phrase
import GrammarBench.Grammar.RuleNames
import GrammarBench.Grammar.Scanner
import GrammarBench.Grammar.Shape
import GrammarBench.Grammar.Source
import GrammarBench.Grammar.Statement
import GrammarBench.Grammar.Symbol
import GrammarBench.Grammar.Terminal
import GrammarBench.Loading.Compile
import GrammarBench.Loading.ConfigFile
import GrammarBench.Loading.Finder
import GrammarBench.Loading.Import
import GrammarBench.Loading.Installed
import GrammarBench.Loading.Load
import GrammarBench.Loading.Naming
import GrammarBench.Log
import GrammarBench.Main
import GrammarBench.Module.Choice
import GrammarBench.Module.Class
import GrammarBench.Module.FromGrammar
import GrammarBench.Module.Invocation
import GrammarBench.Module.Lexing
import GrammarBench.Module.Member
import GrammarBench.Module.RuleTable
import GrammarBench.Module.Signature
import GrammarBench.Module.Statement
import GrammarBench.Path
import GrammarBench.Pattern.Expr
import GrammarBench.Pattern.Match
import GrammarBench.Pattern.Reader
import GrammarBench.Run
import GrammarBench.Text.CaseTable
import GrammarBench.Text.CharTable
import GrammarBench.Text.Escape
import GrammarBench.Text.Letter
import GrammarBench.Text.Lines
import GrammarBench.Text.Quoted
import GrammarBench.Text.Utf8
import GrammarBench.Token.Basic
import GrammarBench.Token.Line
import GrammarBench.Token.Stream
import GrammarBench.Tree.Basic
import GrammarBench.Tree.Drawing
import GrammarBench.Tree.Showing
import GrammarBench.Value.Basic
import GrammarBench.Value.Decimal
import GrammarBench.Value.Reader
import GrammarBench.Value.Shown
import GrammarBench.World
import GrammarBench.Proofs.Stream
import GrammarBench.Proofs.Matching
import GrammarBench.Proofs.Outcome
import GrammarBench.Proofs.Scanning
import GrammarBench.Proofs.Classes
import GrammarBench.Proofs.GrammarClasses
import GrammarBench.Proofs.Tokenization
import GrammarBench.Proofs.Feeding
import GrammarBench.Proofs.ClassOrder
import GrammarBench.Proofs.Inheritance
import GrammarBench.Proofs.Importing
import GrammarBench.Proofs.Defects
import GrammarBench.Proofs.Compilation
import GrammarBench.Proofs.Loads
import GrammarBench.Proofs.Registry
import GrammarBench.Proofs.Phases
import GrammarBench.Proofs.Resolution
import GrammarBench.Proofs.GrammarModules
import GrammarBench.Proofs.Ignoring
import GrammarBench.Proofs.SourceForms
import GrammarBench.Proofs.TokenLines
import GrammarBench.Proofs.TreeLines
import GrammarBench.Proofs.CommandOutcome
import GrammarBench.Proofs.TwoWays
import GrammarBench.Proofs.DefinitionLines
import GrammarBench.Proofs.OpenRules
import GrammarBench.Proofs.RuleNames
import GrammarBench.Proofs.RuleSearch
import GrammarBench.Proofs.InputEnd
import GrammarBench.Proofs.SearchPath
import GrammarBench.Proofs.RuleChain
import GrammarBench.Proofs.Invocation
import GrammarBench.Proofs.TreeDrawings
import GrammarBench.Proofs.Showings
import GrammarBench.Proofs.GrammarTrees
import GrammarBench.Proofs.TreeDumps
import GrammarBench.Proofs.Escapes
import GrammarBench.Proofs.AcceptedInputs
import GrammarBench.Proofs.QuotedTexts
import GrammarBench.Proofs.Numerals
import GrammarBench.Proofs.ValueTexts
import GrammarBench.Proofs.ValueReading
import GrammarBench.Proofs.LineEnds
import GrammarBench.Proofs.Utf8Texts
import GrammarBench.Proofs.ConfigFiles
import GrammarBench.Proofs.Pieces
import GrammarBench.Proofs.NamedLoads
import GrammarBench.Proofs.Paths
import GrammarBench.Proofs.Places
import GrammarBench.Proofs.BarredPatterns
import GrammarBench.Proofs.FoundFiles
import GrammarBench.Proofs.SameContents
import GrammarBench.Proofs.InputFiles
