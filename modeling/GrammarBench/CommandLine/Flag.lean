import GrammarBench.Failure
import GrammarBench.Text.Lines

/-!
# Truth values on the command line

* `Flag.ofText?`: the truth value that a text spells, in any case and with blanks about it.
* `Flag.ofValue`: the truth value of a value.
-/

namespace GrammarBench.CommandLine.Flag

/-- The form in which a text is compared: trimmed and in lower case. -/
def folded (s : String) : String := Text.toLower (String.ofList (Text.trim s.toList))

def ofText? (s : String) : Option Bool :=
  if folded s = "true" then some true
  else if folded s = "false" then some false
  else none

def refusal (shown : String) : Failure :=
  .fault .value ("Invalid value for conversion to boolean: '" ++ shown ++ "'")

/-- A truth value stands for itself and a text for the one it spells; nothing else is one. -/
def ofValue : Value → Except Failure Bool
  | .bool b => .ok b
  | .text s =>
    match ofText? s with
    | some b => .ok b
    | none => .error (refusal (folded s))
  | v => .error (refusal v.shown)

end GrammarBench.CommandLine.Flag
