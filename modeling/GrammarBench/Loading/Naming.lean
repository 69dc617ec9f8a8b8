import GrammarBench.Path

/-!
# Names of loaded modules and lines of diagnostics

* `moduleName`: the name under which the module of a path is registered.
* `diagnostic`: a defect with the file and the place it is in, as far as they are known.
-/

namespace GrammarBench.Loading

def moduleMark : String := "grunpy_grammar_"

/-- The name for the module of a path: its stem, with every character that is in no word replaced. -/
def moduleName (path : String) : String :=
  let stem := (Path.stem (Path.normal path)).toList.map fun c => if Text.isWord c then c else '_'
  moduleMark ++ (if stem.isEmpty then "module" else String.ofList stem)

/-- A defect with its place; a column without a line is left out. -/
def diagnostic (path : String) (line column : Option Int) (message : String) : String :=
  path ++
    (match line, column with
      | none, _ => ""
      | some l, none => ":" ++ toString l
      | some l, some c => ":" ++ toString l ++ ":" ++ toString c) ++
    ": " ++ message

end GrammarBench.Loading
