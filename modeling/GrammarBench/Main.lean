import GrammarBench.CommandLine.Command

/-!
# The program

Reads the files that a run looks at, runs the command on them and prints what it says.

* `readTree`: the files at a path and below.
* `main`: the program.
-/

namespace GrammarBench

/-- Adds what stands at a path, and all that stands below it. -/
partial def readTree (fs : Files) (path : String) : IO Files := do
  let place ← IO.FS.realPath path
  if ← place.isDir then
    let mut fs := fs.put path .directory
    for entry in ← place.readDir do
      fs ← readTree fs (Path.join path entry.fileName)
    return fs
  else if ← place.pathExists then
    return fs.put path (.bytes (← IO.FS.readBinFile path).toList)
  else return fs

/-- The working directory with the files that a run with some settings looks at. -/
def readFiles (s : CommandLine.Settings) : IO Files := do
  let working := (← IO.currentDir).toString
  let mut fs := Files.empty ((Path.parts working).filter (· ≠ ""))
  for path in CommandLine.Command.paths s do fs ← readTree fs path
  for path in CommandLine.Command.references s fs do fs ← readTree fs path
  return fs

end GrammarBench

open GrammarBench in
/-- Runs the command; its code is that of the program, and a failure that it does not explain ends the
program with the code one. -/
def main (arguments : List String) : IO UInt32 := do
  let fs ← match CommandLine.Arguments.read arguments with
    | .ok s => readFiles s
    | .error _ => pure (Files.empty [])
  let (r, _) := CommandLine.Command.run arguments { files := fs }
  IO.print r.output
  IO.eprint r.errors
  match r.ending with
  | .code n | .leave n => return UInt32.ofNat n
  | .failure f =>
    IO.eprintln f.described
    return 1
