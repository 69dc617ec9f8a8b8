import GrammarBench.Config
import GrammarBench.World

/-!
# Configuration files

* `ConfigFile.load`: the configuration in a file.
* `ConfigFile.ofDirectory`: the configuration of a directory, the default one when it has no file for it.
-/

namespace GrammarBench.Loading.ConfigFile

def refuse (message : String) : Failure := .report { kind := .config, message := message }

/-- The value in a configuration file. -/
def valueIn (fs : Files) (path : String) : Except Failure Value :=
  match fs.opened path with
  | .error .nullCharacter => .error Failure.nullInPath
  | .error (.fault f) =>
    .error (refuse ("Cannot read config file '" ++ path ++ "': " ++ f.reason))
  | .ok c =>
    match Files.textOf c.data with
    | .error f => .error (.undecodable f)
    | .ok text =>
      Value.read text fun m => refuse ("Malformed config file '" ++ path ++ "': " ++ m)

def load (path : String) : Act Config := do
  let v ← World.lift (valueIn (← get).files path)
  World.note .debug "grunpy.config" ("Loaded config from " ++ path)
  World.noteAll (Config.warnings (some path) v)
  World.lift ((Config.ofValue (some path) v).mapError .report)

def ofDirectory (directory : String) : Act Config := do
  let path := Path.join directory Config.fileName
  if (← get).files.isFile path then load path
  else
    World.note .debug "grunpy.config"
      ("No " ++ Config.fileName ++ " in " ++ directory ++ ", using default config")
    return {}

end GrammarBench.Loading.ConfigFile
