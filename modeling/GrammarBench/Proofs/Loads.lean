import GrammarBench.Loading.Load
import GrammarBench.Proofs.Compilation
import GrammarBench.Proofs.ModuleNames

/-!
# Loads

What a directory or a file is loaded as, and what can come of the load of a directory.

* `Task`, `taskOf`: what a load comes to once the configuration has been read and the files have been found.
* `run_loadModule`: a load notes down what it does and carries its task out.
* `outcome_loadDirectory`: the outcomes of loading a directory.
-/

namespace GrammarBench.Loading

open World Compile

/-! ## Configurations -/

/-- The configuration in a file, or why there is none. -/
def configAt (fs : Files) (path : String) : Except Failure Config := do
  let v ← ConfigFile.valueIn fs path
  (Config.ofValue (some path) v).mapError .report

/-- The configuration that a directory is loaded with. -/
def configFor (fs : Files) (directory : String) : Option String → Except Failure Config
  | some path => configAt fs path
  | none =>
    if fs.isFile (Path.join directory Config.fileName) then
      configAt fs (Path.join directory Config.fileName)
    else .ok {}

theorem run_loadConfig (w : World) (path : String) :
    ∃ w', w.run (ConfigFile.load path) = (configAt w.files path, w') ∧ Noted w w' := by
  unfold ConfigFile.load configAt
  rw [run_bind_ok (run_get w), run_bind, run_lift]
  cases ConfigFile.valueIn w.files path with
  | error f => exact ⟨w, rfl, Noted.refl w⟩
  | ok v =>
      dsimp only
      rw [run_bind_ok (run_note w _ _ _), run_bind_ok (run_noteAll _ _), run_lift]
      exact ⟨_, rfl, Noted.log w _⟩

theorem run_configOf (w : World) (directory : String) (config : Option String) :
    ∃ w', w.run (configOf directory config) = (configFor w.files directory config, w') ∧ Noted w w' := by
  cases config with
  | some path => exact run_loadConfig w path
  | none =>
      unfold configOf configFor ConfigFile.ofDirectory
      rw [run_bind_ok (run_get w)]
      split
      · exact run_loadConfig w _
      · exact ⟨_, rfl, Noted.log w _⟩

theorem run_findFiles (w : World) (directory : String) (patterns : List String) :
    ∃ w', w.run (findFiles directory patterns) = (Finder.find w.files directory patterns, w') ∧ Noted w w' := by
  unfold findFiles
  rw [run_bind_ok (run_get w), run_bind, run_lift]
  cases Finder.find w.files directory patterns with
  | error f => exact ⟨w, rfl, Noted.refl w⟩
  | ok found =>
      dsimp only
      rw [run_bind_ok (run_note w _ _ _)]
      exact ⟨_, rfl, Noted.log w _⟩

/-! ## Tasks -/

/-- What a load comes to. -/
inductive Task where
  /-- It fails before anything is compiled. -/
  | refused (f : Failure)
  | compile (files references : List String) (options : List (String × Value))
  /-- The body in a file of its own is run. -/
  | runFile

namespace Task

def references : Task → List String
  | compile _ references _ => references
  | _ => []

def carryOut (source : String) : Task → Act ModuleId
  | refused f => throw f
  | compile files references options => compileModule files references (some (moduleName source)) options
  | runFile => loadSourceFile source

end Task

/-- What the load of a directory or of a file comes to. -/
def taskOf (fs : Files) (source : String) (config : Option String) : Task :=
  if fs.isDirectory source then
    match configFor fs source config with
    | .error f => .refused f
    | .ok c =>
      match Finder.find fs source c.patterns with
      | .error f => .refused f
      | .ok files => .compile files c.references c.options
  else if source.endsWith grammarSuffix then .compile [source] [] []
  else if source.endsWith Import.sourceSuffix || source.endsWith Import.compiledSuffix then .runFile
  else if source.endsWith extensionSuffix then .refused (extensionFailure fs source)
  else .refused (notFound (source ++ " is not a loadable module file"))

theorem run_loadDirectory (w : World) (directory : String) (config : Option String)
    (hdirectory : w.files.isDirectory directory = true) :
    ∃ w', Noted w w' ∧ w.run (loadDirectory directory config) =
      w'.run ((taskOf w.files directory config).carryOut directory) := by
  obtain ⟨w', hrun, hnoted⟩ := run_configOf w directory config
  unfold loadDirectory taskOf
  rw [if_pos hdirectory, run_bind, hrun]
  cases configFor w.files directory config with
  | error f => exact ⟨w', hnoted, rfl⟩
  | ok c =>
      obtain ⟨w'', hfound, hnoted'⟩ := run_findFiles w' directory c.patterns
      refine ⟨w'', hnoted.trans hnoted', ?_⟩
      dsimp only
      rw [run_bind, hfound, hnoted.files]
      cases Finder.find w.files directory c.patterns <;> rfl

/-- A load of a directory or of a file notes down what it does and carries its task out. -/
theorem run_loadModule (w : World) (source : String) (config : Option String)
    (hsource : w.files.isDirectory source = true ∨ w.files.isFile source = true) :
    ∃ w', Noted w w' ∧ w.run (loadModule source config) =
      w'.run ((taskOf w.files source config).carryOut source) := by
  unfold loadModule
  rw [run_bind_ok (run_get w)]
  dsimp only
  by_cases hdirectory : w.files.isDirectory source = true
  · rw [if_pos hdirectory, run_bind_ok (run_note w _ _ _)]
    obtain ⟨w', hnoted, hrun⟩ := run_loadDirectory
      { w with log := ⟨.debug, "grunpy.loader", "Compiling grammar module from directory " ++ source⟩ :: w.log }
      source config hdirectory
    exact ⟨w', (Noted.log w _).trans hnoted, hrun⟩
  · have hfile : w.files.isFile source = true := hsource.resolve_left hdirectory
    rw [if_neg hdirectory, if_pos hfile, run_bind_ok (run_note w _ _ _)]
    refine ⟨{ w with
      log := ⟨.debug, "grunpy.loader", "Loading grammar module from file " ++ source⟩ :: w.log },
      Noted.log w _, ?_⟩
    unfold taskOf loadFile
    rw [if_neg hdirectory]
    split
    · rfl
    · split
      · rfl
      · split <;> rfl

/-! ## Loads of directories -/

/-- A compilation ends with a module or with a report that lists something, unless a file or a reference
fails with what is no diagnostic; the first such failure goes through. -/
theorem outcome_compileModule (w : World) (files references : List String) (name : Option String)
    (options : List (String × Value)) :
    let found := lookUps (behindFiles w (nameOrDefault name) options files) references
    let outcome := (w.run (compileModule files references name options)).1
    match (fileFailure? w.files options files).or (referenceFailure? found.1) with
    | some f => outcome = .error f
    | none => (∃ id, outcome = .ok id) ∨
        ∃ lines, lines ≠ [] ∧ outcome = .error (.report (.compilation lines)) := by
  intro found outcome
  have hprepare := run_prepare w files references (nameOrDefault name) options
  dsimp only at hprepare
  cases hfile : fileFailure? w.files options files with
  | some f =>
      rw [hfile] at hprepare
      exact congrArg Prod.fst (run_bind_error hprepare _)
  | none =>
      rw [hfile] at hprepare
      rw [Option.none_or]
      dsimp only at hprepare
      cases hreference : referenceFailure? found.1 with
      | some f =>
          rw [hreference] at hprepare
          exact congrArg Prod.fst (run_bind_error hprepare _)
      | none =>
          rw [hreference] at hprepare
          dsimp only at hprepare ⊢
          by_cases hdefects : defects w.files options files found.1 = []
          · rw [if_pos hdefects] at hprepare
            obtain ⟨d, hrun, -⟩ := hprepare
            have hbuilt : outcome = (found.2.run (build d)).1 := congrArg Prod.fst (run_bind_ok hrun _)
            rw [run_build] at hbuilt
            rcases hran : runAll found.2.modules.size (entered found.2 d) d.bodies with ⟨_ | ⟨path, f⟩, w'⟩ <;>
              rw [hran] at hbuilt
            · exact Or.inl ⟨_, hbuilt⟩
            · exact Or.inr ⟨_, List.cons_ne_nil _ _, hbuilt⟩
          · rw [if_neg hdefects] at hprepare
            exact Or.inr ⟨_, hdefects, congrArg Prod.fst (run_bind_error hprepare _)⟩

/-! ### Texts of configurations -/

mutual

/-- The texts in a value, keys included. -/
def textsIn : Value → List String
  | .text s => [s]
  | .list items => textsInAll items
  | .dict entries => textsInEntries entries
  | _ => []

def textsInAll : List Value → List String
  | [] => []
  | v :: vs => textsIn v ++ textsInAll vs

def textsInEntries : List (String × Value) → List String
  | [] => []
  | (key, v) :: rest => key :: textsIn v ++ textsInEntries rest

end

/-- What stands in a text for half of a surrogate pair. -/
def halfPair : Char := '\ufffd'

/-- The configuration that a directory is loaded with is accepted, and none of its texts has half of a surrogate pair. -/
structure Configured (fs : Files) (directory : String) (config : Option String) (c : Config) : Prop where
  accepted : configFor fs directory config = .ok c
  whole : ∀ text ∈ c.patterns ++ c.references ++ textsInEntries c.options, halfPair ∉ text.toList

/-- A directory with a file whose only byte is no text. -/
def undecodable : World := { files := (Files.empty ["w"]).put "g/a.py" (.bytes [255]) }

end GrammarBench.Loading
