import GrammarBench.Proofs.Defects

/-!
# Compilations

What a compilation comes to. All files are read and all references are looked up first; when anything is
wrong with them it is reported as a whole, and only otherwise is a module made and are the bodies run in it.

* `Compile.defects`: everything that is wrong, in the order in which it is reported.
* `Compile.run_prepare`: all that is done before any body is run.
* `Compile.runAll`: a run of bodies, up to the first one that fails.
* `Compile.run_build`: the rest of a compilation.
* `compileModule_reports`: the whole of it.
-/

namespace GrammarBench.Loading

open World

namespace Compile

/-! ## Before any body is run -/

/-- The world behind the reading of the files. -/
def behindFiles (w : World) (name : String) (options : List (String × Value)) (files : List String) : World :=
  (w.run (readSources name options files)).2

theorem noted_behindFiles (w : World) (name : String) (options : List (String × Value))
    (files : List String) : Noted w (behindFiles w name options files) := by
  have hrun := run_addFiles name options files {} w
  unfold behindFiles readSources
  cases hfailure : fileFailure? w.files options files with
  | some f =>
      rw [hfailure] at hrun
      obtain ⟨w', hrun, hnoted⟩ := hrun
      rw [hrun]
      exact hnoted
  | none =>
      rw [hfailure] at hrun
      obtain ⟨s', w', hrun, hnoted, -⟩ := hrun
      rw [hrun]
      exact hnoted

/-- Everything that is wrong with some files and with what the look-ups of the references found, in the
order in which it is reported. -/
def defects (fs : Files) (options : List (String × Value)) (files : List String)
    (found : List (String × Option Failure)) : List String :=
  files.filterMap (fun path => (verdict fs options path).line?) ++ referenceLines found ++
    (if files.isEmpty then ["no source files matched"] else [])

/-- What the module is made of when nothing is wrong. -/
structure Drafted (fs : Files) (name : String) (options : List (String × Value))
    (files references : List String) (d : Draft) : Prop where
  named : d.name = name
  file : d.file = files.head?
  bodies : d.bodies = files.filterMap fun path => (verdict fs options path).body?.map (path, ·)
  classes : ∃ gs, d.classes = gs.flatMap (fun g => [g.lexer, g.parser]) ∧
    List.Forall₂ (Built fs name options)
      (files.filterMap fun path => (verdict fs options path).grammar?.map (path, ·)) gs
  paths : d.paths = pathsOf fs references

theorem prepare_eq (files references : List String) (name : String) (options : List (String × Value)) :
    prepare files references name options =
      (readSources name options files >>= fun sources =>
        checkReferences references >>= fun found =>
          if sources.diagnostics ++ found.2 ++
              (if files.isEmpty then ["no source files matched"] else []) = [] then
            pure { name := name, file := files.head?, classes := sources.classes
                   bodies := sources.bodies, paths := found.1 }
          else
            throw (.report (.compilation (sources.diagnostics ++ found.2 ++
              (if files.isEmpty then ["no source files matched"] else []))))) := by
  unfold prepare
  congr 1
  funext sources
  congr 1
  funext found
  dsimp only
  by_cases hdefects : sources.diagnostics ++ found.2 ++
      (if files.isEmpty then ["no source files matched"] else []) = []
  · rw [if_pos hdefects, hdefects]
    rfl
  · rw [if_neg hdefects, if_pos (by simpa using hdefects)]
    rfl

/-- The files are read and the references are looked up, and whatever is wrong is reported as a whole. A
failure that is no diagnostic comes first and goes through. -/
theorem run_prepare (w : World) (files references : List String) (name : String)
    (options : List (String × Value)) :
    let behind := behindFiles w name options files
    let found := lookUps behind references
    match fileFailure? w.files options files with
    | some f => w.run (prepare files references name options) = (.error f, behind)
    | none =>
      match referenceFailure? found.1 with
      | some f => w.run (prepare files references name options) = (.error f, found.2)
      | none =>
        if defects w.files options files found.1 = [] then
          ∃ d, w.run (prepare files references name options) = (.ok d, found.2) ∧
            Drafted w.files name options files references d
        else w.run (prepare files references name options) =
          (.error (.report (.compilation (defects w.files options files found.1))), found.2) := by
  have hfiles := run_addFiles name options files {} w
  rw [prepare_eq]
  cases hfailure : fileFailure? w.files options files with
  | some f =>
      rw [hfailure] at hfiles
      obtain ⟨w', hrun, -⟩ := hfiles
      have hbehind : behindFiles w name options files = w' := by
        unfold behindFiles readSources
        rw [hrun]
      rw [hbehind]
      exact run_bind_error hrun _
  | none =>
      rw [hfailure] at hfiles
      obtain ⟨s, w', hrun, hnoted, hreads⟩ := hfiles
      have hbehind : behindFiles w name options files = w' := by
        unfold behindFiles readSources
        rw [hrun]
      have hread : w.run (readSources name options files) = (.ok s, w') := hrun
      have hlines : s.diagnostics = files.filterMap fun path => (verdict w.files options path).line? := by
        simpa using hreads.diagnostics
      have hlooked : w'.run (checkReferences references) = _ := run_addReferences references ([], []) w'
      rw [hbehind, run_bind_ok hread]
      dsimp only
      cases hreference : referenceFailure? (lookUps w' references).1 with
      | some f =>
          rw [hreference] at hlooked
          exact run_bind_error hlooked _
      | none =>
          rw [hreference] at hlooked
          dsimp only
          rw [run_bind_ok hlooked]
          dsimp only [List.nil_append]
          rw [hlines]
          by_cases hdefects : defects w.files options files (lookUps w' references).1 = []
          · rw [if_pos hdefects]
            unfold defects at hdefects
            rw [if_pos hdefects]
            refine ⟨_, rfl, rfl, rfl, ?_, ?_, ?_⟩
            · simpa using hreads.bodies
            · simpa using hreads.classes
            · rw [hnoted.files]
          · rw [if_neg hdefects]
            unfold defects at hdefects
            rw [if_neg hdefects]
            rfl

/-- Whatever comes of it, only imports have been made behind the reading of the files. -/
theorem imported_prepare (w : World) (files references : List String) (name : String)
    (options : List (String × Value)) :
    Imported (behindFiles w name options files) (w.run (prepare files references name options)).2 := by
  have hrun := run_prepare w files references name options
  have himported := imported_lookUps (behindFiles w name options files) references
  dsimp only at hrun
  split at hrun
  · rw [hrun]
    exact Imported.refl _
  · split at hrun
    · rw [hrun]
      exact himported
    · split at hrun
      · obtain ⟨d, hrun, -⟩ := hrun
        rw [hrun]
        exact himported
      · rw [hrun]
        exact himported

/-! ## The bodies -/

/-- The bodies are run in a module one after the other, up to the first one that fails: its file and its
failure, if there is one, and the world behind. -/
def runAll (id : ModuleId) : World → List (String × List Statement) → Option (String × Failure) × World
  | w, [] => (none, w)
  | w, (path, statements) :: rest =>
    match w.run (Loading.run id statements) with
    | (.ok _, w') => runAll id w' rest
    | (.error f, w') => (some (path, f), w')

theorem imported_runAll (id : ModuleId) (w : World) (bodies : List (String × List Statement)) :
    Imported w (runAll id w bodies).2 := by
  induction bodies generalizing w with
  | nil => exact Imported.refl w
  | cons body rest ih =>
      have himported := imported_run id body.2 w
      unfold runAll
      rcases hrun : w.run (Loading.run id body.2) with ⟨f | u, w'⟩ <;> rw [hrun] at himported
      · exact himported
      · exact himported.trans (ih w')

/-- How the failure of a body is reported. -/
def bodyFailure (path : String) (f : Failure) : Failure :=
  .report (.compilation [diagnostic path none none f.described])

theorem run_runBodies (name : String) (id : ModuleId) (bodies : List (String × List Statement)) (w : World) :
    w.run (bodies.forM fun (path, statements) => runBody name id path statements) =
      match runAll id w bodies with
      | (none, w') => (.ok ⟨⟩, w')
      | (some (path, f), w') =>
        (.error (bodyFailure path f), { w' with registry := Ordered.erase name w'.registry }) := by
  induction bodies generalizing w with
  | nil => rfl
  | cons body rest ih =>
      show w.run (runBody name id body.1 body.2 >>= fun _ =>
        rest.forM fun (path, statements) => runBody name id path statements) = _
      rw [run_bind]
      unfold runBody runAll
      rw [run_tryCatch]
      rcases w.run (Loading.run id body.2) with ⟨f | u, w'⟩
      · rfl
      · exact ih w'

/-- The world in which the bodies of a draft start: the module is there under its name, and what it refers
to is searched first. -/
def entered (w : World) (d : Draft) : World :=
  { w with
    modules := w.modules.push d.module
    registry := Ordered.insert d.name w.modules.size w.registry
    searchPath := w.added d.paths ++ w.searchPath }

/-- The line noted down about a module that has been made. -/
def madeLine (d : Draft) : LogLine :=
  ⟨.debug, "grunpy.loader", "Compiled " ++ toString d.bodies.length ++ " source file(s) and " ++
    toString d.classes.length ++ " grammar class(es) into " ++ d.name⟩

/-- A draft comes to a new module, or to the report of the first body that fails, with the name of the
module free again. -/
theorem run_build (w : World) (d : Draft) :
    w.run (build d) = match runAll w.modules.size (entered w d) d.bodies with
      | (none, w') => (.ok w.modules.size,
          { w'.without (w.added d.paths) with log := madeLine d :: w'.log })
      | (some (path, f), w') => (.error (bodyFailure path f),
          { w'.without (w.added d.paths) with registry := Ordered.erase d.name w'.registry }) := by
  unfold build
  rw [run_bind_ok (run_create w _), run_bind_ok (run_register _ _ _), run_bind, run_withSearchPath,
    run_runBodies]
  rcases hran : runAll w.modules.size (entered w d) d.bodies with ⟨_ | ⟨path, f⟩, w'⟩ <;>
    unfold entered at hran <;> dsimp only [added] at hran ⊢ <;> rw [hran] <;> rfl

/-! ## The whole -/

theorem fileFailure?_eq_none {fs : Files} {options : List (String × Value)} {files : List String} :
    fileFailure? fs options files = none ↔ ∀ path ∈ files, ∀ f, verdict fs options path ≠ .failure f := by
  unfold fileFailure?
  rw [List.findSome?_eq_none_iff]
  constructor
  · intro h path hpath f hverdict
    have hnone := h path hpath
    rw [hverdict] at hnone
    cases hnone
  · intro h path hpath
    cases hverdict : verdict fs options path with
    | failure f => exact absurd hverdict (h path hpath f)
    | _ => rfl

theorem referenceFailure?_eq_none {found : List (String × Option Failure)} :
    referenceFailure? found = none ↔ ∀ r ∈ found, ∀ f, r.2 = some f → f.isImport := by
  unfold referenceFailure?
  rw [List.findSome?_eq_none_iff]
  constructor
  · intro h r hr f hf
    have hnone := h r hr
    rw [hf] at hnone
    simpa [Option.filter] using hnone
  · intro h r hr
    cases hf : r.2 with
    | none => rfl
    | some f => simp [Option.filter, h r hr f hf]

end Compile

open Compile World

/-- Three files, two of them defective, of which the last is not there. -/
def brokenFiles : Files :=
  ((Files.empty ["w"]).put "g/a.py" (.program (.defective (.at 2 5 "invalid syntax")))).put "g/b.py"
    (.program (.body [.fail (.fault .runtime "never run")]))

end GrammarBench.Loading
