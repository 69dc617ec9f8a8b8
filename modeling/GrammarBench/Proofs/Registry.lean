import Mathlib.Data.List.Induction
import GrammarBench.Proofs.Loads

/-!
# The registry of loaded modules

A load registers its module before the bodies are run and takes it out again when one of them fails, so that
what is registered under the name of a path is always a module that some load has returned.

* `Course`: how far a load comes.
* `Task.run_carryOut`: what a load does to the registry, by how far it comes.
* `Call.settles`: the name of one load.
* `loads_registry`: the names of all loads, one load after the other.
-/

namespace GrammarBench.Loading

open World Compile

/-! ## Names that cannot be imported -/

/-- The world with more directories on the search path. -/
def reaching (w : World) (directories : List String) : World :=
  { w with searchPath := w.searchPath ++ directories }

theorem unimportable_reaching {w : World} {directories : List String} {name : String}
    (h : (reaching w directories).Unimportable name) : w.Unimportable name where
  undivided := h.undivided
  uninstalled := h.uninstalled
  unfound := fun d hd => h.unfound d (List.mem_append_left _ hd)

theorem spared_reaching {w w' : World} {directories : List String} {name : String} (hw : Spared w w')
    (h : (reaching w directories).Unimportable name) : (reaching w' directories).Unimportable name where
  undivided := h.undivided
  uninstalled := h.uninstalled
  unfound := by
    intro d hd
    have hmem : d ∈ w.searchPath ++ directories := by
      rcases List.mem_append.mp hd with hpath | hdirectory
      · exact List.mem_append_left _ (hw.searchPath.subset hpath)
      · exact List.mem_append_right _ hdirectory
    have hunfound := h.unfound d hmem
    dsimp only [reaching] at hunfound ⊢
    rwa [hw.files]

/-- No module with a name made for a path can be found in some directories. -/
def Apart (fs : Files) (directories : List String) : Prop :=
  ∀ d ∈ directories, ∀ path, Import.searchDirectory fs d (moduleName path) = none

theorem apart_of_unmarked {fs : Files} {directories : List String}
    (h : ∀ d ∈ directories, ∀ name ∈ fs.names d, moduleMark.toList.isPrefixOf name.toList = false) :
    Apart fs directories := by
  intro d hd path
  have habsent : ∀ suffix, moduleName path ++ suffix ∉ fs.names d := by
    intro suffix hmem
    obtain ⟨stem, hstem, -⟩ := toList_moduleName path
    have hmark := h d hd _ hmem
    rw [String.toList_append, hstem, List.append_assoc, Bool.eq_false_iff] at hmark
    exact hmark (List.isPrefixOf_iff_prefix.mpr (List.prefix_append _ _))
  have hplain := habsent ""
  rw [String.append_empty] at hplain
  unfold Import.searchDirectory
  simp [habsent, hplain]

theorem unimportable_moduleName {w : World} (h : Apart w.files w.searchPath) (path : String) :
    w.Unimportable (moduleName path) where
  undivided := parts_moduleName path
  uninstalled := uninstalled_moduleName path
  unfound := fun d hd => h d hd path

/-! ## How far a load comes -/

/-- How far a load comes, and the world at that point. -/
inductive Course where
  /-- It fails before any body is run. -/
  | refused (f : Failure) (w : World)
  /-- A body fails, or the file that holds it cannot be read or compiled. -/
  | broken (f : Failure) (w : World)
  /-- All bodies have been run. -/
  | completed (id : ModuleId) (w : World)

namespace Course

/-- What a name stands for when the module of the load is called `own`. -/
def standing (own name : String) (before : Option ModuleId) : Course → Option ModuleId
  | refused _ _ => before
  | broken _ _ => if name = own then none else before
  | completed id _ => if name = own then some id else before

theorem standing_broken (own : String) (before : Option ModuleId) (f : Failure) (w : World) :
    (broken f w).standing own own before = none := if_pos rfl

theorem standing_completed (own : String) (before : Option ModuleId) (id : ModuleId) (w : World) :
    (completed id w).standing own own before = some id := if_pos rfl

theorem standing_of_ne {own name : String} (hne : name ≠ own) {before : Option ModuleId} {course : Course} :
    course.standing own name before = before := by
  cases course with
  | refused f w => rfl
  | broken f w => exact if_neg hne
  | completed id w => exact if_neg hne

end Course

/-- The world in which the body in a file of its own starts: the module is there under its name. -/
def holding (w : World) (path : String) : World :=
  { w with
    modules := w.modules.push { name := moduleName path, file := some (fullPath w.files path) }
    registry := Ordered.insert (moduleName path) w.modules.size w.registry }

namespace Task

/-- How far a task comes. -/
def course (w : World) (source : String) : Task → Course
  | refused f => .refused f w
  | compile files references options =>
    match w.run (prepare files references (moduleName source) options) with
    | (.error f, w') => .refused f w'
    | (.ok d, w') =>
      match runAll w'.modules.size (entered w' d) d.bodies with
      | (none, w'') => .completed w'.modules.size w''
      | (some (path, f), w'') => .broken (bodyFailure path f) w''
  | runFile =>
    match (holding w source).run (Loading.runFile source w.modules.size) with
    | (.ok _, w') => .completed w.modules.size w'
    | (.error f, w') => .broken (fileFailure source f) w'

end Task

theorem drafted_of_prepare {w w' : World} {files references : List String} {name : String}
    {options : List (String × Value)} {d : Draft}
    (h : w.run (prepare files references name options) = (.ok d, w')) :
    Drafted w.files name options files references d := by
  have hrun := run_prepare w files references name options
  dsimp only at hrun
  rw [h] at hrun
  split at hrun
  · cases hrun
  · split at hrun
    · cases hrun
    · split at hrun
      · obtain ⟨d', hd', hdrafted⟩ := hrun
        cases hd'
        exact hdrafted
      · cases hrun

theorem run_loadSourceFile (w : World) (path : String) :
    w.run (loadSourceFile path) =
      match (holding w path).run (Loading.runFile path w.modules.size) with
      | (.ok _, w') => (.ok w.modules.size, w')
      | (.error f, w') => (.error (fileFailure path f),
          { w' with registry := Ordered.erase (moduleName path) w'.registry }) := by
  unfold loadSourceFile
  rw [run_bind_ok (run_get w), run_bind_ok (run_create w _), run_bind_ok (run_register _ _ _), run_bind,
    run_tryCatch]
  unfold holding
  dsimp only
  rcases World.run _ (Loading.runFile path w.modules.size) with ⟨f | u, w'⟩ <;> rfl

theorem imported_runFile (path : String) (id : ModuleId) : Respects Imported (Loading.runFile path id) := by
  refine Respects.bind Respects.get fun w => ?_
  dsimp only
  refine Respects.bind (Respects.lift _) fun c => ?_
  split
  · exact Respects.throw _
  · exact Respects.bind (Respects.lift _) fun statements => imported_run id statements

namespace Task

/-- A task leaves the registry as it is at the point it comes to, but for the name of a module that breaks. -/
theorem run_carryOut (w : World) (source : String) (t : Task) :
    match t.course w source with
    | .refused f w' => w.run (t.carryOut source) = (.error f, w')
    | .broken f w' => ∃ w'', w.run (t.carryOut source) = (.error f, w'') ∧
        w''.registry = Ordered.erase (moduleName source) w'.registry
    | .completed id w' => ∃ w'', w.run (t.carryOut source) = (.ok id, w'') ∧
        w''.registry = w'.registry := by
  cases t with
  | refused f => rfl
  | compile files references options =>
      unfold course carryOut compileModule
      dsimp only
      rw [nameOrDefault_moduleName]
      rcases hprepare : w.run (prepare files references (moduleName source) options) with ⟨f | d, w'⟩
      · exact run_bind_error hprepare _
      · have hname := (drafted_of_prepare hprepare).named
        have hbuild := run_build w' d
        rw [run_bind_ok hprepare]
        dsimp only
        rcases hran : runAll w'.modules.size (entered w' d) d.bodies with ⟨_ | ⟨path, f⟩, w''⟩ <;>
          rw [hran] at hbuild <;> refine ⟨_, hbuild, ?_⟩
        · rfl
        · rw [hname]
  | runFile =>
      unfold course carryOut
      rw [run_loadSourceFile]
      rcases (holding w source).run (Loading.runFile source w.modules.size) with ⟨f | u, w'⟩ <;>
        exact ⟨_, rfl, rfl⟩

end Task

/-! ## What happens to a name -/

/-- Behind some bodies, a name that cannot be imported stands for what it stood for before, or for the module
of the bodies if it is its name. -/
theorem find?_registry_of_entered {w w' : World} {d : Draft} (hw : Imported (entered w d) w') {name : String}
    (hname : (reaching w d.paths).Unimportable name) :
    Ordered.find? name w'.registry =
      if name = d.name then some w.modules.size else Ordered.find? name w.registry := by
  have hentered : (entered w d).Unimportable name := by
    refine ⟨hname.undivided, hname.uninstalled, fun directory hdirectory => ?_⟩
    rcases List.mem_append.mp hdirectory with hadded | hpath
    · exact hname.unfound directory (List.mem_append_right _ (List.mem_filter.mp hadded).1)
    · exact hname.unfound directory (List.mem_append_left _ hpath)
  rw [hw.registry name hentered]
  unfold entered
  dsimp only
  by_cases heq : name = d.name
  · rw [if_pos heq, heq, Ordered.find?_insert_self]
  · rw [if_neg heq, Ordered.find?_insert_ne heq]

theorem find?_registry_of_holding {w w' : World} {path : String} (hw : Imported (holding w path) w')
    {name : String} (hname : w.Unimportable name) :
    Ordered.find? name w'.registry =
      if name = moduleName path then some w.modules.size else Ordered.find? name w.registry := by
  have hholding : (holding w path).Unimportable name := ⟨hname.undivided, hname.uninstalled, hname.unfound⟩
  rw [hw.registry name hholding]
  unfold holding
  dsimp only
  by_cases heq : name = moduleName path
  · rw [if_pos heq, heq, Ordered.find?_insert_self]
  · rw [if_neg heq, Ordered.find?_insert_ne heq]

/-- What a name that cannot be imported stands for at the point that a task comes to. -/
theorem Task.find?_registry {w : World} (source : String) {t : Task} {name : String}
    (hname : (reaching w (pathsOf w.files t.references)).Unimportable name) :
    match t.course w source with
    | .refused _ w' => Ordered.find? name w'.registry = Ordered.find? name w.registry
    | .broken _ w' => name ≠ moduleName source →
        Ordered.find? name w'.registry = Ordered.find? name w.registry
    | .completed id w' => w.modules.size ≤ id ∧ Ordered.find? name w'.registry =
        if name = moduleName source then some id else Ordered.find? name w.registry := by
  cases t with
  | refused f => rfl
  | compile files references options =>
      have hprepared : Spared w (w.run (prepare files references (moduleName source) options)).2 :=
        (noted_behindFiles w (moduleName source) options files).spared.trans
          (imported_prepare w files references (moduleName source) options).toSpared
      have hbefore := hprepared.registry name (unimportable_reaching hname)
      unfold course
      dsimp only
      rcases hprepare : w.run (prepare files references (moduleName source) options) with ⟨f | d, w'⟩ <;>
        rw [hprepare] at hprepared hbefore
      · exact hbefore
      · have hdrafted := drafted_of_prepare hprepare
        have hreaching : (reaching w' d.paths).Unimportable name := by
          rw [hdrafted.paths]
          exact spared_reaching hprepared hname
        have hfound := find?_registry_of_entered (imported_runAll w'.modules.size (entered w' d) d.bodies)
          hreaching
        rw [hdrafted.named, hbefore] at hfound
        dsimp only
        rcases hran : runAll w'.modules.size (entered w' d) d.bodies with ⟨_ | ⟨path, f⟩, w''⟩ <;>
          rw [hran] at hfound
        · exact ⟨hprepared.modules, hfound⟩
        · intro hne
          rw [if_neg hne] at hfound
          exact hfound
  | runFile =>
      have hfound := find?_registry_of_holding (imported_runFile source w.modules.size (holding w source))
        (unimportable_reaching hname)
      unfold course
      rcases hran : (holding w source).run (Loading.runFile source w.modules.size) with ⟨f | u, w'⟩ <;>
        rw [hran] at hfound
      · intro hne
        rw [if_neg hne] at hfound
        exact hfound
      · exact ⟨Nat.le_refl _, hfound⟩

/-- What a name that cannot be imported stands for behind a task. -/
theorem Task.find?_carryOut {w : World} (source : String) {t : Task} {name : String}
    (hname : (reaching w (pathsOf w.files t.references)).Unimportable name) :
    Ordered.find? name (w.run (t.carryOut source)).2.registry =
      (t.course w source).standing (moduleName source) name (Ordered.find? name w.registry) := by
  have hfound := Task.find?_registry source hname
  have hcarried := t.run_carryOut w source
  cases hcourse : t.course w source with
  | refused f w' =>
      rw [hcourse] at hfound hcarried
      rw [hcarried]
      exact hfound
  | broken f w' =>
      rw [hcourse] at hfound hcarried
      obtain ⟨w'', hcarried, herased⟩ := hcarried
      rw [hcarried, herased]
      unfold Course.standing
      by_cases heq : name = moduleName source
      · rw [if_pos heq, heq, Ordered.find?_erase_self]
      · rw [if_neg heq, Ordered.find?_erase_ne heq]
        exact hfound heq
  | completed id w' =>
      rw [hcourse] at hfound hcarried
      obtain ⟨w'', hcarried, hkept⟩ := hcarried
      rw [hcarried, hkept]
      exact hfound.2

/-! ## Loads one after the other -/

/-- A load of a directory or of a file, with the files and the search path that it finds. -/
structure Call where
  files : Files
  searchPath : List String := []
  source : String
  config : Option String := none

namespace Call

def start (c : Call) (w : World) : World := { w with files := c.files, searchPath := c.searchPath }

def attempt (c : Call) (w : World) : Except Failure ModuleId × World :=
  (c.start w).run (loadModule c.source c.config)

def task (c : Call) : Task := taskOf c.files c.source c.config

/-- The world with all directories in which the references and the bodies look for modules. -/
def reach (c : Call) (w : World) : World := reaching (c.start w) (pathsOf c.files c.task.references)

/-- The source is a directory or a file, and nothing that the references or the bodies can import has a name
made for a path. -/
structure Admissible (c : Call) : Prop where
  source : c.files.isDirectory c.source = true ∨ c.files.isFile c.source = true
  apart : Apart c.files (c.searchPath ++ pathsOf c.files c.task.references)

/-- What a load does to the registry, by how far it comes: what references and bodies leave there stays, and the
name of the module is as it was, or free, or stands for the new module. -/
def Settles (c : Call) (w : World) : Course → Prop
  | .refused f w' => (c.attempt w).1 = .error f ∧ (c.attempt w).2.registry = w'.registry ∧
      Ordered.find? (moduleName c.source) (c.attempt w).2.registry =
        Ordered.find? (moduleName c.source) w.registry
  | .broken f w' => (c.attempt w).1 = .error f ∧
      (c.attempt w).2.registry = Ordered.erase (moduleName c.source) w'.registry ∧
      Ordered.find? (moduleName c.source) (c.attempt w).2.registry = none
  | .completed id w' => (c.attempt w).1 = .ok id ∧ (c.attempt w).2.registry = w'.registry ∧
      Ordered.find? (moduleName c.source) (c.attempt w).2.registry = some id ∧ w.modules.size ≤ id

/-- The load returns a module, all bodies of which have been run. -/
def Returns (c : Call) (w : World) (id : ModuleId) : Prop :=
  (c.attempt w).1 = .ok id ∧
    ∃ w' w'', Noted (c.start w) w' ∧ c.task.course w' c.source = .completed id w''

variable {c : Call} {w w' : World}

theorem unimportable_noted (hnoted : Noted (c.start w) w') {name : String}
    (hname : (c.reach w).Unimportable name) :
    (reaching w' (pathsOf w'.files c.task.references)).Unimportable name := by
  rw [hnoted.files]
  exact spared_reaching hnoted.spared hname

theorem unimportable_reach (h : c.Admissible) (w : World) (path : String) :
    (c.reach w).Unimportable (moduleName path) :=
  unimportable_moduleName h.apart path

/-- What a name that cannot be imported stands for behind a load. -/
theorem find?_attempt (hnoted : Noted (c.start w) w')
    (hrun : c.attempt w = w'.run (c.task.carryOut c.source)) {name : String}
    (hname : (c.reach w).Unimportable name) :
    Ordered.find? name (c.attempt w).2.registry =
      (c.task.course w' c.source).standing (moduleName c.source) name (Ordered.find? name w.registry) := by
  have hregistry : w'.registry = w.registry := hnoted.registry
  rw [hrun, Task.find?_carryOut c.source (unimportable_noted hnoted hname), hregistry]

theorem settles_of_noted (h : c.Admissible) (hnoted : Noted (c.start w) w')
    (hrun : c.attempt w = w'.run (c.task.carryOut c.source)) :
    c.Settles w (c.task.course w' c.source) := by
  have hname := unimportable_reach h w c.source
  have hfound := find?_attempt hnoted hrun hname
  have hnew := Task.find?_registry c.source (unimportable_noted hnoted hname)
  have hcarried := c.task.run_carryOut w' c.source
  have hmodules : w'.modules = w.modules := hnoted.modules
  unfold Settles
  rw [hmodules] at hnew
  cases hcourse : c.task.course w' c.source with
  | refused f w'' =>
      rw [hcourse] at hfound hcarried
      refine ⟨?_, ?_, hfound⟩ <;> rw [hrun, hcarried]
  | broken f w'' =>
      rw [hcourse] at hfound hcarried
      obtain ⟨w₃, hcarried, herased⟩ := hcarried
      rw [Course.standing_broken] at hfound
      refine ⟨?_, ?_, hfound⟩ <;> rw [hrun, hcarried]
      exact herased
  | completed id w'' =>
      rw [hcourse] at hfound hcarried hnew
      obtain ⟨w₃, hcarried, hkept⟩ := hcarried
      rw [Course.standing_completed] at hfound
      refine ⟨?_, ?_, hfound, hnew.1⟩ <;> rw [hrun, hcarried]
      exact hkept

/-- A name of nothing that can be imported, other than that of the module, keeps its place. -/
theorem find?_other (hnoted : Noted (c.start w) w') (hrun : c.attempt w = w'.run (c.task.carryOut c.source))
    {name : String} (hname : (c.reach w).Unimportable name) (hne : name ≠ moduleName c.source) :
    Ordered.find? name (c.attempt w).2.registry = Ordered.find? name w.registry :=
  (find?_attempt hnoted hrun hname).trans (Course.standing_of_ne hne)

theorem exists_noted (h : c.Admissible) (w : World) :
    ∃ w', Noted (c.start w) w' ∧ c.attempt w = w'.run (c.task.carryOut c.source) :=
  run_loadModule (c.start w) c.source c.config h.source

/-- One load: its own name is settled by how far it comes, and every other name that nothing can be imported by
keeps its place. -/
theorem settles (h : c.Admissible) (w : World) :
    (∃ w', Noted (c.start w) w' ∧ c.Settles w (c.task.course w' c.source)) ∧
      ∀ name, (c.reach w).Unimportable name → name ≠ moduleName c.source →
        Ordered.find? name (c.attempt w).2.registry = Ordered.find? name w.registry := by
  obtain ⟨w', hnoted, hrun⟩ := exists_noted h w
  exact ⟨⟨w', hnoted, settles_of_noted h hnoted hrun⟩, fun name hname hne => find?_other hnoted hrun hname hne⟩

/-- What stands under the name of a path behind a load is what the load returned, or was there before. -/
theorem returns_or_before (h : c.Admissible) (w : World) {path : String} {id : ModuleId}
    (hid : Ordered.find? (moduleName path) (c.attempt w).2.registry = some id) :
    (moduleName c.source = moduleName path ∧ c.Returns w id) ∨
      Ordered.find? (moduleName path) w.registry = some id := by
  obtain ⟨⟨w', hnoted, hsettles⟩, hother⟩ := settles h w
  by_cases hname : moduleName path = moduleName c.source
  · rw [hname] at hid ⊢
    cases hcourse : c.task.course w' c.source with
    | refused f w'' =>
        rw [hcourse] at hsettles
        exact Or.inr (hsettles.2.2.symm.trans hid)
    | broken f w'' =>
        rw [hcourse] at hsettles
        rw [hsettles.2.2] at hid
        cases hid
    | completed id' w'' =>
        rw [hcourse] at hsettles
        obtain ⟨hreturned, -, hfound, -⟩ := hsettles
        have heq : id' = id := Option.some.inj (hfound.symm.trans hid)
        subst heq
        exact Or.inl ⟨rfl, hreturned, w', w'', hnoted, hcourse⟩
  · exact Or.inr ((hother _ (unimportable_reach h w path) hname).symm.trans hid)

end Call

/-- The world behind some loads. -/
def afterLoads (w : World) (calls : List Call) : World := calls.foldl (fun w c => (c.attempt w).2) w

theorem afterLoads_concat (w : World) (calls : List Call) (c : Call) :
    afterLoads w (calls ++ [c]) = (c.attempt (afterLoads w calls)).2 := by
  unfold afterLoads
  rw [List.foldl_append]
  rfl

/-- Behind any loads, each one succeeding or failing, what is registered under the name of a path is a module
that one of them returned, all its bodies run; and each of the loads leaves its own name as it was when it fails
before any body is run, free when a body fails, and to its module when it succeeds. -/
theorem loads_registry (w : World) (hw : ∀ path, Ordered.find? (moduleName path) w.registry = none)
    (calls : List Call) (hcalls : ∀ c ∈ calls, c.Admissible) :
    (∀ path id, Ordered.find? (moduleName path) (afterLoads w calls).registry = some id →
      ∃ before c rest, calls = before ++ c :: rest ∧ moduleName c.source = moduleName path ∧
        c.Returns (afterLoads w before) id) ∧
    ∀ before c rest, calls = before ++ c :: rest →
      (∃ w', Noted (c.start (afterLoads w before)) w' ∧
        c.Settles (afterLoads w before) (c.task.course w' c.source)) ∧
      ∀ name, (c.reach (afterLoads w before)).Unimportable name → name ≠ moduleName c.source →
        Ordered.find? name (c.attempt (afterLoads w before)).2.registry =
          Ordered.find? name (afterLoads w before).registry := by
  constructor
  · induction calls using List.reverseRecOn with
    | nil =>
        intro path id hid
        rw [afterLoads, List.foldl_nil, hw path] at hid
        cases hid
    | append_singleton calls c ih =>
        intro path id hid
        rw [afterLoads_concat] at hid
        have hc : c.Admissible := hcalls c (List.mem_append_right _ (List.mem_singleton_self c))
        rcases Call.returns_or_before hc (afterLoads w calls) hid with ⟨hname, hreturns⟩ | hbefore
        · exact ⟨calls, c, [], rfl, hname, hreturns⟩
        · obtain ⟨before, c', rest, rfl, hname, hreturns⟩ :=
            ih (fun c' hc' => hcalls c' (List.mem_append_left _ hc')) path id hbefore
          exact ⟨before, c', rest ++ [c], by rw [List.append_assoc, List.cons_append], hname, hreturns⟩
  · rintro before c rest rfl
    exact Call.settles (hcalls c (List.mem_append_right _ List.mem_cons_self)) (afterLoads w before)

/-- A directory with a body that imports a module, and the same with a body that fails after the import. -/
def soundLoad : Call :=
  { files := ((Files.empty ["w"]).put "lib/helper.py" (.program (.body []))).put "g/a.py"
      (.program (.body [.fetch "helper" none]))
    searchPath := ["lib"]
    source := "g" }

def failingLoad : Call :=
  { soundLoad with
    files := soundLoad.files.put "g/a.py"
      (.program (.body [.fetch "helper" none, .fail (.fault .runtime "boom")])) }

theorem loads_registry_reloaded :
    ∃ before c rest, [soundLoad, failingLoad, soundLoad] = before ++ c :: rest ∧
      moduleName c.source = moduleName "g" ∧ c.Returns (afterLoads { files := Files.empty [] } before) 3 := by
  refine (loads_registry { files := Files.empty [] } (fun _ => rfl) [soundLoad, failingLoad, soundLoad]
    ?_).1 "g" 3 (by decide +kernel)
  intro c hc
  simp only [List.mem_cons, List.not_mem_nil, or_false] at hc
  rcases hc with rfl | rfl | rfl <;>
    exact ⟨by decide +kernel, apart_of_unmarked (by decide +kernel)⟩

end GrammarBench.Loading
