import GrammarBench.Proofs.Registry
import GrammarBench.Proofs.TwinWorlds

/-!
# A file on its own and a directory that holds only it

The body in a file can be loaded in two ways: from the file itself, or from a directory in which the file is the only
one found. Both ways run the same body, in a module with a name and a file of its own, so that they come to the same
for every body that does not tell the two apart; but they do not report the same failures in the same way.

* `Lone`: a file, and a directory in which only this file is found.
* `run_loadAlone`, `run_loadWhole`: what each of the loads comes to.
* `namesFor`, `twin_start`: the names that the module has in the two ways, and the worlds in which its body starts.
* `loads_agree`: both ways, side by side.
-/

namespace GrammarBench.Loading

open World Compile

/-! ## The file -/

/-- The content of a source that both ways read alike: a text in bytes that are well formed, do not start with a mark and
declare no encoding but the usual one. -/
def Plain : Content → Prop
  | .bytes data => (∃ text, Files.textOf data = .ok text ∧ ∀ c ∈ text.head?, Program.isMark c = false) ∧
      ∀ name ∈ Program.declared? data, name = Program.utf8Name
  | _ => True

/-- A source file, and a directory without a configuration in which it is the only file found. -/
structure Lone (fs : Files) (path directory found : String) (c : Content) : Prop where
  suffix : path.endsWith Import.sourceSuffix = true
  opened : fs.opened path = .ok c
  isDirectory : fs.isDirectory directory = true
  unconfigured : fs.isFile (Path.join directory Config.fileName) = false
  finds : Finder.find fs directory defaultPatterns = .ok [found]
  found_suffix : found.endsWith Import.sourceSuffix = true
  found_opened : fs.opened found = .ok c
  plain : Plain c

theorem endsWith_eq_false {s a b : String} (h : s.endsWith a = true) (hlength : a.toList.length ≤ b.toList.length)
    (hab : ¬ a.toList <:+ b.toList) : s.endsWith b = false := by
  have hsuffix (t : String) : s.endsWith t = true ↔ t.toList <:+ s.toList := by
    show s.toSlice.endsWith t = true ↔ _
    rw [String.Slice.endsWith_string_iff, String.copy_toSlice]
  rw [Bool.eq_false_iff, Ne, hsuffix]
  exact fun hb => hab (List.suffix_of_suffix_length_le ((hsuffix a).mp h) hb hlength)

/-- The body of a program, or how its defect fails when it is loaded from its own file. -/
def bodyOf (path : String) : Program → Except Failure (List Statement)
  | .body statements => .ok statements
  | .defective (.at line column message) =>
    .error (.badSource { path := some path, line := some line, column := some column, message := message })
  | .defective .nullCharacter => .error (.fault .value Program.nullMessage)
  | .defective (.encoding message) =>
    .error (.badSource { path := some path, line := some 0, column := some (-1), message := message })

theorem ofBytes_of_usual {data : List UInt8} (h : ∀ name ∈ Program.declared? data, name = Program.utf8Name) :
    Program.ofBytes data = Program.ofUndeclared data := by
  unfold Program.ofBytes
  cases hdeclared : Program.declared? data with
  | none => rfl
  | some name => exact if_pos (h name hdeclared)

/-- Both ways find the same program. -/
theorem programOf_eq {c : Content} (hplain : Plain c) (path : String) :
    ∃ p, programIn c = .ok p ∧ Import.programOf path c = bodyOf path p := by
  have hbody (p : Program) : Import.programOf path (.program p) = bodyOf path p := by
    cases p with
    | body statements => rfl
    | defective d => cases d <;> rfl
  cases c with
  | directory => exact ⟨_, rfl, rfl⟩
  | program p => exact ⟨p, rfl, hbody p⟩
  | bytes data =>
      obtain ⟨⟨text, htext, hmark⟩, hdeclared⟩ := hplain
      have hread : Program.ofBytes data = Program.ofText text := by
        rw [ofBytes_of_usual hdeclared]
        unfold Files.textOf at htext
        unfold Program.ofUndeclared
        cases hdecoded : Text.Utf8.decode data with
        | error f =>
            rw [hdecoded] at htext
            cases htext
        | ok decoded =>
            rw [hdecoded] at htext
            obtain rfl := Except.ok.inj htext
            dsimp only
            cases huniversal : Text.universal decoded with
            | nil => rfl
            | cons c rest =>
                rw [huniversal] at hmark
                dsimp only
                rw [hmark c rfl, if_neg Bool.false_ne_true]
      refine ⟨Program.ofText text, ?_, ?_⟩
      · show ((Files.textOf data).map Program.ofText).mapError _ = _
        rw [htext]
        rfl
      · rw [← hread]
        exact hbody (Program.ofBytes data)

/-- A defect is reported as a failed compilation. -/
theorem fileFailure_bodyOf {path : String} (file : String) (p : Program) {f : Failure}
    (h : bodyOf path p = .error f) : ∃ lines, fileFailure file f = .report (.compilation lines) := by
  cases p with
  | body statements => cases h
  | defective d => cases d <;> (cases h; exact ⟨_, rfl⟩)

/-! ## The two loads -/

variable {w : World} {path directory found : String} {c : Content}

/-- The world with some lines noted down in place of its own. -/
def logging (w : World) (log : List LogLine) : World := { w with log := log }

namespace Lone

theorem find_eq (h : Lone w.files path directory found c) : w.files.find path = .ok c :=
  (Files.find_of_opened h.opened).1

theorem isFile (h : Lone w.files path directory found c) :
    w.files.isFile path = true ∧ w.files.isDirectory path = false := by
  unfold Files.isFile Files.isDirectory
  rw [h.find_eq]
  cases c with
  | directory => exact absurd rfl (Files.find_of_opened h.opened).2
  | _ => exact ⟨rfl, rfl⟩

end Lone

/-- The load of the file notes down what it does and runs the body. -/
theorem run_loadAlone (h : Lone w.files path directory found c) :
    ∃ log, w.run (loadModule path none) = (logging w log).run (loadSourceFile path) := by
  obtain ⟨hfile, hdirectory⟩ := h.isFile
  have hgrammar : path.endsWith grammarSuffix = false := endsWith_eq_false h.suffix (by decide) (by decide)
  refine ⟨⟨.debug, "grunpy.loader", "Loading grammar module from file " ++ path⟩ :: w.log, ?_⟩
  unfold loadModule
  rw [run_bind_ok (run_get w)]
  dsimp only
  rw [if_neg (Bool.eq_false_iff.mp hdirectory), if_pos hfile, run_bind_ok (run_note w _ _ _)]
  unfold loadFile
  rw [if_neg (Bool.eq_false_iff.mp hgrammar), h.suffix, Bool.true_or, if_pos rfl]
  rfl

theorem run_runFile (h : Lone w.files path directory found c) {p : Program}
    (hp : Import.programOf (fullPath w.files path) c = bodyOf (fullPath w.files path) p) (id : ModuleId) :
    w.run (Loading.runFile path id) = match bodyOf (fullPath w.files path) p with
      | .error f => (.error f, w)
      | .ok statements => w.run (Loading.run id statements) := by
  have hcompiled : path.endsWith Import.compiledSuffix = false := endsWith_eq_false h.suffix (by decide) (by decide)
  unfold Loading.runFile
  rw [run_bind_ok (run_get w)]
  dsimp only
  rw [h.opened]
  show w.run (World.lift (.ok c) >>= _) = _
  rw [run_bind_ok (run_lift_ok w c), hcompiled, if_neg Bool.false_ne_true, hp, run_bind, run_lift]
  cases bodyOf (fullPath w.files path) p <;> rfl

theorem run_loadSourceFile_body (h : Lone w.files path directory found c) {statements : List Statement}
    (hp : Import.programOf (fullPath w.files path) c = .ok statements) :
    w.run (loadSourceFile path) = match (holding w path).run (Loading.run w.modules.size statements) with
      | (.ok _, w') => (.ok w.modules.size, w')
      | (.error f, w') => (.error (fileFailure path f),
          { w' with registry := Ordered.erase (moduleName path) w'.registry }) := by
  rw [run_loadSourceFile, run_runFile (w := holding w path) (p := .body statements) h hp]
  rfl

/-- The load of the directory notes down what it does and compiles the one file. -/
theorem run_loadWhole (h : Lone w.files path directory found c) :
    ∃ log, w.run (loadModule directory none) =
      (logging w log).run (compileModule [found] [] (some (moduleName directory)) []) := by
  have hconfig (log : List LogLine) :
      ∃ log', (logging w log).run (configOf directory none) = (.ok {}, logging w log') := by
    unfold configOf ConfigFile.ofDirectory
    rw [run_bind_ok (run_get _)]
    show ∃ log', (logging w log).run (if w.files.isFile (Path.join directory Config.fileName) = true then _ else _) = _
    rw [if_neg (Bool.eq_false_iff.mp h.unconfigured)]
    exact ⟨_, rfl⟩
  have hfound (log : List LogLine) :
      ∃ log', (logging w log).run (findFiles directory defaultPatterns) = (.ok [found], logging w log') := by
    unfold findFiles
    rw [run_bind_ok (run_get _), show Finder.find (logging w log).files directory defaultPatterns = _ from h.finds]
    exact ⟨_, rfl⟩
  unfold loadModule
  rw [run_bind_ok (run_get w)]
  dsimp only
  rw [if_pos h.isDirectory, run_bind_ok (run_note w _ _ _)]
  unfold loadDirectory
  obtain ⟨log, hconfigured⟩ := hconfig
    (⟨.debug, "grunpy.loader", "Compiling grammar module from directory " ++ directory⟩ :: w.log)
  obtain ⟨log', hfiles⟩ := hfound log
  refine ⟨log', ?_⟩
  show (logging w _).run _ = _
  rw [run_bind_ok hconfigured]
  exact run_bind_ok hfiles _

/-- What is found in the one file. -/
def sourcesOf (found : String) : Program → Sources
  | .body statements => { bodies := [(found, statements)] }
  | .defective d => ({} : Sources).blame (defectLine found d)

theorem run_readLone (h : Lone w.files path directory found c) {p : Program} (hp : programIn c = .ok p)
    (name : String) : w.run (readSources name [] [found]) = (.ok (sourcesOf found p), w) := by
  have hgrammar : found.endsWith grammarSuffix = false :=
    endsWith_eq_false h.found_suffix (by decide) (by decide)
  unfold readSources
  rw [List.foldlM_cons]
  unfold addFile addBody
  rw [if_neg (Bool.eq_false_iff.mp hgrammar), run_bind, run_bind_ok (run_get w), h.found_opened]
  dsimp only
  rw [hp, run_bind_ok (run_lift_ok w p)]
  cases p <;> rfl

/-- The module of a directory with one body. -/
def draftOf (directory found : String) (statements : List Statement) : Draft :=
  { name := moduleName directory, file := some found, classes := [], bodies := [(found, statements)], paths := [] }

/-- The compilation of the one file is given up at its defect. -/
theorem run_compileLone_defective (h : Lone w.files path directory found c) {d : SourceDefect}
    (hp : programIn c = .ok (.defective d)) :
    (w.run (compileModule [found] [] (some (moduleName directory)) [])).1 =
      .error (.report (.compilation [defectLine found d])) := by
  unfold compileModule
  rw [nameOrDefault_moduleName, prepare_eq, run_bind, run_bind_ok (run_readLone h hp _)]
  rfl

/-- The body of the one file is run in a new module. -/
theorem run_compileLone_body (h : Lone w.files path directory found c) {statements : List Statement}
    (hp : programIn c = .ok (.body statements)) :
    w.run (compileModule [found] [] (some (moduleName directory)) []) =
      match (entered w (draftOf directory found statements)).run (Loading.run w.modules.size statements) with
      | (.ok _, w') => (.ok w.modules.size,
          { w'.without [] with log := madeLine (draftOf directory found statements) :: w'.log })
      | (.error f, w') => (.error (bodyFailure found f),
          { w'.without [] with registry := Ordered.erase (moduleName directory) w'.registry }) := by
  have hprepared : w.run (prepare [found] [] (moduleName directory) []) =
      (.ok (draftOf directory found statements), w) := by
    rw [prepare_eq, run_bind_ok (run_readLone h hp _)]
    rfl
  unfold compileModule
  rw [nameOrDefault_moduleName, run_bind_ok hprepared, run_build]
  unfold draftOf runAll
  dsimp only
  generalize World.run _ (Loading.run w.modules.size statements) = ran
  rcases ran with ⟨f | u, w'⟩ <;> rfl

/-! ## Both ways -/

theorem uninstalled_name (path : String) : moduleName path ≠ "" ∧ Installed.find? (moduleName path) = none ∧
    ∀ l ∈ Layer.given, l.home ≠ moduleName path := by
  have hgiven : ∀ l ∈ Layer.given, moduleMark.toList.isPrefixOf l.home.toList = false := by decide +kernel
  exact ⟨moduleName_ne (by decide +kernel) path, uninstalled_moduleName path,
    fun l hl => (moduleName_ne (hgiven l hl) path).symm⟩

/-- The names of the next module, for the path of a file and for that of a directory. -/
def namesFor (w : World) (path directory : String) : TwoNames where
  one := moduleName path
  other := moduleName directory
  own := w.modules.size
  undivided := by
    rintro name (_ | ⟨_, _ | ⟨_, ⟨⟩⟩⟩) <;> exact parts_moduleName _
  uninstalled := by
    rintro name (_ | ⟨_, _ | ⟨_, ⟨⟩⟩⟩) <;> exact uninstalled_name _

/-- No module that is there already has one of two names, nor a class that belongs to it, and no source that can be
imported tells the names apart. -/
structure Untouched (k : TwoNames) (w : World) : Prop where
  modules : ∀ id < w.modules.size, k.Foreign (w.module id).name ∧ Module.Twin k.exchange (w.module id) (w.module id)
  registry : ∀ e ∈ w.registry, e.2 < w.modules.size
  sources : ∀ e ∈ w.files.entries, ∀ path statements, Import.programOf path e.2 = .ok statements →
    ∀ s ∈ statements, k.Discreet s

theorem mem_entries_of_find {fs : Files} {path : String} {c : Content} (h : fs.find path = .ok c) :
    ∃ place, (place, c) ∈ fs.entries := by
  unfold Files.find at h
  obtain ⟨place, -, hat⟩ := Outcome.bind_ok h
  cases hcontent : fs.at? place with
  | none =>
      rw [hcontent] at hat
      cases hat
  | some content =>
      rw [hcontent] at hat
      obtain rfl := Except.ok.inj hat
      obtain ⟨before, behind, heq, -⟩ := List.lookup_eq_some_iff.mp hcontent
      exact ⟨place, heq ▸ List.mem_append_right _ List.mem_cons_self⟩

theorem Untouched.source {k : TwoNames} (hw : Untouched k w) {path file : String} {content : Content}
    (hopened : w.files.opened path = .ok content) {statements : List Statement}
    (h : Import.programOf file content = .ok statements) : ∀ s ∈ statements, k.Discreet s := by
  obtain ⟨place, hmem⟩ := mem_entries_of_find (Files.find_of_opened hopened).1
  exact hw.sources _ hmem file statements h

/-- No source that can be imported tells the names apart. -/
theorem Untouched.sourceAt {k : TwoNames} (hw : Untouched k w) (path : String) (statements : List Statement)
    (h : Import.sourceAt w.files path = .ok statements) : ∀ s ∈ statements, k.Discreet s := by
  obtain ⟨content, hopened, h⟩ := Outcome.bind_ok h
  cases hcontent : w.files.opened path with
  | error e =>
      rw [hcontent] at hopened
      cases hopened
  | ok content' =>
      rw [hcontent] at hopened
      obtain rfl := Except.ok.inj hopened
      exact hw.source hcontent h

/-- The modules of a world, those that have not been made included. -/
theorem Untouched.module {k : TwoNames} (hw : Untouched k w) (id : ModuleId) :
    k.Foreign (w.module id).name ∧ Module.Twin k.exchange (w.module id) (w.module id) := by
  by_cases hid : id < w.modules.size
  · exact hw.modules id hid
  · have hmodule : w.module id = { name := "" } := by
      unfold World.module
      rw [Array.getD_eq_getD_getElem?, Array.getElem?_eq_none (Nat.le_of_not_lt hid)]
      rfl
    rw [hmodule]
    exact ⟨TwoNames.foreign_empty, TwoNames.twin_self TwoNames.foreign_empty nofun rfl⟩

theorem Untouched.find?_registry {k : TwoNames} (hw : Untouched k w) {name : String} {id : ModuleId}
    (h : Ordered.find? name w.registry = some id) : id < w.modules.size := by
  obtain ⟨before, behind, heq, -⟩ := List.lookup_eq_some_iff.mp h
  exact hw.registry (name, id) (heq ▸ List.mem_append_right _ List.mem_cons_self)

/-- The worlds in which the two ways start the body are the same up to the names. -/
theorem twin_start (hw : Untouched (namesFor w path directory) w) (found : String) (log log' : List LogLine)
    (statements : List Statement) :
    (namesFor w path directory).Twin (holding (logging w log) path)
      (entered (logging w log') (draftOf directory found statements)) := by
  have hleft (id : ModuleId) : (holding (logging w log) path).module id = if id = w.modules.size then
      { name := moduleName path, file := some (fullPath w.files path) } else w.module id :=
    TwoNames.module_push w _ id
  have hright (id : ModuleId) : (entered (logging w log') (draftOf directory found statements)).module id =
      if id = w.modules.size then { name := moduleName directory, file := some found } else w.module id :=
    TwoNames.module_push w _ id
  have hother {name other : String} (hname : (namesFor w path directory).Foreign name)
      (hother : other ∈ [moduleName path, moduleName directory]) (id : ModuleId) :
      Ordered.find? name (Ordered.insert other id w.registry) = Ordered.find? name w.registry := by
    refine Ordered.find?_insert_ne (fun heq => ?_) id w.registry
    rcases hother with _ | ⟨_, _ | ⟨_, ⟨⟩⟩⟩
    · exact hname.ne_one heq
    · exact hname.ne_other heq
  refine ⟨rfl, rfl, rfl, ?_, ?_, fun id => ?_, fun id hid => ?_, ?_, fun name hname => ?_, fun name hname => ?_,
    hw.sourceAt⟩
  · exact (Array.size_push _).trans (Array.size_push _).symm
  · exact (Array.size_push _).symm ▸ Nat.lt_succ_self _
  · rw [hleft, hright]
    split
    · exact ⟨(Equiv.swap_apply_left _ _).symm, rfl, rfl, rfl, rfl⟩
    · exact (hw.module id).2
  · have hid : id ≠ w.modules.size := hid
    rw [hleft, hright, if_neg hid, if_neg hid]
    exact ⟨(hw.module id).1, rfl⟩
  · rw [hleft]
    exact congrArg Module.name (if_pos rfl)
  · exact (hother hname (List.mem_cons_of_mem _ List.mem_cons_self) _).trans
      (hother hname List.mem_cons_self _).symm
  · intro hfound
    have hfound := (hother hname List.mem_cons_self _).symm.trans hfound
    exact Nat.lt_irrefl _ (hw.find?_registry hfound)

/-- How the body ends in the world in which the load of its file starts it. -/
def ending (w : World) (path : String) (statements : List Statement) : Except Failure Unit :=
  ((holding w path).run (Loading.run w.modules.size statements)).1

/-- The program in the file is a body that fails when it is run. -/
def Fails (w : World) (path : String) (c : Content) (f : Failure) : Prop :=
  ∃ statements, programIn c = .ok (.body statements) ∧ ending w path statements = .error f

/-- Two loads agree: both return a module, and the modules bind the same and resolve alike, up to their names and
files; or both fail, in the same way. -/
def Agree (k : TwoNames) (alone whole : Except Failure ModuleId × World) : Prop :=
  (∃ id, alone.1 = .ok id ∧ whole.1 = .ok id ∧ Module.Twin k.exchange (alone.2.module id) (whole.2.module id) ∧
    ∀ grammar, Module.SameChoice k.exchange (alone.2.module id) (whole.2.module id) grammar
      (alone.2.run ((alone.2.module id).resolve grammar)).1 (whole.2.run ((whole.2.module id).resolve grammar)).1) ∨
  ∃ f f', alone.1 = .error f ∧ whole.1 = .error f' ∧ f.name = f'.name

/-- Failed imports and failures of files are taken for a missing module, all others for a failed compilation. -/
theorem name_fileFailure (path : String) (f : Failure) : (fileFailure path f).name =
    if f.isFile || f.isImport then "GrammarModuleNotFoundError" else "CompilationError" := by
  unfold fileFailure
  split
  · rfl
  · split <;> rfl

theorem loads_defective (h : Lone w.files path directory found c) {d : SourceDefect}
    (hp : programIn c = .ok (.defective d)) :
    (∃ lines, (w.run (loadModule path none)).1 = .error (.report (.compilation lines))) ∧
      (w.run (loadModule directory none)).1 = .error (.report (.compilation [defectLine found d])) := by
  obtain ⟨log, halone⟩ := run_loadAlone h
  obtain ⟨log', hwhole⟩ := run_loadWhole h
  obtain ⟨p, hp', hprogram⟩ := programOf_eq h.plain (fullPath w.files path)
  obtain rfl := Except.ok.inj (hp.symm.trans hp')
  obtain ⟨f, hf⟩ : ∃ f, bodyOf (fullPath w.files path) (.defective d) = .error f := by cases d <;> exact ⟨_, rfl⟩
  obtain ⟨lines, hlines⟩ := fileFailure_bodyOf path (.defective d) hf
  refine ⟨⟨lines, ?_⟩, ?_⟩
  · have hrun := run_runFile (w := holding (logging w log) path) h hprogram w.modules.size
    have hfailed : (holding (logging w log) path).run (Loading.runFile path w.modules.size) =
        (.error f, holding (logging w log) path) := hrun.trans (by
      show (match bodyOf (fullPath w.files path) (.defective d) with
        | .error f => _
        | .ok statements => _) = _
      rw [hf])
    have hloaded : (logging w log).run (loadSourceFile path) = _ := run_loadSourceFile (logging w log) path
    rw [halone, hloaded, show World.run _ (Loading.runFile path (logging w log).modules.size) = _ from hfailed]
    exact congrArg Except.error hlines
  · rw [hwhole]
    exact run_compileLone_defective (w := logging w log') h hp

theorem loads_body (h : Lone w.files path directory found c) (hw : Untouched (namesFor w path directory) w)
    {statements : List Statement} (hp : programIn c = .ok (.body statements))
    (hbody : ∀ s ∈ statements, s.Unaware) :
    let alone := w.run (loadModule path none)
    let whole := w.run (loadModule directory none)
    match ending w path statements with
    | .ok _ => alone.1 = .ok w.modules.size ∧ whole.1 = .ok w.modules.size ∧
        Module.Twin (namesFor w path directory).exchange (alone.2.module w.modules.size)
          (whole.2.module w.modules.size)
    | .error f => alone.1 = .error (fileFailure path f) ∧ whole.1 = .error (bodyFailure found f) := by
  intro alone whole
  obtain ⟨log, halone⟩ := run_loadAlone h
  obtain ⟨log', hwhole⟩ := run_loadWhole h
  obtain ⟨p, hp', hprogram⟩ := programOf_eq h.plain (fullPath w.files path)
  obtain rfl := Except.ok.inj (hp.symm.trans hp')
  have hdiscreet : ∀ s ∈ statements, (namesFor w path directory).Discreet s := hw.source h.opened hprogram
  have hrun (start : List LogLine) := TwoNames.parallel_run hdiscreet hbody _ _
    (twin_start hw found start log' statements)
  have halone : alone = _ := halone.trans (run_loadSourceFile_body (w := logging w log) h hprogram)
  have hwhole : whole = _ := hwhole.trans (run_compileLone_body (w := logging w log') h hp)
  have hlogged : (namesFor w path directory).Alike Eq
      ((holding (logging w log) path).run (Loading.run w.modules.size statements))
      ((entered (logging w log') (draftOf directory found statements)).run
        (Loading.run w.modules.size statements)) := hrun log
  have hplain : (namesFor w path directory).Alike Eq
      ((holding w path).run (Loading.run w.modules.size statements))
      ((entered (logging w log') (draftOf directory found statements)).run
        (Loading.run w.modules.size statements)) := hrun w.log
  have halone : alone = match (holding (logging w log) path).run (Loading.run w.modules.size statements) with
      | (.ok _, w') => (.ok w.modules.size, w')
      | (.error f, w') => (.error (fileFailure path f),
          { w' with registry := Ordered.erase (moduleName path) w'.registry }) := halone
  have hwhole : whole = match (entered (logging w log') (draftOf directory found statements)).run
        (Loading.run w.modules.size statements) with
      | (.ok _, w') => (.ok w.modules.size,
          { w'.without [] with log := madeLine (draftOf directory found statements) :: w'.log })
      | (.error f, w') => (.error (bodyFailure found f),
          { w'.without [] with registry := Ordered.erase (moduleName directory) w'.registry }) := hwhole
  unfold ending
  generalize (holding (logging w log) path).run (Loading.run w.modules.size statements) = logged at *
  generalize (holding w path).run (Loading.run w.modules.size statements) = plain at *
  generalize (entered (logging w log') (draftOf directory found statements)).run
    (Loading.run w.modules.size statements) = other at *
  cases hplain with
  | ok _ _ =>
      cases hlogged with
      | ok _ htwin =>
          rw [halone, hwhole]
          exact ⟨rfl, rfl, htwin.modules w.modules.size⟩
  | error _ =>
      cases hlogged with
      | error _ =>
          rw [halone, hwhole]
          exact ⟨rfl, rfl⟩

theorem Untouched.of_fresh {k : TwoNames} (hmodules : w.modules = #[]) (hregistry : w.registry = [])
    (hsources : ∀ e ∈ w.files.entries, ∀ path statements, Import.programOf path e.2 = .ok statements →
      ∀ s ∈ statements, k.Discreet s) : Untouched k w where
  modules id hid := by
    rw [hmodules] at hid
    exact absurd hid (Nat.not_lt_zero id)
  registry e he := by
    rw [hregistry] at he
    cases he
  sources := hsources

/-- A directory with one source. -/
def loneWorld (statements : List Statement) : World where
  files :=
    { working := []
      entries := [([], .directory), (["g"], .directory), (["g", "a.py"], .program (.body statements))] }

theorem opened_loneWorld (statements : List Statement) :
    (loneWorld statements).files.opened "g/a.py" = .ok (.program (.body statements)) := by
  have hparts : Path.parts "g/a.py" = ["g", "a.py"] := by decide +kernel
  have habsolute : "g/a.py".startsWith "/" = false := by decide +kernel
  refine Files.opened_of_find (by decide) rfl ?_ nofun
  unfold Files.find Files.place
  rw [if_neg (by decide), hparts, habsolute]
  rfl

/-- Nothing but the source can tell the names apart. -/
theorem untouched_loneWorld {k : TwoNames} {statements : List Statement} (h : ∀ s ∈ statements, k.Discreet s) :
    Untouched k (loneWorld statements) := by
  refine .of_fresh rfl rfl ?_
  have hdirectory : ∀ path found, Import.programOf path .directory = .ok found → ∀ s ∈ found, k.Discreet s := by
    intro path found hfound
    obtain rfl : [] = found := Except.ok.inj hfound
    exact nofun
  rintro e (_ | ⟨_, _ | ⟨_, _ | ⟨_, ⟨⟩⟩⟩⟩)
  · exact hdirectory
  · exact hdirectory
  · intro path found hfound
    obtain rfl : statements = found := Except.ok.inj hfound
    exact h

/-- A body that gives two classes and a value. -/
def quietBody : List Statement :=
  [.define "ALexer" ["Lexer"] [("tokenize", .lexing (.fixed []))] none, .define "AParser" ["Parser"] [] none,
    .assign "x" (.int 1)]

theorem discreet_quietBody (k : TwoNames) : ∀ s ∈ quietBody, k.Discreet s ∧ s.Unaware := by
  have hbinds : ∀ s ∈ quietBody, ∀ name ∈ s.binds, "__name__" ∉ Import.parts name := by decide +kernel
  have hunaware : ∀ s ∈ quietBody, "__name__" ∉ s.looksUp ∧ "__file__" ∉ s.looksUp := by decide +kernel
  have hown : ∀ s ∈ quietBody, ∀ name ∈ s.looksUp ++ s.takes, name ∉ Module.given := by decide +kernel
  have hhome : ∀ s ∈ quietBody, s.home? = none ∧ s.imported? = none := by decide +kernel
  intro s hs
  obtain ⟨hhome, himported⟩ := hhome s hs
  exact ⟨⟨hbinds s hs, by simp [hhome], by simp [himported], hown s hs⟩, ⟨(hunaware s hs).1, (hunaware s hs).2⟩⟩

/-- A body that ends in a failed import. -/
def raisingBody : List Statement := [.fail (.fault .importing "m")]

end GrammarBench.Loading
