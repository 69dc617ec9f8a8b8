import GrammarBench.Loading.Load
import GrammarBench.Proofs.TwinWorlds

/-!
# Loads by name

A source that is neither a directory nor a file is the name of a module, or nothing at all. When its import fails
because the module or one of those above it does not exist, nothing was found. Every other failure comes from the
modules that the import runs, and leaves the load as it is.

* `Dotted`, `isModuleName_iff`: the sources that are names of modules.
* `Import.mem_chain_iff`: a name and those above it are its beginnings up to a dot.
* `Lacks`: the failures which say that a module or one of those above it does not exist.
* `loadModule_by_name`: what comes of a source that is neither a directory nor a file.
* `Import.Leads`, `run_module_of_leads`, `loadModule_of_leads`: a failure passes through any number of imports inside
  one another.
-/

namespace GrammarBench.Loading

open World

/-! ## Names of modules -/

/-- Texts that start with a Latin letter or an underscore and go on with letters, digits and underscores. -/
def Identifier (s : String) : Prop :=
  ∃ c r, s.toList = c :: r ∧ (c.isAlpha = true ∨ c = '_') ∧ ∀ d ∈ r, Text.isWord d = true

/-- Identifiers with dots between them. -/
def Dotted (source : String) : Prop :=
  ∃ names, names ≠ [] ∧ (∀ n ∈ names, Identifier n) ∧ source = ".".intercalate names

theorem Identifier.undotted {s : String} (h : Identifier s) : '.' ∉ s.toList := by
  obtain ⟨c, r, hs, hc, hr⟩ := h
  rw [hs, List.mem_cons]
  rintro (rfl | hdot)
  · exact absurd hc (by decide)
  · exact absurd (hr '.' hdot) (by decide +kernel)

namespace Import

theorem intercalate_parts (name : String) : ".".intercalate (parts name) = name := Text.intercalate_pieces '.' name

end Import

theorem isModuleName_iff {source : String} : isModuleName source = true ↔ Dotted source := by
  have hall : isModuleName source = true ↔ ∀ part ∈ Import.parts source, Identifier part := by
    unfold isModuleName
    rw [List.all_eq_true]
    refine forall₂_congr fun part _ => ?_
    unfold Identifier
    cases part.toList with
    | nil => simp
    | cons c r => simp [and_assoc]
  rw [hall]
  constructor
  · intro h
    exact ⟨Import.parts source, Import.parts_ne_nil source, h, (Import.intercalate_parts source).symm⟩
  · rintro ⟨names, hne, hnames, rfl⟩
    rw [Import.parts_intercalate hne fun n hn => (hnames n hn).undotted]
    exact hnames

/-! ## A name and those above it -/

namespace Import

variable {name missing : String}

theorem mem_chain :
    missing ∈ chain name ↔ ∃ n < (parts name).length, missing = ".".intercalate ((parts name).take (n + 1)) := by
  unfold chain
  simp only [List.mem_map, List.mem_range, eq_comm]

theorem self_mem_chain (name : String) : name ∈ chain name := by
  have hlength : 0 < (parts name).length := List.length_pos_of_ne_nil (parts_ne_nil name)
  refine mem_chain.mpr ⟨(parts name).length - 1, by omega, ?_⟩
  rw [Nat.sub_add_cancel hlength, List.take_length, intercalate_parts]

/-- The parts of a name are kept apart by the dots: no name is above another one unless a dot follows it there. -/
theorem mem_chain_iff : missing ∈ chain name ↔ missing = name ∨ name.startsWith (missing ++ ".") = true := by
  rw [String.startsWith_string_iff, String.toList_append]
  constructor
  · intro h
    obtain ⟨n, hn, rfl⟩ := mem_chain.mp h
    by_cases hlast : n + 1 = (parts name).length
    · rw [hlast, List.take_length]
      exact Or.inl (intercalate_parts name)
    · right
      have htake : (parts name).take (n + 1) ≠ [] := fun hnil =>
        (List.take_eq_nil_iff.mp hnil).elim (Nat.succ_ne_zero n) (parts_ne_nil name)
      have hdrop : (parts name).drop (n + 1) ≠ [] := fun hnil => by
        have hshort := List.drop_eq_nil_iff.mp hnil
        omega
      have hname : name = ".".intercalate ((parts name).take (n + 1)) ++ "." ++
          ".".intercalate ((parts name).drop (n + 1)) := by
        rw [← String.intercalate_append_of_ne_nil htake hdrop, List.take_append_drop, intercalate_parts]
      conv_rhs => rw [hname, String.toList_append, String.toList_append]
      exact List.prefix_append _ _
  · rintro (rfl | ⟨rest, hrest⟩)
    · exact self_mem_chain missing
    · have hname : name = missing ++ "." ++ String.ofList rest := by
        rw [← String.toList_inj, String.toList_append, String.toList_append, ← hrest]
        exact congrArg _ String.toList_ofList.symm
      have hparts : parts name = parts missing ++ parts (String.ofList rest) := by
        rw [hname, parts_part]
      have hlength : 0 < (parts missing).length := List.length_pos_of_ne_nil (parts_ne_nil missing)
      refine mem_chain.mpr ⟨(parts missing).length - 1, ?_, ?_⟩
      · rw [hparts, List.length_append]
        omega
      · rw [Nat.sub_add_cancel hlength, hparts, List.take_left, intercalate_parts]

end Import

/-! ## What comes of a load by name -/

/-- The failure says that a module or one of those above it does not exist, or that some module does not without
telling which. -/
def Lacks (f : Failure) (source : String) : Prop :=
  ∃ missing, f.missing? = some missing ∧ ∀ n ∈ missing, n ∈ Import.chain source

/-- The load ends with a report that no module was found. -/
def IsNotFound (outcome : Except Failure ModuleId) : Prop :=
  ∃ r, outcome = .error (.report r) ∧ r.kind = .moduleNotFound

theorem isNotFound_notAModule (source : String) : IsNotFound (.error (notAModule source)) := ⟨_, rfl, rfl⟩

/-- A report that no module was found is itself a failure that does not tell which one is missing. -/
theorem IsNotFound.lacks {f : Failure} (h : IsNotFound (.error f)) (source : String) : Lacks f source := by
  obtain ⟨r, hr, hkind⟩ := h
  cases hr
  refine ⟨none, ?_, by simp⟩
  show (if r.kind = .moduleNotFound then some none else none) = some none
  rw [if_pos hkind]

section Named

variable {w w' : World} {source : String} {f : Failure}

theorem run_loadNamed_ok {id : ModuleId} (h : w.run (Import.module run source) = (.ok id, w')) :
    w.run (loadNamed source) = (.ok id, w') := by
  unfold loadNamed
  rw [run_tryCatch, h]

theorem run_loadNamed_of_lacks (h : w.run (Import.module run source) = (.error f, w')) (hf : Lacks f source) :
    w.run (loadNamed source) = (.error (notAModule source), w') := by
  obtain ⟨missing, hmissing, hchain⟩ := hf
  unfold loadNamed
  rw [run_tryCatch, h]
  dsimp only
  rw [hmissing]
  cases missing with
  | none => rfl
  | some n =>
      have hn : source = n ∨ source.startsWith (n ++ ".") = true :=
        (Import.mem_chain_iff.mp (hchain n rfl)).imp_left Eq.symm
      dsimp only
      rw [if_pos (by simpa using hn)]
      rfl

theorem run_loadNamed_of_not_lacks (h : w.run (Import.module run source) = (.error f, w')) (hf : ¬ Lacks f source) :
    w.run (loadNamed source) = (.error f, w') := by
  unfold loadNamed
  rw [run_tryCatch, h]
  dsimp only
  cases hmissing : f.missing? with
  | none => rfl
  | some missing =>
      cases missing with
      | none => exact absurd ⟨none, hmissing, by simp⟩ hf
      | some n =>
          have hn : ¬ (source = n ∨ source.startsWith (n ++ ".") = true) := fun hn =>
            hf ⟨some n, hmissing, by simpa using Import.mem_chain_iff.mpr (hn.imp_left Eq.symm)⟩
          dsimp only
          rw [if_neg (by simpa using hn)]
          rfl

end Named

/-- The world in which a module is imported that a source names. -/
def importing (w : World) (source : String) : World :=
  { w with log := ⟨.debug, "grunpy.loader", "Importing grammar module " ++ source⟩ :: w.log }

theorem run_loadModule_by_name {w : World} {source : String} (config : Option String)
    (hdirectory : w.files.isDirectory source = false) (hfile : w.files.isFile source = false) :
    w.run (loadModule source config) =
      if isModuleName source then (importing w source).run (loadNamed source)
      else (.error (notAModule source), w) := by
  unfold loadModule
  rw [run_bind_ok (run_get w)]
  dsimp only
  rw [if_neg (by simp [hdirectory]), if_neg (by simp [hfile])]
  split
  · exact run_bind_ok (run_note w _ _ _) _
  · rfl

/-- **Missing modules and missing dependencies.** A source that is neither a directory nor a file is imported if it is
a dotted name. The load then reports that nothing was found just if the import fails because the module or one of
those above it does not exist, or because some module does not and the failure does not name it; everything else that
comes of the import comes of the load. Any other source is not found, and nothing is imported for it. -/
theorem loadModule_by_name (w : World) (source : String) (config : Option String)
    (hdirectory : w.files.isDirectory source = false) (hfile : w.files.isFile source = false) :
    (Dotted source → ∀ result w', (importing w source).run (Import.module run source) = (result, w') →
      ∃ outcome, w.run (loadModule source config) = (outcome, w') ∧
        (∀ id, result = .ok id → outcome = .ok id) ∧
        (∀ f, result = .error f → Lacks f source → outcome = .error (notAModule source)) ∧
        (∀ f, result = .error f → ¬ Lacks f source → outcome = .error f) ∧
        (IsNotFound outcome ↔ ∃ f, result = .error f ∧ Lacks f source)) ∧
    (¬ Dotted source → w.run (loadModule source config) = (.error (notAModule source), w)) := by
  rw [run_loadModule_by_name config hdirectory hfile]
  constructor
  · intro hdotted result w' hrun
    rw [if_pos (isModuleName_iff.mpr hdotted)]
    rcases result with f | id
    · by_cases hf : Lacks f source
      · refine ⟨_, run_loadNamed_of_lacks hrun hf, nofun, fun _ _ _ => rfl, ?_, ?_⟩
        · rintro _ ⟨⟩ hnot
          exact absurd hf hnot
        · exact ⟨fun _ => ⟨f, rfl, hf⟩, fun _ => isNotFound_notAModule source⟩
      · refine ⟨_, run_loadNamed_of_not_lacks hrun hf, nofun, ?_, fun _ h _ => h, ?_⟩
        · rintro _ ⟨⟩ hlacks
          exact absurd hlacks hf
        · refine ⟨fun hfound => absurd (hfound.lacks source) hf, ?_⟩
          rintro ⟨_, ⟨⟩, hlacks⟩
          exact absurd hlacks hf
    · refine ⟨_, run_loadNamed_ok hrun, fun _ h => h, nofun, nofun, ?_⟩
      constructor
      · rintro ⟨r, hr, -⟩
        cases hr
      · rintro ⟨f, hf, -⟩
        cases hf
  · intro hdotted
    exact if_neg (isModuleName_iff.not.mpr hdotted)

/-- A package whose source imports a part of another package that is not there. Their names begin alike. -/
def dependentWorld : World where
  files := ((Files.empty ["w"]).put "lib/pkg/__init__.py" (.program (.body [.fetch "pkg_tools.draw" none]))).put
    "lib/pkg/core.py" (.program (.body []))
  searchPath := ["lib"]

theorem loadModule_by_name_dependent :
    dependentWorld.files.isDirectory "pkg.core" = false ∧ dependentWorld.files.isFile "pkg.core" = false ∧
      Dotted "pkg.core" ∧
      (dependentWorld.run (loadModule "pkg.core" none)).1 = .error (Import.missing "pkg_tools") := by
  have hdirectory : dependentWorld.files.isDirectory "pkg.core" = false := by decide +kernel
  have hfile : dependentWorld.files.isFile "pkg.core" = false := by decide +kernel
  have hdotted : Dotted "pkg.core" := isModuleName_iff.mp (by decide +kernel)
  have hresult : ((importing dependentWorld "pkg.core").run (Import.module run "pkg.core")).1 =
      .error (Import.missing "pkg_tools") := by decide +kernel
  have hlacks : ¬ Lacks (Import.missing "pkg_tools") "pkg.core" := by
    rintro ⟨missing, hmissing, hchain⟩
    cases hmissing
    exact absurd (hchain "pkg_tools" rfl) (by decide +kernel)
  obtain ⟨outcome, hrun, -, -, hother, -⟩ :=
    (loadModule_by_name dependentWorld "pkg.core" none hdirectory hfile).1 hdotted _ _ rfl
  refine ⟨hdirectory, hfile, hdotted, ?_⟩
  rw [hrun]
  exact hother _ hresult hlacks

/-! ## Failures behind several imports -/

namespace Import

/-- A name without dots under which no module is there yet. -/
structure Fresh (w : World) (name : String) : Prop where
  undivided : parts name = [name]
  named : name ≠ ""
  unregistered : Ordered.find? name w.registry = none
  uninstalled : Installed.find? name = none

/-- The module of a name is found, with this for its body or for the defect of its source. -/
def HasBody (fs : Files) (directories : List String) (name : String) (body : Except Failure (List Statement)) : Prop :=
  ∃ path, (search fs directories name = some (.source path) ∨
      ∃ own, search fs directories name = some (.package path own)) ∧
    sourceAt fs path = body

/-- Modules of which each one imports the next one, up to a module that is missing or that fails by itself. -/
inductive Leads (fs : Files) (directories : List String) : Failure → List String → Prop where
  | missing {name : String} : search fs directories name = none → Leads fs directories (missing name) [name]
  | defective {name : String} {f : Failure} : HasBody fs directories name (.error f) → Leads fs directories f [name]
  | fail {name : String} {f : Failure} {rest : List Statement} :
    HasBody fs directories name (.ok (.fail f :: rest)) → Leads fs directories f [name]
  | fetch {name next : String} {f : Failure} {names : Option (List String)} {rest : List Statement}
      {line : List String} :
    HasBody fs directories name (.ok (.fetch next names :: rest)) → Leads fs directories f (next :: line) →
      Leads fs directories f (name :: next :: line)

variable {w : World} {name : String} {runBody : ModuleId → List Statement → Act Unit}

theorem chain_undivided (h : parts name = [name]) : chain name = [name] := by
  unfold chain
  rw [h]
  rfl

theorem Fresh.parentIn? (h : Fresh w name) : Import.parentIn? w name = none := by
  unfold Import.parentIn? parent?
  rw [h.undivided]
  rfl

theorem run_one_of_fresh (h : Fresh w name) :
    w.run (one runBody name) = match search w.files w.searchPath name with
      | none => (.error (missing name), w)
      | some found => w.run (loadFound runBody w.files name found) := by
  have hknown : w.run (known? name) = (.ok none, w) := by rw [run_known?, h.unregistered, h.uninstalled]
  have hdirectories : directoriesFor w name = .ok w.searchPath := by
    unfold directoriesFor
    rw [h.parentIn?]
  have hlast : lastPart name = name := by
    unfold lastPart
    rw [h.undivided]
    rfl
  unfold one
  rw [run_bind_ok hknown, run_bind_ok (run_get w), run_bind, run_lift, hdirectories, hlast, h.parentIn?]
  dsimp only
  cases search w.files w.searchPath name with
  | none => rfl
  | some found =>
      dsimp only
      rw [run_bind]
      rcases w.run (loadFound runBody w.files name found) with ⟨f | id, w'⟩ <;> rfl

theorem run_module_of_fresh (h : Fresh w name) : w.run (module runBody name) = w.run (one runBody name) := by
  have hdot : ¬ name.startsWith "." = true := by
    rw [String.startsWith_string_iff]
    intro hprefix
    have hmem : '.' ∈ name.toList := hprefix.subset (List.mem_singleton_self '.')
    have hpart : name ∈ parts name := h.undivided ▸ List.mem_singleton_self name
    exact undotted_of_mem_parts hpart hmem
  have hknown : w.run (known? name) = (.ok none, w) := by rw [run_known?, h.unregistered, h.uninstalled]
  have habove : unregisteredAbove w name = [] := by
    unfold unregisteredAbove
    rw [chain_undivided h.undivided]
    rfl
  unfold module
  rw [if_neg hdot, if_neg h.named, run_bind_ok hknown]
  dsimp only
  rw [run_bind_ok (run_get w), habove]
  rfl

/-- The world in which the body of a module is run that was found under a name. -/
def entering (w : World) (m : Module) : World :=
  { w with modules := w.modules.push { m with loading := true }
           registry := Ordered.insert m.name w.modules.size w.registry }

theorem run_load_error {m : Module} {body : ModuleId → Act Unit} {f : Failure} {w' : World}
    (h : (entering w m).run (body w.modules.size) = (.error f, w')) :
    w.run (load m body) = (.error f, { w' with registry := Ordered.erase m.name w'.registry }) := by
  unfold load
  rw [run_bind_ok (run_create w _), run_bind_ok (run_register _ _ _), run_bind, run_tryCatch, run_bind]
  rcases hrun : World.run _ (body w.modules.size) with ⟨f' | u, w''⟩
  · cases hrun.symm.trans h
    rfl
  · cases hrun.symm.trans h

/-- When the source of a module is defective or its body fails, so does the load, with the same failure. -/
theorem run_loadFound_error {directories : List String} {body : Except Failure (List Statement)} {f : Failure}
    {found : Found} (hbody : HasBody w.files directories name body)
    (hfound : search w.files directories name = some found)
    (hfails : ∀ m : Module, m.name = name →
      ∃ w', (entering w m).run (World.lift body >>= runBody w.modules.size) = (.error f, w')) :
    ∃ w', w.run (loadFound runBody w.files name found) = (.error f, w') := by
  obtain ⟨path, hpath, rfl⟩ := hbody
  rcases hpath with hsource | ⟨own, hpackage⟩
  · obtain rfl := Option.some.inj (hsource.symm.trans hfound)
    obtain ⟨w', hrun⟩ := hfails { name := name, file := some path } rfl
    exact ⟨_, run_load_error hrun⟩
  · obtain rfl := Option.some.inj (hpackage.symm.trans hfound)
    obtain ⟨w', hrun⟩ := hfails { name := name, file := some path, parts := some [own] } rfl
    exact ⟨_, run_load_error hrun⟩

theorem HasBody.exists_search {fs : Files} {directories : List String} {body : Except Failure (List Statement)}
    (h : HasBody fs directories name body) : ∃ found, search fs directories name = some found := by
  obtain ⟨path, hsource | ⟨own, hpackage⟩, -⟩ := h
  · exact ⟨_, hsource⟩
  · exact ⟨_, hpackage⟩

/-- The other names are as free as before while a body is run. -/
theorem Fresh.entering {m : Module} (h : Fresh w name) (hne : name ≠ m.name) : Fresh (entering w m) name :=
  { h with unregistered := (Ordered.find?_insert_ne hne _ _).trans h.unregistered }

/-- The import of a module fails with the failure of its body. -/
theorem run_module_error {body : Except Failure (List Statement)} {f : Failure} (h : Fresh w name)
    (hbody : HasBody w.files w.searchPath name body)
    (hfails : ∀ m : Module, m.name = name →
      ∃ w', (Import.entering w m).run (World.lift body >>= runBody w.modules.size) = (.error f, w')) :
    ∃ w', w.run (module runBody name) = (.error f, w') := by
  obtain ⟨found, hfound⟩ := hbody.exists_search
  rw [run_module_of_fresh h, run_one_of_fresh h, hfound]
  exact run_loadFound_error hbody hfound hfails

end Import

theorem run_runWithin_error {w w' : World} {f : Failure} {depth : Nat} {id : ModuleId} {s : Statement}
    (h : w.run (perform (runWithin depth) id s) = (.error f, w')) (rest : List Statement) :
    w.run (World.lift (.ok (s :: rest)) >>= runWithin (depth + 1) id) = (.error f, w') := by
  rw [run_bind_ok (run_lift_ok w _)]
  exact run_bind_error h fun _ => rest.forM (perform (runWithin depth) id)

/-- A failure passes as it is through all the imports that lead to it. -/
theorem run_module_of_leads {fs : Files} {directories : List String} {f : Failure} {names : List String}
    (h : Import.Leads fs directories f names) {w : World} (hfiles : w.files = fs) (hpath : w.searchPath = directories)
    (hfresh : ∀ n ∈ names, Import.Fresh w n) (hnodup : names.Nodup) {depth : Nat} (hdepth : names.length ≤ depth) :
    ∀ name ∈ names.head?, ∃ w', w.run (Import.module (runWithin depth) name) = (.error f, w') := by
  -- The name that comes first is not registered while the import is looked at, but it is while its body is run.
  induction h generalizing w depth with
  | @missing name hmissing =>
      rintro _ ⟨⟩
      have hname := hfresh name List.mem_cons_self
      refine ⟨w, ?_⟩
      rw [Import.run_module_of_fresh hname, Import.run_one_of_fresh hname, hfiles, hpath, hmissing]
  | @defective name f hbody =>
      rintro _ ⟨⟩
      subst hfiles hpath
      exact Import.run_module_error (hfresh name List.mem_cons_self) hbody fun m _ => ⟨_, rfl⟩
  | @fail name f rest hbody =>
      rintro _ ⟨⟩
      subst hfiles hpath
      obtain ⟨depth, rfl⟩ := Nat.exists_eq_add_one_of_ne_zero (Nat.ne_of_gt hdepth)
      exact Import.run_module_error (hfresh name List.mem_cons_self) hbody fun m _ =>
        ⟨_, run_runWithin_error (run_throw _ _) _⟩
  | @fetch name next f taken rest line hbody _ ih =>
      rintro _ ⟨⟩
      subst hfiles hpath
      obtain ⟨depth, rfl⟩ := Nat.exists_eq_add_one_of_ne_zero (Nat.ne_of_gt (Nat.zero_lt_of_lt hdepth))
      obtain ⟨hnotin, hnodup⟩ := List.nodup_cons.mp hnodup
      refine Import.run_module_error (hfresh name List.mem_cons_self) hbody fun m hm => ?_
      have hbehind : ∀ n ∈ next :: line, Import.Fresh (Import.entering w m) n := fun n hn =>
        (hfresh n (List.mem_cons_of_mem name hn)).entering fun heq => hnotin (hm ▸ heq ▸ hn)
      obtain ⟨w', hrun⟩ := ih (w := Import.entering w m) rfl rfl hbehind hnodup
        (Nat.le_of_succ_le_succ hdepth) next rfl
      exact ⟨w', run_runWithin_error (run_bind_error hrun _) rest⟩

/-- A module that imports others one behind the other is not found when the failure at the end is about itself, or
does not tell what is missing. Any other failure is that of the load. -/
theorem loadModule_of_leads {w : World} {f : Failure} {name : String} {line : List String} (config : Option String)
    (hname : Identifier name) (hdirectory : w.files.isDirectory name = false) (hfile : w.files.isFile name = false)
    (h : Import.Leads w.files w.searchPath f (name :: line)) (hfresh : ∀ n ∈ name :: line, Import.Fresh w n)
    (hnodup : (name :: line).Nodup) (hlength : line.length < importDepth) :
    (f.missing? = some none ∨ f.missing? = some (some name) →
      (w.run (loadModule name config)).1 = .error (notAModule name)) ∧
    (f.missing? ≠ some none → f.missing? ≠ some (some name) → (w.run (loadModule name config)).1 = .error f) := by
  have hfresh' : ∀ n ∈ name :: line, Import.Fresh (importing w name) n := fun n hn => { hfresh n hn with }
  obtain ⟨w', hrun⟩ := run_module_of_leads h (w := importing w name) rfl rfl hfresh' hnodup hlength name rfl
  have hchain : Import.chain name = [name] := Import.chain_undivided (hfresh name List.mem_cons_self).undivided
  have hdotted : Dotted name := ⟨[name], List.cons_ne_nil _ _, by simpa using hname, rfl⟩
  rw [run_loadModule_by_name config hdirectory hfile, if_pos (isModuleName_iff.mpr hdotted)]
  constructor
  · intro hmissing
    rw [run_loadNamed_of_lacks hrun]
    rcases hmissing with hmissing | hmissing
    · exact ⟨none, hmissing, by simp⟩
    · exact ⟨some name, hmissing, by simp [hchain]⟩
  · intro hnamed hother
    rw [run_loadNamed_of_not_lacks hrun]
    rintro ⟨_ | missing, hmissing, hmem⟩
    · exact hnamed hmissing
    · obtain rfl : missing = name := by simpa [hchain] using hmem missing rfl
      exact hother hmissing

end GrammarBench.Loading
