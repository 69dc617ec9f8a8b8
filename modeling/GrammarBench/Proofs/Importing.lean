import GrammarBench.Proofs.Bodies

/-!
# What imports may change

The imports that the bodies of modules make, and what is left alone by them: the files, the output and
the lines noted down, and the registry under every name that no module can be imported by.

* `World.Unimportable`: a name that no module has, neither an installed one nor one that is found along
  the search path.
* `World.Imported`: what imports may change.
* `Import.imported_module`, `imported_run`: imports and bodies change nothing else.
-/

namespace GrammarBench

open Loading

namespace World

/-- No module that is not there already can be imported under a name: it has no parts, no installed module
has it, and none is found along the search path. -/
structure Unimportable (w : World) (name : String) : Prop where
  undivided : Import.parts name = [name]
  uninstalled : Installed.find? name = none
  unfound : ∀ d ∈ w.searchPath, Import.searchDirectory w.files d name = none

/-- What is left alone by all work that registers modules by imports only. -/
structure Spared (w w' : World) : Prop where
  files : w'.files = w.files
  /-- Directories can only be taken off the front. -/
  searchPath : w'.searchPath <:+ w.searchPath
  modules : w.modules.size ≤ w'.modules.size
  registry : ∀ name, w.Unimportable name →
    Ordered.find? name w'.registry = Ordered.find? name w.registry

/-- What imports may change. -/
structure Imported (w w' : World) : Prop extends Spared w w' where
  output : w'.output = w.output
  log : w'.log = w.log

theorem Unimportable.spared {w w' : World} {name : String} (h : w.Unimportable name)
    (hw : Spared w w') : w'.Unimportable name where
  undivided := h.undivided
  uninstalled := h.uninstalled
  unfound := fun d hd => by
    rw [hw.files]
    exact h.unfound d (hw.searchPath.subset hd)

theorem Spared.refl (w : World) : Spared w w := ⟨rfl, List.suffix_refl _, Nat.le_refl _, fun _ _ => rfl⟩

theorem Spared.trans {w w' w'' : World} (h : Spared w w') (h' : Spared w' w'') : Spared w w'' where
  files := h'.files.trans h.files
  searchPath := h'.searchPath.trans h.searchPath
  modules := Nat.le_trans h.modules h'.modules
  registry := fun name hname => (h'.registry name (hname.spared h)).trans (h.registry name hname)

theorem Noted.spared {w w' : World} (h : Noted w w') : Spared w w' where
  files := h.files
  searchPath := h.searchPath ▸ List.suffix_refl _
  modules := Nat.le_of_eq (congrArg Array.size h.modules.symm)
  registry := fun name _ => by rw [h.registry]

namespace Imported

theorem refl (w : World) : Imported w w := ⟨Spared.refl w, rfl, rfl⟩

theorem trans {w w' w'' : World} (h : Imported w w') (h' : Imported w' w'') : Imported w w'' where
  toSpared := h.toSpared.trans h'.toSpared
  output := h'.output.trans h.output
  log := h'.log.trans h.log

instance : IsPreorder World Imported where
  refl := refl
  trans _ _ _ := trans

variable {w w' : World} {name : String}

theorem register (h : Imported w w') (hname : ¬ w.Unimportable name) (id : ModuleId) :
    Imported w { w' with registry := Ordered.insert name id w'.registry } :=
  { h with
    registry := fun other hother => by
      have hne : other ≠ name := fun heq => hname (heq ▸ hother)
      rw [Ordered.find?_insert_ne hne]
      exact h.registry other hother }

theorem unregister (h : Imported w w') (hname : ¬ w.Unimportable name) :
    Imported w { w' with registry := Ordered.erase name w'.registry } :=
  { h with
    registry := fun other hother => by
      have hne : other ≠ name := fun heq => hname (heq ▸ hother)
      rw [Ordered.find?_erase_ne hne]
      exact h.registry other hother }

theorem create (h : Imported w w') (m : Module) :
    Imported w { w' with modules := w'.modules.push m } :=
  { h with modules := Nat.le_trans h.modules (by simp) }

theorem update (h : Imported w w') (id : ModuleId) (change : Module → Module) :
    Imported w { w' with modules := w'.modules.modify id change } :=
  { h with modules := Nat.le_trans h.modules (by simp) }

theorem respects_update (id : ModuleId) (change : Module → Module) :
    Respects Imported (World.update id change) := fun w => (refl w).update id change

end Imported

end World

namespace Loading

open World

namespace Import

theorem run_known? (w : World) (name : String) :
    w.run (known? name) = match Ordered.find? name w.registry with
      | some id => (.ok (some id), w)
      | none => match Installed.find? name with
        | none => (.ok none, w)
        | some m => (.ok (some w.modules.size),
            { w with modules := w.modules.push m
                     registry := Ordered.insert name w.modules.size w.registry }) := by
  unfold known?
  rw [run_bind, run_get]
  dsimp only
  cases Ordered.find? name w.registry with
  | some id => rfl
  | none =>
      dsimp only
      cases Installed.find? name with
      | none => rfl
      | some m => rfl

theorem imported_known? (name : String) : Respects Imported (known? name) := by
  intro w
  rw [run_known?]
  cases Ordered.find? name w.registry with
  | some id => exact Imported.refl w
  | none =>
      dsimp only
      cases hinstalled : Installed.find? name with
      | none => exact Imported.refl w
      | some m =>
          refine ((Imported.refl w).create m).register (fun hname => ?_) _
          rw [hname.uninstalled] at hinstalled
          cases hinstalled

/-- A module that is loaded under a name that it can be imported by. -/
theorem imported_load {w : World} {m : Module} (hname : ¬ w.Unimportable m.name)
    {body : ModuleId → Act Unit} (hbody : ∀ id, Respects Imported (body id)) :
    Imported w (w.run (load m body)).2 := by
  have hregistered := ((Imported.refl w).create { m with loading := true }).register hname w.modules.size
  unfold load
  rw [run_bind_ok (run_create w _), run_bind_ok (run_register _ _ _), run_bind, run_tryCatch, run_bind]
  have hran := hregistered.trans (hbody w.modules.size _)
  rcases hrun : World.run _ (body w.modules.size) with ⟨f | u, w'⟩ <;> rw [hrun] at hran
  · exact hran.unregister hname
  · exact hran.update w.modules.size _

theorem imported_loadFound {w : World} {name : String} (hname : ¬ w.Unimportable name)
    {runBody : ModuleId → List Statement → Act Unit}
    (hbody : ∀ id statements, Respects Imported (runBody id statements)) (fs : Files) (found : Found) :
    Imported w (w.run (loadFound runBody fs name found)).2 := by
  cases found with
  | directories list => exact imported_load hname fun _ => Respects.pure _
  | compiled path => exact imported_load hname fun _ => Respects.bind (Respects.lift _) fun _ => Respects.throw _
  | source path => exact imported_load hname fun id => Respects.bind (Respects.lift _) (hbody id)
  | package path own => exact imported_load hname fun id => Respects.bind (Respects.lift _) (hbody id)

/-- What is found under a name can be imported under it. -/
theorem not_unimportable_of_search {w : World} {name : String} {directories : List String} {found : Found}
    (hdirectories : directoriesFor w name = .ok directories)
    (hfound : search w.files directories (lastPart name) = some found) : ¬ w.Unimportable name := by
  intro h
  have hparent : parent? name = none := by
    unfold parent?
    rw [h.undivided]
    rfl
  have hlast : lastPart name = name := by
    unfold lastPart
    rw [h.undivided]
    rfl
  unfold directoriesFor parentIn? at hdirectories
  rw [hparent] at hdirectories
  cases hdirectories
  have hnone : (w.searchPath.filterMap fun d => searchDirectory w.files d name) = [] := by
    rw [List.filterMap_eq_nil_iff]
    exact h.unfound
  unfold search at hfound
  rw [hlast, hnone] at hfound
  cases hfound

theorem imported_one {runBody : ModuleId → List Statement → Act Unit}
    (hbody : ∀ id statements, Respects Imported (runBody id statements)) (name : String) :
    Respects Imported (one runBody name) := by
  refine Respects.bind (imported_known? name) fun known => ?_
  cases known with
  | some id => exact Respects.pure id
  | none =>
      intro w
      dsimp only
      rw [run_bind_ok (run_get w), run_bind, run_lift]
      cases hdirectories : directoriesFor w name with
      | error f => exact Imported.refl w
      | ok directories =>
          dsimp only
          cases hfound : search w.files directories (lastPart name) with
          | none => exact Imported.refl w
          | some found =>
              have hname := not_unimportable_of_search hdirectories hfound
              have hloaded := imported_loadFound hname hbody w.files found
              dsimp only
              rw [run_bind]
              rcases hrun : w.run (loadFound runBody w.files name found) with ⟨f | id, w'⟩ <;>
                rw [hrun] at hloaded
              · exact hloaded
              · cases parentIn? w name with
                | none => exact hloaded
                | some parent => exact hloaded.update parent.2 _

end Import

/-! ## Bodies -/

theorem stepwise_imported : Stepwise Imported where
  known := Import.imported_known?
  one _ hbody := Import.imported_one hbody
  bind _ _ _ := Imported.respects_update _ _
  unbind _ _ := Imported.respects_update _ _
  number w := { Imported.refl w with }
  shorten w := { Imported.refl w with searchPath := List.tail_suffix _ }

/-- An import changes nothing but what imports may change, if bodies do not. -/
theorem Import.imported_module {runBody : ModuleId → List Statement → Act Unit}
    (hbody : ∀ id statements, Respects Imported (runBody id statements)) (name : String) :
    Respects Imported (Import.module runBody name) := stepwise_imported.module hbody name

/-- A body changes nothing but what imports may change. -/
theorem imported_run (id : ModuleId) (statements : List Statement) :
    Respects Imported (Loading.run id statements) := stepwise_imported.run id statements

end Loading

end GrammarBench
