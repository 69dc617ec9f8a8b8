import GrammarBench.Proofs.Bodies

/-!
# Namespaces

However a body binds, removes and imports names, every module binds each name once.

* `Ordered.nodup_insert`, `Ordered.nodup_erase`: keys stay different.
* `Ordered.find?_eq_some_iff`: what a look-up among different keys finds.
* `Module.Tidy`: each name of a module is bound once.
* `tidy_run`: bodies keep all modules tidy.
-/

namespace GrammarBench

namespace Ordered

variable {α : Type} {entries : List (String × α)} {key : String}

theorem mem_keys_insert {value : α} {k : String} (h : k ∈ (insert key value entries).map (·.1)) :
    k = key ∨ k ∈ entries.map (·.1) := by
  induction entries with
  | nil => exact Or.inl (List.mem_singleton.mp h)
  | cons e rest ih =>
      obtain ⟨k', v⟩ := e
      unfold insert at h
      split at h
      · exact Or.inr h
      · rcases List.mem_cons.mp h with rfl | h
        · exact Or.inr List.mem_cons_self
        · exact (ih h).imp_right (List.mem_cons_of_mem _)

theorem nodup_insert (h : (entries.map (·.1)).Nodup) (value : α) :
    ((insert key value entries).map (·.1)).Nodup := by
  induction entries with
  | nil => exact List.nodup_cons.mpr ⟨List.not_mem_nil, List.nodup_nil⟩
  | cons e rest ih =>
      obtain ⟨k, v⟩ := e
      rw [List.map_cons, List.nodup_cons] at h
      unfold insert
      split
      · exact List.nodup_cons.mpr h
      · next hne =>
        refine List.nodup_cons.mpr ⟨fun hmem => ?_, ih h.2⟩
        rcases mem_keys_insert hmem with hsame | hmem
        · exact hne hsame
        · exact h.1 hmem

theorem nodup_erase (h : (entries.map (·.1)).Nodup) : ((erase key entries).map (·.1)).Nodup :=
  h.sublist (List.filter_sublist.map _)

/-- A look-up among different keys finds just what stands there. -/
theorem find?_eq_some_iff (hnodup : (entries.map (·.1)).Nodup)
    {name : String} {a : α} : Ordered.find? name entries = some a ↔ (name, a) ∈ entries := by
  unfold Ordered.find?
  induction entries with
  | nil => simp
  | cons e rest ih =>
      obtain ⟨k, b⟩ := e
      rw [List.map_cons, List.nodup_cons] at hnodup
      rw [List.lookup_cons, List.mem_cons, Prod.mk.injEq, ← ih hnodup.2]
      by_cases hk : name = k
      · have hnone : rest.lookup name = none := by
          rw [List.lookup_eq_none_iff]
          intro e he
          rw [bne_iff_ne, hk]
          exact fun hsame => hnodup.1 (List.mem_map.mpr ⟨e, he, hsame.symm⟩)
        rw [beq_iff_eq.mpr hk, hnone]
        simp [hk, eq_comm]
      · rw [beq_eq_false_iff_ne.mpr hk]
        simp [hk]

theorem find?_eq_of_perm {entries' : List (String × α)} (hperm : entries'.Perm entries)
    (hnodup : (entries.map (·.1)).Nodup) (name : String) :
    Ordered.find? name entries' = Ordered.find? name entries := by
  have hnodup' : (entries'.map (·.1)).Nodup := (hperm.map _).nodup_iff.mpr hnodup
  refine Option.ext fun a => ?_
  rw [find?_eq_some_iff hnodup, find?_eq_some_iff hnodup']
  exact hperm.mem_iff

end Ordered

namespace Module

/-- Each name is bound once. -/
def Tidy (m : Module) : Prop := (m.names.map (·.1)).Nodup

theorem Tidy.bind {m : Module} (h : m.Tidy) (name : String) (b : Bound) : (m.bind name b).Tidy :=
  Ordered.nodup_insert h b

theorem Tidy.unbind {m : Module} (h : m.Tidy) (name : String) : (m.unbind name).Tidy :=
  Ordered.nodup_erase h

end Module

namespace World

/-- All modules are tidy. -/
def Tidy (w : World) : Prop := ∀ m ∈ w.modules, m.Tidy

/-- Tidy modules stay tidy. -/
def KeepsTidy (w w' : World) : Prop := w.Tidy → w'.Tidy

instance : IsPreorder World KeepsTidy where
  refl _ := id
  trans _ _ _ h h' := h' ∘ h

theorem keepsTidy_of_modules {w w' : World} (h : w'.modules = w.modules) : KeepsTidy w w' := by
  unfold KeepsTidy Tidy
  rw [h]
  exact id

theorem tidy_create {m : Module} (hm : m.Tidy) : Respects KeepsTidy (create m) := by
  intro w hw m' hm'
  rw [run_create] at hm'
  rcases Array.mem_push.mp hm' with hm' | rfl
  · exact hw m' hm'
  · exact hm

theorem tidy_register (name : String) (id : ModuleId) : Respects KeepsTidy (register name id) :=
  fun _ => keepsTidy_of_modules rfl

theorem tidy_unregister (name : String) : Respects KeepsTidy (unregister name) :=
  fun _ => keepsTidy_of_modules rfl

theorem tidy_update (id : ModuleId) {change : Module → Module} (hchange : ∀ m, m.Tidy → (change m).Tidy) :
    Respects KeepsTidy (update id change) := by
  intro w hw m' hm'
  have hmem : m' ∈ w.modules.modify id change := hm'
  obtain ⟨i, hi, rfl⟩ := Array.mem_iff_getElem.mp hmem
  rw [Array.getElem_modify]
  split
  · exact hchange _ (hw _ (Array.getElem_mem _))
  · exact hw _ (Array.getElem_mem _)

theorem tidy_bind (id : ModuleId) (name : String) (b : Bound) :
    Respects KeepsTidy (update id fun m => m.bind name b) :=
  tidy_update id fun _ h => h.bind name b

end World

namespace Loading

open World

variable {runBody : ModuleId → List Statement → Act Unit}

theorem tidy_installed {name : String} {m : Module} (h : Installed.find? name = some m) : m.Tidy := by
  have hown : ∀ e ∈ Installed.own, (e.2.map (·.1)).Nodup := by decide
  unfold Installed.find? at h
  split at h
  · cases h
    exact List.nodup_nil
  · split at h
    · cases h
      exact List.nodup_nil
    · obtain ⟨names, hnames, rfl⟩ := Option.map_eq_some_iff.mp h
      obtain ⟨before, behind, heq, -⟩ := List.lookup_eq_some_iff.mp hnames
      exact hown (name, names) (heq ▸ List.mem_append_right _ List.mem_cons_self)

namespace Import

theorem tidy_known? (name : String) : Respects KeepsTidy (known? name) := by
  refine Respects.bind Respects.get fun w => ?_
  cases Ordered.find? name w.registry with
  | some id => exact Respects.pure _
  | none =>
      cases hinstalled : Installed.find? name with
      | none => exact Respects.pure _
      | some m =>
          exact Respects.bind (tidy_create (tidy_installed hinstalled)) fun id =>
            Respects.bind (tidy_register name id) fun _ => Respects.pure _

theorem tidy_load {m : Module} (hm : m.Tidy) {body : ModuleId → Act Unit}
    (hbody : ∀ id, Respects KeepsTidy (body id)) : Respects KeepsTidy (load m body) := by
  refine Respects.bind (tidy_create hm) fun id => Respects.bind (tidy_register _ id) fun _ => ?_
  refine Respects.bind (Respects.tryCatch (Respects.bind (hbody id) fun _ => ?_) fun f => ?_) fun e => ?_
  · exact Respects.bind (tidy_update id fun _ h => h) fun _ => Respects.pure _
  · exact Respects.bind (tidy_unregister _) fun _ => Respects.throw_bind _ _
  · cases e with
    | error id => exact Respects.pure _
    | ok u => exact Respects.pure _

/-- A module that binds nothing yet. -/
theorem tidy_unbound {m : Module} (h : m.names = []) : m.Tidy := by
  unfold Module.Tidy
  rw [h]
  exact List.nodup_nil

theorem tidy_loadFound (hbody : ∀ id statements, Respects KeepsTidy (runBody id statements)) (fs : Files)
    (name : String) (found : Found) : Respects KeepsTidy (loadFound runBody fs name found) := by
  cases found with
  | directories list => exact tidy_load (tidy_unbound rfl) fun _ => Respects.pure _
  | compiled path =>
      exact tidy_load (tidy_unbound rfl) fun _ => Respects.bind (Respects.lift _) fun _ => Respects.throw _
  | source path => exact tidy_load (tidy_unbound rfl) fun id => Respects.bind (Respects.lift _) (hbody id)
  | package path own => exact tidy_load (tidy_unbound rfl) fun id => Respects.bind (Respects.lift _) (hbody id)

theorem tidy_one (hbody : ∀ id statements, Respects KeepsTidy (runBody id statements)) (name : String) :
    Respects KeepsTidy (one runBody name) := by
  refine Respects.bind (tidy_known? name) fun known => ?_
  cases known with
  | some id => exact Respects.pure id
  | none =>
      refine Respects.bind Respects.get fun w => Respects.bind (Respects.lift _) fun directories => ?_
      cases search w.files directories (lastPart name) with
      | none => exact Respects.throw _
      | some found =>
          refine Respects.bind (tidy_loadFound hbody _ _ found) fun id => ?_
          cases parentIn? w name with
          | none => exact Respects.pure _
          | some parent => exact Respects.bind (tidy_bind _ _ _) fun _ => Respects.pure _

end Import

theorem stepwise_keepsTidy : Stepwise KeepsTidy where
  known := Import.tidy_known?
  one _ hbody := Import.tidy_one hbody
  bind := tidy_bind
  unbind id name := tidy_update id fun _ h => h.unbind name
  number _ := keepsTidy_of_modules rfl
  shorten _ := keepsTidy_of_modules rfl

/-- Bodies keep all modules tidy, whatever they define, copy, remove and import. -/
theorem tidy_run (id : ModuleId) (statements : List Statement) :
    Respects KeepsTidy (Loading.run id statements) := stepwise_keepsTidy.run id statements

end Loading

end GrammarBench
