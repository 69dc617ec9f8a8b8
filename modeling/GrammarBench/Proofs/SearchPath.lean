import Mathlib.Data.List.Perm.Subperm
import GrammarBench.Proofs.Compilation

/-!
# The search path of a compilation

While the bodies of a module are run, what the module refers to stands in front of the search path. It is
taken off again by value, each entry once, so that what is left behind depends on what the bodies have taken
off in the meantime.

* `foldl_erase_append`: taking off entries of which some are gone already.
* `World.searchPath_withSearchPath`: what any work under a longer search path leaves behind.
* `Loading.compileModule_searchPath`: what a compilation leaves behind.
-/

namespace GrammarBench

/-! ## Taking entries off by value -/

/-- Of the entries to take off some may be gone already; none of them is in the rest, so the rest stays. -/
theorem foldl_erase_append {added front rest : List String} (hfront : front.Subperm added)
    (hadded : ∀ d ∈ added, d ∉ rest) : added.foldl List.erase (front ++ rest) = rest := by
  -- By induction on the entries to take off: what is left in front stays among those that are to come.
  induction added generalizing front with
  | nil => rw [List.subperm_nil.mp hfront, List.nil_append, List.foldl_nil]
  | cons d others ih =>
      have hhere : (front ++ rest).erase d = front.erase d ++ rest := by
        by_cases hd : d ∈ front
        · exact List.erase_append_left rest hd
        · rw [List.erase_append_right rest hd, List.erase_of_not_mem (hadded d List.mem_cons_self),
            List.erase_of_not_mem hd]
      have hothers : (front.erase d).Subperm others := by
        simpa using hfront.erase d
      rw [List.foldl_cons, hhere]
      exact ih hothers fun d' hd' => hadded d' (List.mem_cons_of_mem d hd')

/-- When some of the first entries are gone, those that were added account for the loss first. -/
theorem foldl_erase_drop {added rest : List String} (hadded : ∀ d ∈ added, d ∉ rest) (k : Nat) :
    added.foldl List.erase ((added ++ rest).drop k) = rest.drop (k - added.length) := by
  rw [List.drop_append]
  exact foldl_erase_append (List.drop_sublist k added).subperm
    fun d hd hrest => hadded d hd (List.drop_subset _ _ hrest)

namespace World

variable {α β : Type}

/-- Further work that leaves the search path alone. -/
theorem searchPath_bind {x : Act α} {next : α → Act β}
    (hnext : ∀ (a : α) (w : World), (w.run (next a)).2.searchPath = w.searchPath) (w : World) :
    (w.run (x >>= next)).2.searchPath = (w.run x).2.searchPath := by
  rw [run_bind]
  rcases w.run x with ⟨f | a, w'⟩
  · rfl
  · exact hnext a w'

/-- The world in which work under a longer search path starts. -/
def searching (w : World) (directories : List String) : World :=
  { w with searchPath := w.added directories ++ w.searchPath }

theorem not_mem_of_mem_added {w : World} {directories : List String} {d : String}
    (hd : d ∈ w.added directories) : d ∉ w.searchPath := by
  simpa [added] using (List.mem_filter.mp hd).2

/-- Whatever the work is and whatever comes of it: when all that it does to the search path is to take the
first entries off, then the search path loses only what was not added before. -/
theorem searchPath_withSearchPath (w : World) (directories : List String) (act : Act α) (k : Nat)
    (hact : ((w.searching directories).run act).2.searchPath =
      (w.searching directories).searchPath.drop k) :
    (w.run (withSearchPath directories act)).2.searchPath =
      w.searchPath.drop (k - (w.added directories).length) := by
  rw [run_withSearchPath]
  show (w.added directories).foldl List.erase ((w.searching directories).run act).2.searchPath = _
  rw [hact]
  exact foldl_erase_drop (fun _ => not_mem_of_mem_added) k

end World

namespace Loading

open Compile World

/-- The bodies of a draft, run one after the other in its new module. -/
def Compile.runDraft (w : World) (d : Draft) : Option (String × Failure) × World :=
  runAll w.modules.size (entered w d) d.bodies

/-- When the bodies take the first `k` entries off the search path, the module is made, or fails to be
made, at the cost of those that were not added for it. -/
theorem Compile.searchPath_build {w : World} {d : Draft} {k : Nat}
    (hran : (runDraft w d).2.searchPath = (entered w d).searchPath.drop k) :
    (w.run (build d)).2.searchPath = w.searchPath.drop (k - (w.added d.paths).length) := by
  unfold build
  rw [run_bind_ok (run_create w _), run_bind_ok (run_register _ _ _), searchPath_bind fun _ _ => rfl]
  refine searchPath_withSearchPath _ _ _ k ?_
  rw [run_runBodies]
  unfold runDraft at hran
  rcases hall : runAll w.modules.size (entered w d) d.bodies with ⟨_ | ⟨path, f⟩, w'⟩ <;> rw [hall] at hran <;>
    unfold entered at hall <;> dsimp only [searching, added] at hall ⊢ <;> rw [hall] <;> exact hran

theorem Compile.drafted_of_prepare {w w₀ : World} {files references : List String} {name : String}
    {options : List (String × Value)} {d : Draft}
    (hprepare : w.run (prepare files references name options) = (.ok d, w₀)) :
    Drafted w.files name options files references d := by
  have hrun := run_prepare w files references name options
  dsimp only at hrun
  rw [hprepare] at hrun
  split at hrun
  · cases hrun
  · split at hrun
    · cases hrun
    · split at hrun
      · obtain ⟨d', heq, hdrafted⟩ := hrun
        cases heq
        exact hdrafted
      · cases hrun

/-- A compilation of which nothing is wrong runs its bodies with the references that are paths in front of
the search path, those that are not on it already. The bodies, with all that they import, can only take
entries off the front, and when they take `k` of them off, then the search path ends without the first
`k - a` entries that it had, where `a` is the number of entries added, whether or not a body fails. -/
theorem compileModule_searchPath (w w₀ : World) (files references : List String) (name : Option String)
    (options : List (String × Value)) (d : Draft)
    (hprepare : w.run (prepare files references (nameOrDefault name) options) = (.ok d, w₀)) :
    let paths := (references.filter w.files.exists?).map w.files.absolute
    let added := paths.filter (· ∉ w₀.searchPath)
    let outcome := w.run (compileModule files references name options)
    let ran := runDraft w₀ d
    (entered w₀ d).searchPath = added ++ w₀.searchPath ∧
      outcome.1 = ran.1.elim (.ok w₀.modules.size) (fun failed => .error (bodyFailure failed.1 failed.2)) ∧
      (∃ k, ran.2.searchPath = (entered w₀ d).searchPath.drop k) ∧
      ∀ k, ran.2.searchPath = (entered w₀ d).searchPath.drop k →
        outcome.2.searchPath = w₀.searchPath.drop (k - added.length) := by
  intro paths added outcome ran
  have hadded : w₀.added d.paths = added := by
    rw [(drafted_of_prepare hprepare).paths]
    exact List.filter_congr fun path _ => by simp
  have hentered : (entered w₀ d).searchPath = added ++ w₀.searchPath := by
    rw [← hadded]
    rfl
  have houtcome : outcome = w₀.run (build d) := run_bind_ok hprepare _
  refine ⟨hentered, ?_, ?_, ?_⟩
  · rw [houtcome, run_build]
    show _ = (runAll w₀.modules.size (entered w₀ d) d.bodies).1.elim _ _
    rcases runAll w₀.modules.size (entered w₀ d) d.bodies with ⟨_ | failed, w'⟩ <;> rfl
  · obtain ⟨taken, htaken⟩ := (imported_runAll w₀.modules.size (entered w₀ d) d.bodies).searchPath
    refine ⟨taken.length, ?_⟩
    rw [← htaken, List.drop_left]
    rfl
  · intro k hk
    rw [houtcome, searchPath_build hk, hadded]

/-- Two bodies that take three entries off the search path, the second of which fails. -/
def shortening : World :=
  { files := (((Files.empty ["w"]).put "lib/x.py" (.program (.body []))).put "g/a.py"
      (.program (.body [.shortenSearch, .shortenSearch]))).put "g/b.py"
      (.program (.body [.shortenSearch, .fail (.fault .runtime "stop"), .shortenSearch]))
    searchPath := ["/w/g", "/opt", "/w/g"] }

/-- One reference is given twice, and one is on the search path already. -/
theorem compileModule_searchPath_shortening :
    ∃ d w₀, shortening.run (prepare ["g/a.py", "g/b.py"] ["lib", "g", "lib"]
        (nameOrDefault (some "m")) []) = (.ok d, w₀) ∧
      (entered w₀ d).searchPath = ["/w/lib", "/w/lib", "/w/g", "/opt", "/w/g"] ∧
      (shortening.run (compileModule ["g/a.py", "g/b.py"] ["lib", "g", "lib"] (some "m") [])).2.searchPath =
        ["/opt", "/w/g"] := by
  have hran : (shortening.run (prepare ["g/a.py", "g/b.py"] ["lib", "g", "lib"] (nameOrDefault (some "m"))
      [])).1.toOption.map (fun d =>
        let w₀ := (shortening.run (prepare ["g/a.py", "g/b.py"] ["lib", "g", "lib"]
          (nameOrDefault (some "m")) [])).2
        (w₀.searchPath, (runDraft w₀ d).2.searchPath)) =
      some (["/w/g", "/opt", "/w/g"], ["/opt", "/w/g"]) := by decide +kernel
  have hadded : (["lib", "g", "lib"].filter shortening.files.exists?).map shortening.files.absolute =
      ["/w/lib", "/w/g", "/w/lib"] := by decide +kernel
  rcases hprepare : shortening.run (prepare ["g/a.py", "g/b.py"] ["lib", "g", "lib"]
    (nameOrDefault (some "m")) []) with ⟨f | d, w₀⟩
  · rw [hprepare] at hran
    cases hran
  · rw [hprepare] at hran
    obtain ⟨hpath, hleft⟩ := Prod.mk.inj (Option.some.inj hran)
    obtain ⟨hentered, -, -, hlaw⟩ := compileModule_searchPath shortening w₀ ["g/a.py", "g/b.py"]
      ["lib", "g", "lib"] (some "m") [] d hprepare
    rw [hadded, hpath] at hentered hlaw
    refine ⟨d, w₀, rfl, hentered.trans (by decide), ?_⟩
    exact (hlaw 3 (hleft.trans (by rw [hentered]; decide))).trans (by decide)

end Loading

end GrammarBench
