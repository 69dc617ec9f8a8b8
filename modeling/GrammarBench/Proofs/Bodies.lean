import GrammarBench.Loading.Import
import GrammarBench.Proofs.Worlds

/-!
# What bodies keep

A relation between worlds that each step of a body keeps to is kept to by the body as a whole, however far it
imports other modules.

* `Loading.Stepwise`: a relation that the steps keep to which bodies and imports are made of.
* `Stepwise.module`, `Stepwise.run`: imports and bodies keep to it.
-/

namespace GrammarBench.Loading

open World

/-- A relation that the steps keep to which bodies and imports are made of. -/
structure Stepwise (R : World → World → Prop) : Prop where
  /-- A module is looked up that may be an installed one. -/
  known : ∀ name, Respects R (Import.known? name)
  /-- A single module is imported, whose body keeps to the relation. -/
  one : ∀ runBody, (∀ id statements, Respects R (runBody id statements)) → ∀ name,
    Respects R (Import.one runBody name)
  bind : ∀ id name b, Respects R (World.update id fun m => m.bind name b)
  unbind : ∀ id name, Respects R (World.update id fun m => m.unbind name)
  number : ∀ w : World, R w { w with nextClass := w.nextClass + 1 }
  shorten : ∀ w : World, R w { w with searchPath := w.searchPath.tail }

namespace Stepwise

variable {R : World → World → Prop} [IsPreorder World R] {runBody : ModuleId → List Statement → Act Unit}

/-- An import by name, with the modules above it. -/
theorem module (h : Stepwise R) (hbody : ∀ id statements, Respects R (runBody id statements)) (name : String) :
    Respects R (Import.module runBody name) := by
  unfold Import.module
  split
  · exact Respects.throw _
  · split
    · exact Respects.throw _
    · refine Respects.bind (h.known name) fun known => ?_
      cases known with
      | some id => exact Respects.pure id
      | none =>
          refine Respects.bind Respects.get fun w => Respects.bind (Respects.forM fun above _ => ?_) fun _ => ?_
          · exact Respects.bind (h.one runBody hbody above) fun _ => Respects.pure _
          · exact h.one runBody hbody name

/-- A name of a module is looked up, or a part of a package is imported. -/
theorem take (h : Stepwise R) (hbody : ∀ id statements, Respects R (runBody id statements)) (id : ModuleId)
    (name : String) : Respects R (Import.take runBody id name) := by
  refine Respects.bind Respects.get fun w => ?_
  dsimp only
  cases (w.module id).get? name with
  | some b => exact Respects.pure b
  | none =>
      dsimp only
      split
      · refine Respects.bind (Respects.tryCatch ?_ fun f => ?_) fun e => ?_
        · exact Respects.bind (h.one runBody hbody _) fun _ => Respects.pure _
        · split
          · exact Respects.throw_bind _ _
          · exact Respects.throw_bind _ _
        · cases e with
          | error b => exact Respects.pure _
          | ok b => exact Respects.pure _
      · exact Respects.throw _

theorem perform (h : Stepwise R) (hbody : ∀ id statements, Respects R (runBody id statements)) (id : ModuleId)
    (s : Statement) : Respects R (Loading.perform runBody id s) := by
  cases s with
  | define name bases members home =>
      refine Respects.bind Respects.get fun w => ?_
      refine Respects.bind (Respects.lift _) fun bases => ?_
      refine Respects.bind (Respects.lift _) fun c => ?_
      exact Respects.bind h.number fun _ => h.bind _ _ _
  | assign name value => exact h.bind _ _ _
  | copy name source =>
      refine Respects.bind Respects.get fun w => ?_
      cases (w.module id).get? source with
      | some b => exact h.bind _ _ _
      | none => exact Respects.throw _
  | remove name =>
      refine Respects.bind Respects.get fun w => ?_
      cases (w.module id).get? name with
      | some b => exact h.unbind _ _
      | none => exact Respects.throw _
  | fail f => exact Respects.throw f
  | shortenSearch => exact h.shorten
  | fetch name names =>
      refine Respects.bind (h.module hbody name) fun found => ?_
      cases names with
      | none => exact h.bind _ _ _
      | some names =>
          refine Respects.bind (Respects.forIn (fun n _ => ?_) names _) fun _ => Respects.pure _
          refine Respects.bind (h.take hbody found n) fun b => ?_
          exact Respects.bind (h.bind _ _ _) fun _ => Respects.pure _

/-- By induction on the depth of the imports inside one another. -/
theorem runWithin (h : Stepwise R) (depth : Nat) (id : ModuleId) (statements : List Statement) :
    Respects R (Loading.runWithin depth id statements) := by
  induction depth generalizing id statements with
  | zero => exact Respects.throw _
  | succ depth ih => exact Respects.forM fun s _ => h.perform ih id s

/-- A body keeps to the relation, whatever it defines, copies, removes and imports. -/
theorem run (h : Stepwise R) (id : ModuleId) (statements : List Statement) :
    Respects R (Loading.run id statements) :=
  h.runWithin importDepth id statements

end Stepwise

end GrammarBench.Loading
