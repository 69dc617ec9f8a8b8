import Mathlib.Order.Defs.Unbundled
import GrammarBench.World

/-!
# Work on a world

* `Lines.before`: what comes of writing some lines first, up to one that fails.
* `World.run`: what comes of some work, and the world behind it.
* `World.run_bind`, `World.run_tryCatch`: work that is put together of other work.
* `World.Respects`: work that leads from every world to one that a relation allows.
* `World.Noted`: worlds that differ in what has been noted down and in the number for the next class.
-/

namespace GrammarBench

variable {α β : Type}

namespace Lines

/-- Some lines when they are to be shown, and none otherwise. -/
def onlyIf (lines : Lines) (shown : Bool) : Lines := if shown then lines else []

theorem mem_onlyIf {lines : Lines} {shown : Bool} {line : Except Failure String}
    (h : line ∈ (lines.onlyIf shown : List (Except Failure String))) :
    shown = true ∧ line ∈ (lines : List (Except Failure String)) := by
  unfold onlyIf at h
  split at h
  · exact ⟨‹_›, h⟩
  · cases h

/-- What comes of writing some lines before something else is come to. -/
def before (lines : Lines) (r : Except Failure α) : Except Failure α := lines.failure?.elim r .error

@[simp] theorem before_nil (r : Except Failure α) : before [] r = r := rfl

theorem before_eq_ok {lines : Lines} {r : Except Failure α} {a : α} :
    lines.before r = .ok a ↔ lines.failure? = none ∧ r = .ok a := by
  unfold before
  cases lines.failure? <;> simp

theorem failure?_eq_none {lines : Lines} :
    lines.failure? = none ↔ ∀ line ∈ (lines : List (Except Failure String)), ∃ written, line = .ok written := by
  induction lines with
  | nil => exact ⟨fun _ _ h => (nomatch h), fun _ => rfl⟩
  | cons line rest ih => cases line <;> simp [failure?, ih]

theorem text_map_ok (written : List String) : text (written.map .ok) = String.join (written.map (· ++ "\n")) := by
  induction written with
  | nil => rfl
  | cons line rest ih =>
      rw [List.map_cons, List.map_cons, String.join_cons, ← ih]
      rfl

theorem failure?_append (lines others : Lines) :
    failure? (lines ++ others) = lines.failure?.or others.failure? := by
  induction lines with
  | nil => rfl
  | cons line rest ih => cases line <;> simp [failure?, ih]

theorem before_append (lines others : Lines) (r : Except Failure α) :
    (lines ++ others : Lines).before r = lines.before (others.before r) := by
  unfold before
  rw [failure?_append]
  cases lines.failure? <;> rfl

theorem text_append (lines others : Lines) : text (lines ++ others) =
    lines.text ++ if lines.failure?.isNone then others.text else "" := by
  induction lines with
  | nil => simp [text, failure?]
  | cons line rest ih =>
      cases line with
      | error f => simp [text, failure?]
      | ok line => simp [text, failure?, ih, String.append_assoc]

end Lines

namespace World

/-- What comes of some work on a world, and the world behind it. -/
def run (w : World) (act : Act α) : Except Failure α × World := ExceptT.run act w

@[simp] theorem run_pure (w : World) (a : α) : w.run (pure a) = (.ok a, w) := rfl

@[simp] theorem run_throw (w : World) (f : Failure) : w.run (throw f : Act α) = (.error f, w) := rfl

@[simp] theorem run_get (w : World) : w.run (get : Act World) = (.ok w, w) := rfl

@[simp] theorem run_set (w w' : World) : w.run (set w' : Act PUnit) = (.ok ⟨⟩, w') := rfl

@[simp] theorem run_lift_ok (w : World) (a : α) : w.run (lift (.ok a)) = (.ok a, w) := rfl

@[simp] theorem run_lift_error (w : World) (f : Failure) :
    w.run (lift (.error f : Except Failure α)) = (.error f, w) := rfl

theorem run_lift (w : World) (r : Except Failure α) : w.run (lift r) = (r, w) := by
  cases r <;> rfl

@[simp] theorem run_note (w : World) (level : LogLevel) (speaker message : String) :
    w.run (note level speaker message) = (.ok ⟨⟩, { w with log := ⟨level, speaker, message⟩ :: w.log }) :=
  rfl

@[simp] theorem run_noteAll (w : World) (lines : List LogLine) :
    w.run (noteAll lines) = (.ok ⟨⟩, { w with log := lines.reverse ++ w.log }) := rfl

@[simp] theorem run_print (w : World) (text : String) :
    w.run (print text) = (.ok ⟨⟩, { w with output := w.output ++ text }) := rfl

@[simp] theorem run_create (w : World) (m : Module) :
    w.run (create m) = (.ok w.modules.size, { w with modules := w.modules.push m }) := rfl

@[simp] theorem run_register (w : World) (name : String) (id : ModuleId) :
    w.run (register name id) = (.ok ⟨⟩, { w with registry := Ordered.insert name id w.registry }) :=
  rfl

theorem run_bind (w : World) (x : Act α) (f : α → Act β) :
    w.run (x >>= f) = match w.run x with
      | (.ok a, w') => w'.run (f a)
      | (.error e, w') => (.error e, w') := by
  unfold run
  rw [ExceptT.run_bind]
  show StateT.bind (ExceptT.run x) _ w = _
  unfold StateT.bind
  rcases ExceptT.run x w with ⟨_ | a, w'⟩ <;> rfl

theorem run_tryCatch (w : World) (x : Act α) (handle : Failure → Act α) :
    w.run (tryCatch x handle) = match w.run x with
      | (.ok a, w') => (.ok a, w')
      | (.error e, w') => w'.run (handle e) := by
  unfold run
  rw [ExceptT.run_tryCatch]
  show StateT.bind (ExceptT.run x) _ w = _
  unfold StateT.bind
  rcases ExceptT.run x w with ⟨_ | a, w'⟩ <;> rfl

theorem run_bind_ok {w w' : World} {x : Act α} {a : α} (h : w.run x = (.ok a, w')) (f : α → Act β) :
    w.run (x >>= f) = w'.run (f a) := by
  rw [run_bind, h]

theorem run_bind_error {w w' : World} {x : Act α} {e : Failure} (h : w.run x = (.error e, w'))
    (f : α → Act β) : w.run (x >>= f) = (.error e, w') := by
  rw [run_bind, h]

theorem run_printLines (w : World) (shown : Bool) (lines : Lines) :
    w.run (printLines shown lines) = ((lines.onlyIf shown).before (.ok ⟨⟩),
      { w with output := w.output ++ (lines.onlyIf shown).text }) := by
  unfold printLines Lines.onlyIf
  cases shown with
  | false => simp [Lines.before, Lines.failure?, Lines.text]
  | true =>
      simp only [if_true]
      induction lines generalizing w with
      | nil => simp [Lines.before, Lines.failure?, Lines.text]
      | cons line rest ih =>
          show w.run ((lift line >>= fun written => print (written ++ "\n")) >>= fun _ => rest.forM _) = _
          cases line with
          | error f => simp [run_bind, Lines.before, Lines.failure?, Lines.text]
          | ok line =>
              rw [bind_assoc, run_bind_ok (run_lift_ok w line), run_bind_ok (run_print w _), ih]
              simp only [Lines.before, Lines.failure?, Lines.text, String.append_assoc]

/-- The world with some directories taken off the search path, each once. -/
def without (w : World) (directories : List String) : World :=
  { w with searchPath := directories.foldl List.erase w.searchPath }

/-- The directories put in front of the search path are taken off again, whatever comes of the work. -/
theorem run_withSearchPath (w : World) (directories : List String) (act : Act α) :
    w.run (withSearchPath directories act) =
      (({ w with searchPath := w.added directories ++ w.searchPath }.run act).1,
        ({ w with searchPath := w.added directories ++ w.searchPath }.run act).2.without
          (w.added directories)) := by
  unfold withSearchPath
  rw [run_bind_ok (run_get w), run_bind_ok (run_set w _), run_bind, run_tryCatch]
  rcases World.run _ act with ⟨f | a, w'⟩ <;> rfl

/-! ## What work keeps -/

/-- From every world the work leads to one that the relation allows, whatever comes of it. -/
def Respects (R : World → World → Prop) (act : Act α) : Prop := ∀ w, R w (w.run act).2

namespace Respects

variable {R : World → World → Prop} [IsPreorder World R]

theorem pure (a : α) : Respects R (Pure.pure a : Act α) := fun w => refl_of R w

theorem throw (f : Failure) : Respects R (MonadExcept.throw f : Act α) := fun w => refl_of R w

theorem throw_bind (f : Failure) (rest : α → Act β) :
    Respects R ((MonadExcept.throw f : Act α) >>= rest) := fun w => refl_of R w

theorem get : Respects R (MonadState.get : Act World) := fun w => refl_of R w

theorem lift (r : Except Failure α) : Respects R (World.lift r) := by
  cases r with
  | error f => exact throw f
  | ok a => exact pure a

theorem bind {x : Act α} {f : α → Act β} (hx : Respects R x) (hf : ∀ a, Respects R (f a)) :
    Respects R (x >>= f) := by
  intro w
  have hw := hx w
  rw [run_bind]
  rcases hrun : w.run x with ⟨_ | a, w'⟩ <;> rw [hrun] at hw
  · exact hw
  · exact trans_of R hw (hf a w')

theorem tryCatch {x : Act α} {handle : Failure → Act α} (hx : Respects R x)
    (hhandle : ∀ f, Respects R (handle f)) : Respects R (MonadExcept.tryCatch x handle) := by
  intro w
  have hw := hx w
  rw [run_tryCatch]
  rcases hrun : w.run x with ⟨f | a, w'⟩ <;> rw [hrun] at hw
  · exact trans_of R hw (hhandle f w')
  · exact hw

theorem forM {act : α → Act PUnit} {items : List α} (h : ∀ a ∈ items, Respects R (act a)) :
    Respects R (items.forM act) := by
  induction items with
  | nil => exact pure _
  | cons a rest ih =>
      exact bind (h a List.mem_cons_self) fun _ => ih fun b hb => h b (List.mem_cons_of_mem a hb)

theorem forIn {step : α → β → Act (ForInStep β)} (h : ∀ a b, Respects R (step a b)) (items : List α)
    (b : β) : Respects R (ForIn.forIn items b step) := by
  induction items generalizing b with
  | nil => exact pure _
  | cons a rest ih =>
      rw [List.forIn_cons]
      refine bind (h a b) fun r => ?_
      cases r with
      | done b' => exact pure _
      | yield b' => exact ih b'

end Respects

/-! ## Notes -/

/-- The worlds differ at most in the lines noted down and in the number for the next class. -/
structure Noted (w w' : World) : Prop where
  files : w'.files = w.files
  searchPath : w'.searchPath = w.searchPath
  modules : w'.modules = w.modules
  registry : w'.registry = w.registry
  output : w'.output = w.output

namespace Noted

theorem refl (w : World) : Noted w w := ⟨rfl, rfl, rfl, rfl, rfl⟩

theorem trans {w w' w'' : World} (h : Noted w w') (h' : Noted w' w'') : Noted w w'' where
  files := h'.files.trans h.files
  searchPath := h'.searchPath.trans h.searchPath
  modules := h'.modules.trans h.modules
  registry := h'.registry.trans h.registry
  output := h'.output.trans h.output

instance : IsPreorder World Noted where
  refl := refl
  trans _ _ _ := trans

theorem log (w : World) (lines : List LogLine) : Noted w { w with log := lines } :=
  ⟨rfl, rfl, rfl, rfl, rfl⟩

end Noted

end World

end GrammarBench
