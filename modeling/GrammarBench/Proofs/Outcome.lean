import Mathlib.Data.List.Forall2

/-!
# Outcomes of runs that may fail

What a successful run in `Except` says about its parts.

* `bind_ok`: both parts of a run one after the other succeed.
* `exists_of_isOk`: what succeeds gives something.
* `map_eq_error`: a run with its outcome changed fails as the run does.
* `mapM_ok`: a run over a list succeeds for each element.
* `filterM_ok`: a choice from a list that succeeds for each element.
* `foldlM_error`: a run along a list fails at one element, behind those that succeed.
-/

namespace GrammarBench.Outcome

variable {ε α β : Type}

theorem bind_ok {x : Except ε α} {f : α → Except ε β} {b : β} (h : (x >>= f) = .ok b) :
    ∃ a, x = .ok a ∧ f a = .ok b := by
  cases x with
  | error e => cases h
  | ok a => exact ⟨a, rfl, h⟩

theorem exists_of_isOk {x : Except ε α} (h : x.isOk = true) : ∃ a, x = .ok a := by
  cases x with
  | error e => cases h
  | ok a => exact ⟨a, rfl⟩

theorem mapM_ok {f : α → Except ε β} {as : List α} {bs : List β} (h : as.mapM f = .ok bs) :
    List.Forall₂ (fun a b => f a = .ok b) as bs := by
  induction as generalizing bs with
  | nil =>
    cases h
    exact List.Forall₂.nil
  | cons a as ih =>
    rw [List.mapM_cons] at h
    obtain ⟨b, hb, h⟩ := bind_ok h
    obtain ⟨bs', hbs, h⟩ := bind_ok h
    cases h
    exact List.Forall₂.cons hb (ih hbs)

theorem map_eq_error {x : Except ε α} {f : α → β} {e : ε} : x.map f = .error e ↔ x = .error e := by
  cases x with
  | error e' => exact ⟨fun h => congrArg _ (Except.error.inj h), fun h => congrArg _ (Except.error.inj h)⟩
  | ok a => exact ⟨fun h => (nomatch h), fun h => (nomatch h)⟩

theorem bind_error {x : Except ε α} {f : α → Except ε β} {e : ε} (h : (x >>= f) = .error e) :
    x = .error e ∨ ∃ a, x = .ok a ∧ f a = .error e := by
  cases x with
  | error e' =>
      cases h
      exact Or.inl rfl
  | ok a => exact Or.inr ⟨a, rfl, h⟩

theorem foldlM_error {f : β → α → Except ε β} {as : List α} {b : β} {e : ε}
    (h : as.foldlM f b = .error e) :
    ∃ before a behind b', as = before ++ a :: behind ∧ before.foldlM f b = .ok b' ∧
      f b' a = .error e := by
  induction as generalizing b with
  | nil => cases h
  | cons a as ih =>
      rw [List.foldlM_cons] at h
      rcases bind_error h with h | ⟨b', hb, h⟩
      · exact ⟨[], a, as, b, rfl, rfl, h⟩
      · obtain ⟨before, a', behind, b'', heq, hbefore, herror⟩ := ih h
        refine ⟨a :: before, a', behind, b'', by rw [heq, List.cons_append], ?_, herror⟩
        rw [List.foldlM_cons, hb]
        exact hbefore

theorem mapM_map_ok {f : α → Except ε β} {g : β → α} {bs : List β}
    (h : ∀ b ∈ bs, f (g b) = .ok b) : (bs.map g).mapM f = .ok bs := by
  induction bs with
  | nil => rfl
  | cons b rest ih =>
      rw [List.map_cons, List.mapM_cons, h b List.mem_cons_self,
        ih fun b hb => h b (List.mem_cons_of_mem _ hb)]
      rfl

theorem filterM_ok {f : α → Except ε Bool} {p : α → Bool} {as : List α}
    (h : ∀ a ∈ as, f a = .ok (p a)) : as.filterM f = .ok (as.filter p) := by
  have haux : ∀ seen, as.filterAuxM f seen = .ok ((as.filter p).reverse ++ seen) := by
    induction as with
    | nil => exact fun seen => rfl
    | cons a rest ih =>
        intro seen
        have hstep : (a :: rest).filterAuxM f seen =
            rest.filterAuxM f (bif p a then a :: seen else seen) := by
          show (f a >>= fun b => rest.filterAuxM f (cond b (a :: seen) seen)) = _
          rw [h a List.mem_cons_self]
          rfl
        rw [hstep, ih fun b hb => h b (List.mem_cons_of_mem a hb), List.filter_cons]
        cases p a <;> simp
  show (as.filterAuxM f [] >>= fun bs => .ok bs.reverse) = _
  rw [haux []]
  show Except.ok _ = _
  rw [List.append_nil, List.reverse_reverse]

/-- A choice from changed elements is the choice from the elements themselves, changed. -/
theorem filterM_map {f : β → Except ε Bool} {g : α → β} {as : List α} :
    (as.map g).filterM f = (as.filterM (f ∘ g)).map (List.map g) := by
  have haux : ∀ seen : List α, (as.map g).filterAuxM f (seen.map g) =
      (as.filterAuxM (f ∘ g) seen).map (List.map g) := by
    induction as with
    | nil => exact fun seen => rfl
    | cons a rest ih =>
        intro seen
        show (f (g a) >>= fun b => (rest.map g).filterAuxM f (cond b (g a :: seen.map g) (seen.map g))) =
          Except.map _ (f (g a) >>= fun b => rest.filterAuxM (f ∘ g) (cond b (a :: seen) seen))
        cases f (g a) with
        | error e => rfl
        | ok b =>
            cases b with
            | false => exact ih seen
            | true => exact ih (a :: seen)
  show ((as.map g).filterAuxM f ([].map g) >>= fun bs => .ok bs.reverse) =
    Except.map _ (as.filterAuxM (f ∘ g) [] >>= fun bs => .ok bs.reverse)
  rw [haux []]
  cases as.filterAuxM (f ∘ g) [] with
  | error e => rfl
  | ok bs =>
      show Except.ok (bs.map g).reverse = Except.ok (bs.reverse.map g)
      rw [List.map_reverse]

end GrammarBench.Outcome
