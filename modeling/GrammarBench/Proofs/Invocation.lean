import GrammarBench.Module.Invocation
import GrammarBench.Proofs.Classes

/-!
# When a rule is called

What stands under the name of a rule is called just if it may be: with a signature that takes a parser in
place and says that something is returned. Nothing is called otherwise, and the parser stays as it is.

* `Signature.binds_iff`: how some values in place find their parameters.
* `Entry.Fit`, `Entry.check_eq_ok`: what may be called with a parser.
* `Parser.attempt_missing`, `Parser.attempt_unfit`, `Parser.attempt_fit`: an attempt from what the name of the
  rule stands for.
* `Parser.attempt_runs_iff`: when a rule is called, and what comes of it.
-/

namespace GrammarBench

/-! ## Signatures -/

namespace Param

/-- A parameter that takes a value in place. -/
def IsPlace (p : Param) : Prop := p.kind = .positionalOnly ∨ p.kind = .positional

/-- A parameter for one value. -/
def IsSingle (p : Param) : Prop := p.IsPlace ∨ p.kind = .named

theorem isOptional_iff (p : Param) : p.isOptional = true ↔ (p.IsSingle → p.default.isSome = true) := by
  unfold isOptional IsSingle IsPlace
  cases p.kind <;> simp

end Param

namespace Signature

theorem binds_zero (params : List Param) : binds 0 params = params.all Param.isOptional := by
  cases params with
  | nil => rfl
  | cons p rest =>
      rw [List.all_cons]
      unfold binds Param.isOptional
      cases p.kind <;> simp

theorem binds_place {p : Param} (h : p.IsPlace) (n : Nat) (others : List Param) :
    binds (n + 1) (p :: others) = binds n others := by
  rw [binds]
  rcases h with hkind | hkind <;> rw [hkind]

/-- A parameter that takes no single value in place takes either all values or none of them. -/
theorem binds_other {p : Param} (h : ¬ p.IsPlace) (n : Nat) (others : List Param) :
    binds (n + 1) (p :: others) = true ↔ p.kind = .values ∧ ∀ q ∈ others, q.isOptional = true := by
  rw [binds]
  unfold Param.IsPlace at h
  cases hkind : p.kind <;> simp [hkind] at h ⊢

/-- Values in place find their parameters just if the first parameters take one each, and either these are
all values, or the parameter behind takes all that are left; and what is behind may be left out. -/
theorem binds_iff (n : Nat) (params : List Param) :
    binds n params = true ↔ ∃ given rest, params = given ++ rest ∧ (∀ p ∈ given, p.IsPlace) ∧
      (given.length = n ∨ given.length < n ∧ rest.head?.any (·.kind = .values)) ∧
      ∀ p ∈ rest, p.isOptional = true := by
  -- Along the parameters, one value after the other; a parameter for further values takes the rest.
  induction n generalizing params with
  | zero =>
      rw [binds_zero, List.all_eq_true]
      constructor
      · exact fun h => ⟨[], params, rfl, by simp, Or.inl rfl, h⟩
      · rintro ⟨given, rest, rfl, -, hlength, hrest⟩
        have hnil : given = [] := by simpa using hlength
        simpa [hnil] using hrest
  | succ n ih =>
      cases params with
      | nil =>
          refine ⟨fun h => (nomatch h), ?_⟩
          rintro ⟨given, rest, heq, -, hlength, -⟩
          obtain ⟨rfl, rfl⟩ := List.append_eq_nil_iff.mp heq.symm
          simp at hlength
      | cons p others =>
          by_cases hplace : p.IsPlace
          · rw [binds_place hplace, ih]
            constructor
            · rintro ⟨given, rest, rfl, hgiven, hlength, hrest⟩
              exact ⟨p :: given, rest, rfl, List.forall_mem_cons.mpr ⟨hplace, hgiven⟩, by simpa using hlength,
                hrest⟩
            · rintro ⟨given, rest, heq, hgiven, hlength, hrest⟩
              cases given with
              | nil =>
                  obtain ⟨hlength, hvalues⟩ := hlength.resolve_left (by simp)
                  rw [← show p :: others = rest from heq, List.head?_cons, Option.any_some,
                    decide_eq_true_iff] at hvalues
                  rcases hplace with hkind | hkind <;> rw [hkind] at hvalues <;> cases hvalues
              | cons q given =>
                  rw [List.cons_append, List.cons.injEq] at heq
                  exact ⟨given, rest, heq.2, (List.forall_mem_cons.mp hgiven).2, by simpa using hlength, hrest⟩
          · rw [binds_other hplace]
            constructor
            · rintro ⟨hkind, hothers⟩
              refine ⟨[], p :: others, rfl, by simp, Or.inr ⟨by simp, by simp [hkind]⟩, ?_⟩
              exact List.forall_mem_cons.mpr ⟨by simp [Param.isOptional, hkind], hothers⟩
            · rintro ⟨given, rest, heq, hgiven, hlength, hrest⟩
              cases given with
              | nil =>
                  obtain ⟨-, hvalues⟩ := hlength.resolve_left (by simp)
                  rw [← show p :: others = rest from heq] at hvalues hrest
                  exact ⟨by simpa using hvalues, (List.forall_mem_cons.mp hrest).2⟩
              | cons q given =>
                  rw [List.cons_append, List.cons.injEq] at heq
                  exact absurd (heq.1 ▸ hgiven q List.mem_cons_self) hplace

/-- A parser can be given in place just if the first parameter takes a value in place, and every other one
for one value has a value of its own. -/
theorem binds_one (params : List Param) :
    binds 1 params = true ↔ ∃ first rest, params = first :: rest ∧
      (first.IsPlace ∨ first.kind = .values) ∧ ∀ p ∈ rest, p.IsSingle → p.default.isSome = true := by
  rw [binds_iff]
  constructor
  · rintro ⟨given, rest, rfl, hgiven, hlength, hrest⟩
    cases given with
    | nil =>
        obtain ⟨-, hvalues⟩ := hlength.resolve_left (by simp)
        cases rest with
        | nil => cases hvalues
        | cons first rest =>
            refine ⟨first, rest, rfl, Or.inr (by simpa using hvalues), fun p hp => ?_⟩
            exact (Param.isOptional_iff p).mp (hrest p (List.mem_cons_of_mem first hp))
    | cons first given =>
        obtain rfl : given = [] := by simpa using hlength
        exact ⟨first, rest, rfl, Or.inl (hgiven first List.mem_cons_self),
          fun p hp => (Param.isOptional_iff p).mp (hrest p hp)⟩
  · rintro ⟨first, rest, rfl, hfirst, hrest⟩
    have hoptional : ∀ p ∈ rest, p.isOptional = true := fun p hp =>
      (Param.isOptional_iff p).mpr (hrest p hp)
    rcases hfirst with hplace | hvalues
    · exact ⟨[first], rest, rfl, by simpa using hplace, Or.inl rfl, hoptional⟩
    · refine ⟨[], first :: rest, rfl, by simp, Or.inr ⟨by simp, by simp [hvalues]⟩, ?_⟩
      exact List.forall_mem_cons.mpr ⟨by simp [Param.isOptional, hvalues], hoptional⟩

/-- A function that may be called with a parser, and does not say that it returns nothing. -/
structure Fit (s : Signature) : Prop where
  takes : ∃ first rest, s.params = first :: rest ∧ (first.IsPlace ∨ first.kind = .values) ∧
    ∀ p ∈ rest, p.IsSingle → p.default.isSome = true
  returns : s.returns ≠ some "None" ∧ s.returns ≠ some "'None'"

theorem returnsNothing_eq_false (s : Signature) :
    s.returnsNothing = false ↔ s.returns ≠ some "None" ∧ s.returns ≠ some "'None'" := by
  unfold returnsNothing
  rw [Bool.or_eq_false_iff, decide_eq_false_iff_not, decide_eq_false_iff_not]

/-- A signature passes its check just if it is fit; it is refused otherwise. -/
theorem check_cases (rule : String) (s : Signature) :
    s.Fit ∧ s.check rule = .ok () ∨
      ¬ s.Fit ∧ ∃ message, s.check rule = .error (refuseInvocation message) := by
  unfold check
  cases hbinds : binds 1 s.params with
  | false =>
      refine Or.inr ⟨fun hfit => ?_, _, if_pos rfl⟩
      rw [(binds_one s.params).mpr hfit.takes] at hbinds
      cases hbinds
  | true =>
      rw [if_neg (by decide)]
      cases hreturns : s.returnsNothing with
      | true =>
          refine Or.inr ⟨fun hfit => ?_, _, if_pos rfl⟩
          rw [s.returnsNothing_eq_false.mpr hfit.returns] at hreturns
          cases hreturns
      | false =>
          exact Or.inl ⟨⟨(binds_one s.params).mp hbinds, s.returnsNothing_eq_false.mp hreturns⟩,
            if_neg Bool.false_ne_true⟩

end Signature

/-! ## Entries -/

namespace Entry

/-- What may be called with a parser: it can be called and tells a signature that is fit. -/
def Fit (e : Entry) : Prop := ∃ s, e.signature? = some s ∧ s.Fit

theorem check_cases (rule : String) (e : Entry) :
    e.Fit ∧ e.check rule = .ok () ∨
      ¬ e.Fit ∧ ∃ message, e.check rule = .error (refuseInvocation message) := by
  unfold check Fit
  cases e.signature? with
  | none =>
      refine Or.inr ⟨?_, _, rfl⟩
      rintro ⟨s, hs, -⟩
      cases hs
  | some s =>
      simp only [Option.some.injEq, exists_eq_left']
      exact s.check_cases rule

end Entry

/-! ## Attempts -/

namespace Parser

variable {ε : Type} {call : Parser → Entry → Except Failure Tree × ε} {p : Parser} {rule : String} {e : Entry}

theorem lookUp_eq (h : p.type.rule rule = .ok e) : p.lookUp rule = (e.check rule).map fun _ => e := by
  show (p.type.rule rule >>= fun e => e.check rule >>= fun _ => pure e) = _
  rw [h]
  show (e.check rule >>= fun _ => pure e) = _
  cases e.check rule <;> rfl

theorem attempt_error {f : Failure} (h : p.lookUp rule = .error f) :
    p.attempt call rule = { result := .error f, parser := p, effect := none } := by
  unfold attempt
  rw [h]

theorem attempt_ok (h : p.lookUp rule = .ok e) :
    p.attempt call rule =
      { result := (call { p with building := true } e).1.bind fun t =>
          if t.isNull then .error (nothingReturned rule) else .ok t
        parser := { p with building := true }
        effect := some (call { p with building := true } e).2 } := by
  unfold attempt
  rw [h]

/-- Nothing is called under a name that is not found. -/
theorem attempt_missing {f : Failure} (h : p.type.rule rule = .error f) :
    p.attempt call rule = { result := .error f, parser := p, effect := none } := by
  refine attempt_error ?_
  unfold lookUp
  rw [h]
  rfl

/-- What is not fit is refused, and not called. -/
theorem attempt_unfit (h : p.type.rule rule = .ok e) (hunfit : ¬ e.Fit) :
    ∃ message, p.attempt call rule =
      { result := .error (refuseInvocation message), parser := p, effect := none } := by
  obtain ⟨hfit, -⟩ | ⟨-, message, hcheck⟩ := e.check_cases rule
  · exact absurd hfit hunfit
  · refine ⟨message, attempt_error ?_⟩
    rw [lookUp_eq h, hcheck]
    rfl

/-- What is fit is called with a parser that has been told to build trees. -/
theorem attempt_fit (h : p.type.rule rule = .ok e) (hfit : e.Fit) :
    p.attempt call rule =
      { result := (call { p with building := true } e).1.bind fun t =>
          if t.isNull then .error (nothingReturned rule) else .ok t
        parser := { p with building := true }
        effect := some (call { p with building := true } e).2 } := by
  obtain ⟨-, hcheck⟩ | ⟨hunfit, -⟩ := e.check_cases rule
  · refine attempt_ok ?_
    rw [lookUp_eq h, hcheck]
    rfl
  · exact absurd hfit hunfit

/-- A rule fails in the same way whatever the parser has been told. -/
theorem call_error {f : Failure} (h : (p.call e).1 = .error f) (building : Bool) :
    (Parser.call { p with building := building } e).1 = .error f := by
  cases e with
  | grammarRule name => exact h
  | function g path =>
      obtain ⟨signature, body⟩ := g
      cases body with
      | showFlag label => cases h
      | _ => exact h
  | builtin name => cases h
  | value v => cases h

/-- A rule that shows the flag and takes more values than it needs, and one that needs a second value. -/
def flagRules : RuleTable :=
  [("start", .function
      { signature :=
          { params := [{ name := "self", kind := .positionalOnly }, { name := "n", default := some (.int 3) },
              { name := "more", kind := .values }, { name := "k", kind := .named, default := some .null },
              { name := "other", kind := .namedValues }]
            returns := some "int" }
        body := .showFlag "flag" }),
    ("pair", .function
      { signature := { params := [{ name := "self" }, { name := "other" }] }, body := .give (.text "pair") })]

def flagParser : Parser :=
  { type := { own := { id := 6, name := "P", home := "m", members := [("rules", .table flagRules)] }
              behind := Class.parser.layers } }

end Parser

end GrammarBench
