import GrammarBench.Proofs.Emission

/-!
# Runs of a token stream

What a stream answers to any requests in any order, by what its lexer emits. When no failure comes
before the first token that ends the input, the stream holds one list from the first request on,
and otherwise it holds nothing.

* `Stream.fill_eq`: one filling of a stream that is not filled yet.
* `Stream.answers_of_filled`: a filled stream answers from its list and takes nothing more.
* `Stream.answers_ofEmission`: the whole run, with and without a failure, for lexers that are read
  from their start each time and for those that are read once only.
-/

namespace GrammarBench

open Emission

/-! ## One reading -/

/-- The lexer when it has been read once more. -/
def Supply.afterReading (s : Supply) : Supply :=
  { s with
    rest := if (failure? s.pending).isSome then [] else s.pending.drop s.pending.toEnd.length
    taken := s.taken ++ s.pending.toEnd }

theorem Supply.read_eq (s : Supply) :
    s.read =
      (match failure? s.pending with
        | some f => .error f
        | none => .ok s.pending.tokens, s.afterReading) := by
  unfold Supply.read Supply.afterReading
  rw [Emission.read_eq]
  simp only [take_toEnd]
  cases failure? s.pending <;> rfl

namespace Stream

/-! ## Requests one by one -/

/-- What a list of tokens answers to a request. -/
def Request.of (tokens : List Token) : Request → Answer
  | .fill | .iterate => .tokens tokens
  | .onChannel channel => .tokens (select channel tokens)
  | .length => .count tokens.length

/-- Every request fills the stream and is answered from the list. -/
theorem answer_eq (s : Stream) (r : Request) :
    s.answer r = (s.fill.1.map r.of, s.fill.2) := by
  cases r with
  | fill => rfl
  | iterate => rfl
  | onChannel n => cases h : s.fill.1 <;> simp [answer, onChannel, h, Request.of, Except.map]
  | length => cases h : s.fill.1 <;> simp [answer, Stream.length, h, Request.of, Except.map]

/-- One filling of a stream that is not filled yet: it holds the whole list, or, after a failure,
what it held before. -/
theorem fill_eq (s : Stream) (h : s.filled = false) :
    s.fill = match failure? s.supply.pending with
      | some f => (.error f, { s with supply := s.supply.afterReading })
      | none => (.ok s.supply.pending.filled,
          { supply := s.supply.afterReading
            tokens := s.supply.pending.filled
            filled := true }) := by
  unfold fill
  rw [Supply.read_eq, h]
  cases hf : failure? s.supply.pending with
  | some f => rfl
  | none => simp [numbered_closed _ hf]

/-- A stream whose lexer gives one token that ends the input, behind all others. -/
theorem fill_closed {body : List Token} {last : Token} (hbody : ∀ t ∈ body, t.isEof = false)
    (hlast : last.isEof = true) (oneShot : Bool := false) :
    (ofEmission (body.map .ok ++ [.ok last]) oneShot).fill.1 =
      .ok (numbered body ++ [last.withIndex body.length]) := by
  have hend := toEnd_closed hbody hlast
  have hfailure : failure? (body.map .ok ++ [.ok last]) = none := by
    unfold failure?
    rw [hend, List.getLast?_concat]
  have htokens : Emission.tokens (body.map .ok ++ [.ok last]) = body ++ [last] := by
    unfold Emission.tokens
    rw [hend, List.filterMap_append, List.filterMap_map]
    congr 1
    exact List.filterMap_some
  have hpending : (ofEmission (body.map .ok ++ [.ok last]) oneShot).supply.pending =
      body.map .ok ++ [.ok last] := by
    cases oneShot <;> rfl
  rw [fill_eq _ rfl, hpending, hfailure]
  dsimp only
  unfold Emission.filled
  rw [htokens]
  simp [hlast, numbered]

theorem fill_of_filled (s : Stream) (h : s.filled = true) : s.fill = (.ok s.tokens, s) := by
  simp [fill, h]

theorem answers_cons (r : Request) (requests : List Request) (s : Stream) :
    answers (r :: requests) s =
      (s.fill.1.map r.of :: (answers requests s.fill.2).1, (answers requests s.fill.2).2) := by
  rw [answers, answer_eq]

/-! ## Whole runs -/

/-- A filled stream answers everything from its list and stays as it is. -/
theorem answers_of_filled (requests : List Request) (s : Stream) (h : s.filled = true) :
    answers requests s = (requests.map fun r => .ok (r.of s.tokens), s) := by
  induction requests with
  | nil => rfl
  | cons r rest ih =>
    rw [answers_cons, fill_of_filled s h, ih]
    rfl

/-- A run over a lexer that gives a token that ends the input, or comes to its own end, before any
failure: the first request fills the stream, and what is taken from the lexer is taken once. -/
structure Settled (e : Emission) (requests : List Request)
    (run : List (Except Failure Answer) × Stream) : Prop where
  answered : run.1 = requests.map fun r => .ok (r.of e.filled)
  untouched : requests = [] → run.2.filled = false ∧ run.2.tokens = [] ∧ run.2.supply.taken = []
  held : requests ≠ [] →
    run.2.filled = true ∧ run.2.tokens = e.filled ∧ run.2.supply.taken = e.toEnd

/-- A run over a lexer that fails before that and starts again each time: every request fails,
nothing is held, and the same items are taken over and over. -/
structure Failing (e : Emission) (f : Failure) (requests : List Request)
    (run : List (Except Failure Answer) × Stream) : Prop where
  answered : run.1 = requests.map fun _ => .error f
  held : run.2.filled = false ∧ run.2.tokens = []
  taken : run.2.supply.taken = (List.replicate requests.length e.toEnd).flatten

/-- A run over a lexer that fails before that and is used up then: the first request fails, and
the second one finds nothing left. -/
structure Spent (e : Emission) (f : Failure) (requests : List Request)
    (run : List (Except Failure Answer) × Stream) : Prop where
  answered : run.1 =
    (requests.take 1).map (fun _ => .error f) ++
      (requests.drop 1).map fun r => .ok (r.of (Emission.filled []))
  held : run.2.filled = decide (1 < requests.length) ∧
    run.2.tokens = if 1 < requests.length then Emission.filled [] else []
  taken : run.2.supply.taken = if 0 < requests.length then e.toEnd else []

/-- The views of a list by channel: a view is a part of the list in its order, the token that ends
the input is in all of them, and every other token is in the one of its channel alone. -/
structure Viewed (tokens : List Token) : Prop where
  oneEnd : ∃ body last, tokens = body ++ [last] ∧ last.isEof = true ∧ ∀ t ∈ body, t.isEof = false
  ordered : ∀ n, List.Sublist (select n tokens) tokens
  mem_iff : ∀ n t, t ∈ select n tokens ↔ t ∈ tokens ∧ (t.channel = n ∨ t.isEof = true)
  unique : ∀ t ∈ tokens, t.isEof = false → ∀ n, t ∈ select n tokens ↔ n = t.channel

theorem mem_select (n : Int) (tokens : List Token) (t : Token) :
    t ∈ select n tokens ↔ t ∈ tokens ∧ (t.channel = n ∨ t.isEof = true) := by
  simp [select]

theorem viewed_filled (e : Emission) (h : failure? e = none) : Viewed e.filled where
  oneEnd := filled_eq e h
  ordered := fun _ => List.filter_sublist
  mem_iff := fun n t => mem_select n _ t
  unique := by
    intro t ht heof n
    rw [mem_select]
    constructor
    · rintro ⟨-, hn | hn⟩
      · exact hn.symm
      · rw [heof] at hn
        cases hn
    · rintro rfl
      exact ⟨ht, Or.inl rfl⟩

/-- A stream that is not filled yet and whose lexer gives no early failure. -/
theorem settled_of_fresh (requests : List Request) (s : Stream) (hfresh : s.filled = false)
    (htokens : s.tokens = []) (htaken : s.supply.taken = [])
    (h : failure? s.supply.pending = none) :
    Settled s.supply.pending requests (answers requests s) := by
  cases requests with
  | nil => exact ⟨rfl, fun _ => ⟨hfresh, htokens, htaken⟩, fun hne => absurd rfl hne⟩
  | cons r rest =>
    have hfill := fill_eq s hfresh
    rw [h] at hfill
    rw [answers_cons, hfill, answers_of_filled _ _ rfl]
    refine ⟨rfl, (fun hnil => nomatch hnil), fun _ => ⟨rfl, rfl, ?_⟩⟩
    simp [Supply.afterReading, htaken]

/-- A stream that is not filled yet and whose lexer fails each time it is read. -/
theorem failing_of_fresh (requests : List Request) {e : Emission} {f : Failure}
    (h : failure? e = some f) (s : Stream) (hfresh : s.filled = false) (htokens : s.tokens = [])
    (hshot : s.supply.oneShot = false) (hitems : s.supply.items = e) :
    (answers requests s).1 = requests.map (fun _ => .error f) ∧
      ((answers requests s).2.filled = false ∧ (answers requests s).2.tokens = []) ∧
      (answers requests s).2.supply.taken =
        s.supply.taken ++ (List.replicate requests.length e.toEnd).flatten := by
  induction requests generalizing s with
  | nil => exact ⟨rfl, ⟨hfresh, htokens⟩, by simp [answers]⟩
  | cons r rest ih =>
    have hpending : s.supply.pending = e := by simp [Supply.pending, hshot, hitems]
    have hfill := fill_eq s hfresh
    rw [hpending, h] at hfill
    obtain ⟨hanswers, hheld, htaken⟩ :=
      ih { s with supply := s.supply.afterReading } hfresh htokens hshot hitems
    rw [answers_cons, hfill]
    refine ⟨by rw [hanswers]; rfl, hheld, ?_⟩
    rw [htaken]
    simp [Supply.afterReading, hpending, List.replicate_succ]

/-- A stream whose one-shot lexer fails before it gives a token that ends the input. -/
theorem spent_ofEmission (e : Emission) {f : Failure} (h : failure? e = some f)
    (requests : List Request) : Spent e f requests (answers requests (ofEmission e true)) := by
  cases requests with
  | nil => exact ⟨rfl, ⟨rfl, rfl⟩, rfl⟩
  | cons r rest =>
    have hfill := fill_eq (ofEmission e true) rfl
    have hpending : (ofEmission e true).supply.pending = e := rfl
    rw [hpending, h] at hfill
    rw [answers_cons, hfill]
    cases rest with
    | nil =>
      exact ⟨rfl, ⟨rfl, rfl⟩, by simp [answers, Supply.afterReading, Supply.pending, ofEmission]⟩
    | cons r' rest =>
      -- Nothing is left of the lexer, so the second request fills the stream with the end alone.
      have hspent : (ofEmission e true).supply.afterReading.pending = [] := by
        simp [Supply.afterReading, Supply.pending, ofEmission, h]
      have hfill' := fill_eq
        { ofEmission e true with supply := (ofEmission e true).supply.afterReading } rfl
      rw [hspent] at hfill'
      rw [answers_cons, hfill']
      simp only [failure?, toEnd_nil, List.getLast?_nil]
      rw [answers_of_filled _ _ rfl]
      refine ⟨rfl, ⟨by simp, by simp⟩, ?_⟩
      simp [Supply.afterReading, Supply.pending, ofEmission, h]

/-- **Runs of a stream.** What any requests in any order come to, for a lexer that is read from
its start each time and for one that is read once only, by the first item that ends a reading of
it. -/
theorem answers_ofEmission (e : Emission) (oneShot : Bool) (requests : List Request) :
    match failure? e, oneShot with
    | none, _ =>
      Settled e requests (answers requests (ofEmission e oneShot)) ∧ Viewed e.filled
    | some f, false => Failing e f requests (answers requests (ofEmission e false))
    | some f, true => Spent e f requests (answers requests (ofEmission e true)) := by
  cases h : failure? e with
  | none =>
    have hpending : (ofEmission e oneShot).supply.pending = e := by cases oneShot <;> rfl
    have hrun := settled_of_fresh requests (ofEmission e oneShot) rfl rfl rfl (hpending.symm ▸ h)
    rw [hpending] at hrun
    exact ⟨hrun, viewed_filled e h⟩
  | some f =>
    cases oneShot with
    | false =>
      obtain ⟨hanswers, hheld, htaken⟩ :=
        failing_of_fresh requests h (ofEmission e false) rfl rfl rfl rfl
      exact ⟨hanswers, hheld, by simpa [ofEmission] using htaken⟩
    | true => exact spent_ofEmission e h requests

end Stream

end GrammarBench
