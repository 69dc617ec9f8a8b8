import GrammarBench.Proofs.Invocation
import GrammarBench.Proofs.Stream
import GrammarBench.Proofs.Worlds
import GrammarBench.Run

/-!
# Phases of a run

A run of a text chooses its classes and looks its rule up before anything is read, reads the lexer once, and
only then makes the parser and calls the rule. What it ends with is a matter of the text and the module; what
is shown only adds to the output.

* `Phase`, `phase`: how far a run comes, whatever is shown.
* `run_parse`: the outcome and the output by how far it comes.
* `parse_phases`: the same with what is taken from the lexer and what the parser gets.
-/

namespace GrammarBench.Run

open World

/-- What the choice of the classes comes to: the lexer class, the parser class, the rule, the lexer and the
names of the token types can each be missing, in this order. -/
def opening (m : Module) (rule : String) (grammar : Option String) :
    Except Failure (Class × Class × List Value) := do
  let lexer ← m.lexerType grammar
  let parser ← m.parserType grammar
  let _ ← parser.rule rule
  lexer.checkTakesOne
  let symbols ← lexer.symbolValues
  return (lexer, parser, symbols)

/-- Makes the parser and calls the rule. -/
def Reading.finish (r : Reading) (rule : String) : Except Failure Run := do
  r.parser.checkTakesOne
  let tree ← (r.invocation rule).result
  return r.handoff rule tree

/-- How far a run comes. -/
inductive Phase where
  /-- There are no classes or no rule, or no lexer can be made. -/
  | unread (f : Failure)
  /-- The lexer fails before the end of the input. -/
  | unfilled (f : Failure) (stream : Stream)
  /-- The tokens are there, and the parser is made and the rule is called. -/
  | read (r : Reading) (result : Except Failure Run)

namespace Phase

def outcome : Phase → Except Failure Run
  | unread f => .error f
  | unfilled f _ => .error f
  | read _ result => result

/-- The lines of the tokens, as soon as they are there and when they are asked for. -/
def tokenLines (o : RunOptions) (s : Showing) : Phase → Lines
  | read r _ => (r.lines s).onlyIf o.showTokens
  | _ => []

/-- The line of the tree, when there is one and it is asked for. -/
def treeLines (o : RunOptions) (s : Showing) : Phase → Lines
  | read _ (.ok run) => Lines.onlyIf [s.treeLine run.tree] o.showTree
  | _ => []

/-- The lines that are asked for: those of the tokens, and the tree behind them. -/
def lines (o : RunOptions) (s : Showing) (p : Phase) : Lines := p.tokenLines o s ++ p.treeLines o s

/-- What the call of the rule has noted down: nothing when a line of a token could not be written. -/
def noted (o : RunOptions) (s : Showing) (p : Phase) (late : List LogLine) : List LogLine :=
  if (p.tokenLines o s).failure?.isNone then late else []

/-- What has been taken from the lexer. -/
def pulled : Phase → Emission
  | unread _ => []
  | unfilled _ stream => stream.supply.taken
  | read r _ => r.stream.supply.taken

end Phase

/-- How far the run of a text comes. -/
def phase (m : Module) (text rule : String) (grammar : Option String) : Phase :=
  match opening m rule grammar with
  | .error f => .unread f
  | .ok (lexer, parser, symbols) =>
    match (Stream.ofEmission (lexer.emission text)).fill with
    | (.error f, stream) => .unfilled f stream
    | (.ok tokens, stream) =>
      .read ⟨lexer, parser, symbols, tokens, stream⟩
        (Reading.finish ⟨lexer, parser, symbols, tokens, stream⟩ rule)

/-! ## The run -/

/-- The rest of a run behind the lines of the tokens. -/
def Reading.conclude (o : RunOptions) (r : Reading) (rule : String) (s : Showing) : Act Run := do
  lift r.parser.checkTakesOne
  noteAll (r.invocation rule).log
  let tree ← lift (r.invocation rule).result
  printLines o.showTree [s.treeLine tree]
  return r.handoff rule tree

theorem run_conclude (r : Reading) (rule : String) :
    ∃ late, ∀ w o s, World.run w (r.conclude o rule s) =
      (((Phase.read r (r.finish rule)).treeLines o s).before (r.finish rule), { w with
        log := late ++ w.log
        output := w.output ++ ((Phase.read r (r.finish rule)).treeLines o s).text }) := by
  unfold Reading.conclude Reading.finish
  cases r.parser.checkTakesOne with
  | error f =>
      refine ⟨[], fun w o s => ?_⟩
      rw [run_bind_error (run_lift_error _ f)]
      simp [bind, Except.bind, Phase.treeLines, Lines.text]
  | ok u =>
      refine ⟨(r.invocation rule).log.reverse, fun w o s => ?_⟩
      rw [run_bind_ok (run_lift_ok _ u), run_bind_ok (run_noteAll _ _)]
      cases (r.invocation rule).result with
      | error f =>
          rw [run_bind_error (run_lift_error _ f)]
          simp [bind, Except.bind, Phase.treeLines, Lines.text]
      | ok tree =>
          rw [run_bind_ok (run_lift_ok _ tree), run_bind, run_printLines]
          show _ = ((Lines.onlyIf [s.treeLine tree] o.showTree).before (.ok (r.handoff rule tree)), { w with
            log := _, output := w.output ++ (Lines.onlyIf [s.treeLine tree] o.showTree).text })
          unfold Lines.before
          cases (Lines.onlyIf [s.treeLine tree] o.showTree).failure? <;> rfl

theorem run_close (r : Reading) (rule : String) :
    ∃ late, ∀ w o s, World.run w (r.close o rule s) =
      (((Phase.read r (r.finish rule)).lines o s).before (r.finish rule), { w with
        log := (Phase.read r (r.finish rule)).noted o s late ++ w.log
        output := w.output ++ ((Phase.read r (r.finish rule)).lines o s).text }) := by
  obtain ⟨late, hconclude⟩ := run_conclude r rule
  refine ⟨late, fun w o s => ?_⟩
  show w.run (printLines o.showTokens (r.lines s) >>= fun _ => r.conclude o rule s) = _
  unfold Phase.lines Phase.noted
  rw [run_bind, run_printLines, Lines.before_append, Lines.text_append]
  show _ = (((r.lines s).onlyIf o.showTokens).before _, { w with
    log := (if ((r.lines s).onlyIf o.showTokens).failure?.isNone then _ else []) ++ w.log
    output := w.output ++ (((r.lines s).onlyIf o.showTokens).text ++
      if ((r.lines s).onlyIf o.showTokens).failure?.isNone then _ else "") })
  unfold Lines.before
  cases ((r.lines s).onlyIf o.showTokens).failure? with
  | some f => simp
  | none =>
      have hrest := hconclude { w with output := w.output ++ ((r.lines s).onlyIf o.showTokens).text } o s
      simp only [Option.elim_none, Option.isNone_none, if_true, ← String.append_assoc]
      exact hrest

theorem run_resolve (w : World) (m : Module) (grammar : Option String) :
    ∃ lines, w.run (m.resolve grammar) =
      (m.lexerType grammar >>= fun lexer => m.parserType grammar >>= fun parser => .ok (lexer, parser),
        { w with log := lines ++ w.log }) := by
  unfold Module.resolve
  rw [run_bind, run_lift]
  cases m.lexerType grammar with
  | error f => exact ⟨[], rfl⟩
  | ok lexer =>
      dsimp only
      rw [run_bind, run_lift]
      cases m.parserType grammar with
      | error f => exact ⟨[], rfl⟩
      | ok parser => exact ⟨[_], rfl⟩

theorem run_choose (w : World) (m : Module) (rule : String) (grammar : Option String) :
    ∃ lines, w.run (choose m rule grammar) = (opening m rule grammar, { w with log := lines ++ w.log }) := by
  obtain ⟨lines, hresolve⟩ := run_resolve w m grammar
  refine ⟨lines, ?_⟩
  unfold choose opening
  rw [run_bind, hresolve]
  cases m.lexerType grammar with
  | error f => rfl
  | ok lexer =>
      cases m.parserType grammar with
      | error f => rfl
      | ok parser =>
          dsimp only [bind, Except.bind]
          cases parser.rule rule with
          | error f => rfl
          | ok entry =>
              cases lexer.checkTakesOne with
              | error f => rfl
              | ok u => cases lexer.symbolValues <;> rfl

/-- A run ends with what its phase ends with, unless a line that is asked for cannot be written; then it ends with the
failure of that line, and the lines before it are all that is printed. -/
theorem run_parse (w : World) (m : Module) (text rule : String) (grammar : Option String) :
    ∃ early late, ∀ o s, w.run (parse o m text rule grammar s) =
      (((phase m text rule grammar).lines o s).before (phase m text rule grammar).outcome, { w with
        log := (phase m text rule grammar).noted o s late ++ (early ++ w.log)
        output := w.output ++ ((phase m text rule grammar).lines o s).text }) := by
  obtain ⟨chosen, hchosen⟩ := run_choose w m rule grammar
  unfold parse phase
  cases hopening : opening m rule grammar with
  | error f =>
      rw [hopening] at hchosen
      refine ⟨chosen, [], fun o s => ?_⟩
      rw [run_bind_error hchosen]
      simp [Phase.outcome, Phase.lines, Phase.tokenLines, Phase.treeLines, Phase.noted, Lines.text]
  | ok classes =>
      obtain ⟨lexer, parser, symbols⟩ := classes
      rw [hopening] at hchosen
      rcases hfill : (Stream.ofEmission (lexer.emission text)).fill with ⟨f | tokens, stream⟩
      · refine ⟨chosen, [], fun o s => ?_⟩
        rw [run_bind_ok hchosen]
        dsimp only
        rw [hfill, run_bind_error (run_lift_error _ f)]
        simp [Phase.outcome, Phase.lines, Phase.tokenLines, Phase.treeLines, Phase.noted, Lines.text]
      · obtain ⟨closed, hclosed⟩ := run_close ⟨lexer, parser, symbols, tokens, stream⟩ rule
        refine ⟨⟨.debug, "grunpy.harness", "Read " ++ toString tokens.length ++ " tokens"⟩ :: chosen, closed,
          fun o s => ?_⟩
        rw [run_bind_ok hchosen]
        dsimp only
        rw [hfill]
        dsimp only
        rw [run_bind_ok (run_lift_ok _ tokens), run_bind_ok (run_note _ _ _ _), hclosed]
        rfl

/-! ## What is read -/

/-- What is in the hands of a run whose tokens have been read: nothing more is taken from the lexer, and the
tokens that are printed and handed over are the ones that the parser gets. -/
structure Reading.Held (r : Reading) (text : String) : Prop where
  complete : (r.lexer.emission text).failure? = none
  tokens : r.tokens = (r.lexer.emission text).filled
  taken : r.stream.supply.taken = (r.lexer.emission text).toEnd
  answers : ∀ requests, r.stream.answers requests = (requests.map fun q => .ok (q.of r.tokens), r.stream)
  channels : ∀ n, (Parser.ofStream r.parser r.stream).tokens n = .ok (Stream.select n r.tokens)

theorem held_of_fill {r : Reading} {text : String}
    (h : (Stream.ofEmission (r.lexer.emission text)).fill = (.ok r.tokens, r.stream)) : r.Held text := by
  have hfill := Stream.fill_eq (Stream.ofEmission (r.lexer.emission text)) rfl
  have hpending : (Stream.ofEmission (r.lexer.emission text)).supply.pending = r.lexer.emission text := rfl
  rw [hpending, h] at hfill
  cases hfailure : (r.lexer.emission text).failure? with
  | some f =>
      rw [hfailure] at hfill
      cases hfill
  | none =>
      rw [hfailure] at hfill
      have htokens : r.tokens = (r.lexer.emission text).filled := Except.ok.inj (congrArg Prod.fst hfill)
      have hstream := congrArg Prod.snd hfill
      dsimp only at hstream
      have hfilled : r.stream.filled = true := by rw [hstream]
      have hheld : r.stream.tokens = r.tokens := by rw [hstream, htokens]
      refine ⟨hfailure, htokens, ?_, fun requests => ?_, fun n => ?_⟩
      · rw [hstream]
        show [] ++ (Stream.ofEmission (r.lexer.emission text)).supply.pending.toEnd = _
        rw [hpending, List.nil_append]
      · rw [Stream.answers_of_filled requests r.stream hfilled, hheld]
      · show (r.stream.onChannel n).1 = _
        unfold Stream.onChannel
        rw [Stream.fill_of_filled r.stream hfilled, hheld]
        rfl

theorem taken_of_fill {e : Emission} {f : Failure} {stream : Stream}
    (h : (Stream.ofEmission e).fill = (.error f, stream)) :
    e.failure? = some f ∧ stream.supply.taken = e.toEnd := by
  have hfill := Stream.fill_eq (Stream.ofEmission e) rfl
  have hpending : (Stream.ofEmission e).supply.pending = e := rfl
  rw [hpending, h] at hfill
  cases hfailure : e.failure? with
  | none =>
      rw [hfailure] at hfill
      cases hfill
  | some f' =>
      rw [hfailure] at hfill
      have hsame : f = f' := Except.error.inj (congrArg Prod.fst hfill)
      have hstream := congrArg Prod.snd hfill
      dsimp only at hstream
      refine ⟨by rw [hsame], ?_⟩
      rw [hstream]
      show [] ++ (Stream.ofEmission e).supply.pending.toEnd = _
      rw [hpending, List.nil_append]

theorem opening_ok {m : Module} {rule : String} {grammar : Option String} {lexer parser : Class}
    {symbols : List Value} (h : opening m rule grammar = .ok (lexer, parser, symbols)) :
    m.lexerType grammar = .ok lexer ∧ m.parserType grammar = .ok parser ∧
      ∃ entry, parser.rule rule = .ok entry := by
  unfold opening at h
  obtain ⟨lexer', hlexer, h⟩ := Outcome.bind_ok h
  obtain ⟨parser', hparser, h⟩ := Outcome.bind_ok h
  obtain ⟨entry, hentry, h⟩ := Outcome.bind_ok h
  obtain ⟨u, -, h⟩ := Outcome.bind_ok h
  obtain ⟨symbols', -, h⟩ := Outcome.bind_ok h
  cases h
  exact ⟨hlexer, hparser, entry, hentry⟩

/-- What a rule fails with goes through as it is. -/
theorem finish_of_call {r : Reading} {rule : String} {e : Entry} {f : Failure}
    (hparser : r.parser.checkTakesOne = .ok ()) (hentry : r.parser.rule rule = .ok e)
    (hcheck : e.check rule = .ok ()) (hcall : ((Parser.ofStream r.parser r.stream).call e).1 = .error f) :
    r.finish rule = .error f := by
  have hlookUp : (Parser.ofStream r.parser r.stream).lookUp rule = .ok e := by
    rw [Parser.lookUp_eq hentry, hcheck]
    rfl
  have hresult : (r.invocation rule).result = .error f := by
    show ((Parser.ofStream r.parser r.stream).attempt Parser.call rule).result = _
    rw [Parser.attempt_ok hlookUp, Parser.call_error hcall]
    rfl
  unfold Reading.finish
  rw [hparser, hresult]
  rfl

/-- A module with a lexer whose only token stops at the largest number that can be written, so that the end of the input
starts at one that cannot, and with a rule that always gives the same text. -/
def wideModule : Module :=
  { name := "g"
    names :=
      [("GLexer", .type ⟨{ id := Layer.firstFree, name := "GLexer", home := "g"
                           members := [("tokenize", .lexing (.fixed
                            [.ok { kind := 1, text := some "x", start := 0, stop := Int.ofNat longNat.pred,
                                   line := 1, column := 0 }]))] }, Class.lexer.layers⟩),
       ("GParser", .type ⟨{ id := Layer.firstFree + 1, name := "GParser", home := "g"
                            members := [("rules", .table
                              [("r", .function { body := .give (.text "t") } "GParser.r")])] },
        Class.parser.layers⟩)] }

/-- What the run of its rule ends with. -/
def wideRun (o : RunOptions) : Except Failure Run :=
  (World.run { files := Files.empty ["w"] } (parse o wideModule "x" "r" none)).1

end GrammarBench.Run
