import GrammarBench.Proofs.GrammarLabels
import GrammarBench.Proofs.GrammarTrees
import GrammarBench.Proofs.Phases
import GrammarBench.Proofs.Showings

/-!
# Inputs that a grammar accepts

The entries of a grammar's rule table can always be called, so a run with a rule of a grammar is refused for one
reason only: the rule has been read, and it has been replaced by a child that an absent optional part has left out.
All other accepted inputs give their tree.

* `Unreported`: work that fails, if it fails, with no report of the bench.
* `Language.unreported_findings`, `Language.unreported_perform`: lexing and reading are such work.
* `GrammarClasses.run_phase`: how far a run with the two classes of a grammar comes.
* `GrammarClasses.run_accepted`: what an accepted input gives.
-/

namespace GrammarBench

open Grammar

/-! ## Failures that are no reports -/

/-- A failure that comes from elsewhere. -/
def Failure.Foreign (f : Failure) : Prop := ∀ r, f ≠ .report r

/-- Whatever the work fails with comes from elsewhere. -/
def Unreported {α : Type} (x : Except Failure α) : Prop := ∀ f, x = .error f → f.Foreign

section

variable {α β : Type}

theorem unreported_ok (a : α) : Unreported (.ok a) := fun _ h => nomatch h

theorem unreported_error {f : Failure} (h : f.Foreign) : Unreported (.error f : Except Failure α) := by
  intro f' hf'
  rwa [← Except.error.inj hf']

theorem foreign_fault (kind : FaultKind) (message : String) : (Failure.fault kind message).Foreign :=
  fun _ h => nomatch h

theorem unreported_bind {x : Except Failure α} {f : α → Except Failure β} (hx : Unreported x)
    (hf : ∀ a, x = .ok a → Unreported (f a)) : Unreported (x >>= f) := by
  intro e he
  rcases Outcome.bind_error he with h | ⟨a, ha, h⟩
  · exact hx e h
  · exact hf a ha e h

theorem unreported_mapM {f : α → Except Failure β} (hf : ∀ a, Unreported (f a)) (as : List α) :
    Unreported (as.mapM f) := by
  induction as with
  | nil => exact unreported_ok []
  | cons a as ih =>
      rw [List.mapM_cons]
      exact unreported_bind (hf a) fun b _ => unreported_bind ih fun bs _ => unreported_ok (b :: bs)

theorem unreported_foldlM {f : β → α → Except Failure β} (hf : ∀ b a, Unreported (f b a)) (as : List α)
    (b : β) : Unreported (as.foldlM f b) := by
  induction as generalizing b with
  | nil => exact unreported_ok b
  | cons a as ih =>
      rw [List.foldlM_cons]
      exact unreported_bind (hf b a) fun b' _ => ih b'

end

namespace Grammar

/-! ## Lexing -/

namespace TerminalPattern

theorem foreign_failureOf {f : Pattern.Fault} {malformed : Failure} (h : malformed.Foreign) :
    (failureOf f malformed).Foreign := by
  unfold failureOf
  split
  · exact h
  · exact foreign_fault _ _
  · exact foreign_fault _ _

theorem unreported_width (p : TerminalPattern) : Unreported p.width := by
  unfold width widthOf
  split
  · exact unreported_ok _
  · split
    · exact unreported_error (foreign_fault _ _)
    · split
      · exact unreported_ok _
      · exact unreported_error (foreign_failureOf (foreign_fault _ _))

end TerminalPattern

namespace Scanner

theorem unreported_inOrder (terminals : List Terminal) : Unreported (inOrder terminals) := by
  refine unreported_bind (unreported_mapM (fun t => ?_) terminals) fun ranked _ => unreported_ok _
  refine unreported_bind ?_ fun rank _ => unreported_ok _
  exact unreported_bind t.pattern.unreported_width fun width _ => unreported_ok _

theorem unreported_joined (flags : Pattern.Flags) (terminals : List Terminal) :
    Unreported (joined flags terminals) := by
  unfold joined
  split
  · exact unreported_ok _
  · dsimp only
    split
    · exact unreported_ok _
    · exact unreported_error (TerminalPattern.foreign_failureOf (foreign_fault _ _))

theorem unreported_ofTerminals (flags : Pattern.Flags) (terminals : List Terminal) :
    Unreported (ofTerminals flags terminals) := by
  refine unreported_bind (unreported_inOrder terminals) fun ordered _ => ?_
  refine unreported_bind (unreported_mapM (fun e => ?_) _) fun keywords _ => ?_
  · exact unreported_bind (unreported_joined flags e.2) fun branches _ => unreported_ok _
  · exact unreported_bind (unreported_joined flags _) fun branches _ => unreported_ok _

theorem unreported_findFrom (sc : Scanner) (text : List Char) {rounds : Nat} {p : Position} {last : Option Lexeme} :
    ∀ x ∈ sc.findFrom text rounds p last, Unreported x := by
  induction rounds generalizing p last with
  | zero =>
      unfold findFrom
      split
      · exact List.forall_mem_nil _
      · exact List.forall_mem_singleton.mpr (unreported_error (foreign_fault _ _))
  | succ rounds ih =>
      unfold findFrom
      split
      · exact List.forall_mem_nil _
      · split
        · refine List.forall_mem_singleton.mpr (unreported_error fun r h => ?_)
          cases h
        · exact List.forall_mem_cons.mpr ⟨unreported_ok _, ih⟩

end Scanner

namespace Language

/-- What a text fails to be cut into lexemes with is no report. -/
theorem unreported_findings (l : Language) (text : String) : ∀ x ∈ l.findings text, Unreported x := by
  unfold findings
  split
  · exact fun x hx => nomatch hx
  · split
    · exact List.forall_mem_singleton.mpr (unreported_error (foreign_fault _ _))
    · cases hscanner : Scanner.ofTerminals l.flags l.terminals with
      | ok sc => exact sc.unreported_findFrom text.toList
      | error f =>
          exact List.forall_mem_singleton.mpr
            (unreported_error (Scanner.unreported_ofTerminals l.flags l.terminals f hscanner))

end Language

namespace Bridge

theorem unreported_tokensOf {symbols : Symbols} {hidden : List String} {text : String} {place : Int × Int}
    {xs : List (Except Failure Lexeme)} (h : ∀ x ∈ xs, Unreported x) :
    ∀ t ∈ tokensOf symbols hidden text place xs, Unreported t := by
  induction xs generalizing place with
  | nil => exact List.forall_mem_singleton.mpr (unreported_ok _)
  | cons x xs ih =>
      rw [List.forall_mem_cons] at h
      cases x with
      | error f => exact List.forall_mem_singleton.mpr (unreported_error (h.1 f rfl))
      | ok x => exact List.forall_mem_cons.mpr ⟨unreported_ok _, ih h.2⟩

theorem unreported_emission (l : Language) (text : String) : ∀ t ∈ emission l text, Unreported t := by
  refine unreported_tokensOf fun x hx => ?_
  obtain ⟨f, hf, rfl⟩ := List.mem_map.mp hx
  have hfinding := l.unreported_findings text f hf
  cases f with
  | ok f => exact unreported_ok _
  | error f => exact unreported_error (hfinding f rfl)

end Bridge

/-! ## Reading -/

namespace Language

variable (l : Language) (rule : String)

theorem unreported_begin : Unreported (l.begin rule) := by
  unfold begin
  split
  · exact unreported_ok _
  · exact unreported_error (foreign_fault _ _)

theorem foreign_unexpected (x : Lexeme) (expected : List String) : (unexpected x expected).Foreign :=
  fun _ h => nomatch h

theorem unreported_shift (s : Stack) (x : Lexeme) : Unreported (l.shift rule s x) := by
  unfold shift
  split
  · exact unreported_ok _
  · exact unreported_error (foreign_unexpected x _)
  · exact unreported_error (foreign_fault _ _)

theorem unreported_finish (s : Stack) (x : Lexeme) : Unreported (l.finish rule s x) := by
  unfold finish
  split
  · exact unreported_ok _
  · exact unreported_error (foreign_unexpected x _)
  · exact unreported_error (foreign_fault _ _)

/-- What the reading of some tokens fails with is no report. -/
theorem unreported_perform (tokens : List Token) :
    Unreported (l.reading.perform rule (Bridge.script l tokens)) := by
  refine unreported_bind (l.unreported_begin rule) fun start _ => ?_
  refine unreported_bind (unreported_foldlM (l.unreported_shift rule) _ start) fun state _ => ?_
  refine unreported_bind ?_ fun x _ => l.unreported_finish rule state x
  unfold Bridge.script
  dsimp only
  split
  · exact unreported_error (foreign_fault _ _)
  · exact unreported_ok _

end Language

/-- No numbers are written in a tree that productions have made. -/
theorem Grown.numbers_eq {a : Automaton} {xs : List Lexeme} {t : Tree} (h : Grown a xs t) : t.numbers = [] := by
  induction h with
  | lexeme _ => rw [Tree.numbers]
  | null _ _ => exact Tree.numbers_of_isNull rfl
  | node _ ih => rw [Tree.numbers, Tree.numbersOfAll_eq_nil ih]

end Grammar

/-! ## Streams -/

/-- A stream that has been filled keeps its tokens. -/
theorem Stream.fill_again {s s' : Stream} {tokens : List Token} (h : s.fill = (.ok tokens, s')) :
    s'.fill.1 = .ok tokens := by
  cases hfilled : s.filled with
  | true =>
      rw [fill_of_filled s hfilled] at h
      obtain ⟨htokens, rfl⟩ := Prod.mk.inj h
      rw [fill_of_filled s hfilled, htokens]
  | false =>
      rw [fill_eq s hfilled] at h
      split at h
      · cases (Prod.mk.inj h).1
      · obtain ⟨htokens, rfl⟩ := Prod.mk.inj h
        rw [fill_of_filled _ rfl, htokens]

theorem Emission.mem_of_failure? {e : Emission} {f : Failure} (h : e.failure? = some f) : .error f ∈ e := by
  unfold failure? at h
  split at h
  · rename_i f' hlast
    obtain rfl := Option.some.inj h
    exact (prefix_toEnd e).subset (List.mem_of_getLast? hlast)
  · cases h

/-! ## Runs -/

namespace Class

theorem checkTakesOne_of_complete {c : Class} (hrole : (c.isLexer || c.isParser) = true)
    (hcomplete : c.isAbstract = false) : c.checkTakesOne = .ok () := by
  unfold isAbstract at hcomplete
  have hmissing : c.own.missing = [] := by simpa using hcomplete
  unfold checkTakesOne checkComplete
  rw [if_pos hrole, hmissing, Report.sorted, List.mergeSort_nil]

end Class

namespace GrammarClasses

open Bridge Run

variable {g : GrammarClasses} {rule text : String} {tokens : List Token} {t : Tree} {m : Module}
  {grammar : Option String}

/-- The entries of the table can be called with the parser alone. -/
theorem fit_grammarRule (rule : String) : (Entry.grammarRule rule).Fit := by
  refine ⟨{}, rfl, (Signature.check_cases rule {}).elim And.left fun h => ?_⟩
  obtain ⟨-, message, hmessage⟩ := h
  cases hmessage

theorem Made.checkTakesOne (hg : g.Made) :
    g.lexer.checkTakesOne = .ok () ∧ g.parser.checkTakesOne = .ok () := by
  have hisLexer := hg.lexerFinds.isLexer
  have hisParser := hg.isParser
  obtain ⟨id, name, home, log, h⟩ := hg
  have hlabelled := labelled_of_ofLanguage h
  constructor
  · exact Class.checkTakesOne_of_complete (by rw [hisLexer]; rfl) hlabelled.lexer.complete
  · exact Class.checkTakesOne_of_complete (by rw [hisParser, Bool.or_true]) hlabelled.parser.complete

theorem opening_eq (hg : g.Made) (hrule : rule ∈ g.rules) (hlexer : m.lexerType grammar = .ok g.lexer)
    (hparser : m.parserType grammar = .ok g.parser) :
    opening m rule grammar = .ok (g.lexer, g.parser, symbolItems g.language) := by
  unfold opening
  rw [hlexer, hparser]
  dsimp only [bind, Except.bind]
  rw [rule_eq hg hrule, hg.checkTakesOne.1, lexer_symbolValues hg]
  rfl

/-! ## Accepted inputs -/

/-- The lexer class makes these tokens of the text. -/
def Lexes (g : GrammarClasses) (text : String) (tokens : List Token) : Prop :=
  (Stream.ofEmission (g.lexer.emission text)).fill.1 = .ok tokens

/-- The rule is read from the tokens of the default channel, and this is what comes of them. -/
def Accepts (g : GrammarClasses) (rule : String) (tokens : List Token) (t : Tree) : Prop :=
  g.language.reading.perform rule (script g.language tokens) = .ok t

/-- What a run hands over. -/
structure HandsOver (g : GrammarClasses) (tokens : List Token) (t : Tree) (run : Run) : Prop where
  tree : run.tree = t
  tokens : run.tokens = tokens
  lexer : run.lexer = g.lexer
  parser : run.parser = g.parser
  symbols : run.symbols = symbolItems g.language

theorem notNull_null (rule : String) : notNull rule (.leaf .null) = .error (Parser.nothingReturned rule) := rfl

theorem notNull_of_ne (rule : String) (ht : t ≠ .leaf .null) : notNull rule t = .ok t := by
  unfold notNull
  rw [if_neg]
  intro hnull
  cases t with
  | leaf v =>
      cases v with
      | null => exact ht rfl
      | _ => cases hnull
  | _ => cases hnull

theorem eq_null_of_notNull {f : Failure} (h : notNull rule t = .error f) :
    t = .leaf .null ∧ f = Parser.nothingReturned rule := by
  by_cases ht : t = .leaf .null
  · rw [ht, notNull_null] at h
    exact ⟨ht, (Except.error.inj h).symm⟩
  · rw [notNull_of_ne rule ht] at h
    cases h

/-- A null stands for an optional part that is absent, as the only child of a rule that gives its only child. -/
theorem productions_of_null (h : g.Accepts rule tokens (.leaf .null)) :
    (∃ p ∈ g.language.automaton.productions.toList, p.Collapses) ∧
      ∃ p ∈ g.language.automaton.productions.toList, p.LeavesNull := by
  obtain ⟨hgrown, ⟨label, children, hnode⟩ | hcollapses⟩ := Language.perform_grown h
  · cases hnode
  · cases hgrown with
    | null hp hnull => exact ⟨hcollapses, _, hp, hnull⟩

/-- The invocation of a rule on a stream that holds some tokens: the tree is given unless it is null, and only then
the invocation is reported. -/
theorem invoke_accepted (hg : g.Made) (hrule : rule ∈ g.rules) {s : Stream} (hs : s.fill.1 = .ok tokens) :
    (∀ t, g.Accepts rule tokens t → t ≠ .leaf .null →
      ((Parser.ofStream g.parser s).invoke rule).result = .ok t) ∧
    ∀ r, ((Parser.ofStream g.parser s).invoke rule).result = .error (.report r) ↔
      .report r = Parser.nothingReturned rule ∧ g.Accepts rule tokens (.leaf .null) := by
  rw [invoke_eq hg hrule hs]
  refine ⟨fun t haccepts ht => ?_, fun r => ⟨fun h => ?_, ?_⟩⟩
  · rw [show g.language.reading.perform rule _ = .ok t from haccepts]
    exact notNull_of_ne rule ht
  · rcases Outcome.bind_error h with hperform | ⟨t, hperform, hnull⟩
    · exact absurd rfl (g.language.unreported_perform rule tokens _ hperform r)
    · obtain ⟨rfl, hreport⟩ := eq_null_of_notNull hnull
      exact ⟨hreport, hperform⟩
  · rintro ⟨hreport, haccepts⟩
    rw [show g.language.reading.perform rule _ = .ok (.leaf .null) from haccepts, hreport]
    exact notNull_null rule

/-- How far a run with the two classes of a grammar comes. -/
theorem phase_eq (hg : g.Made) (hrule : rule ∈ g.rules) (hlexer : m.lexerType grammar = .ok g.lexer)
    (hparser : m.parserType grammar = .ok g.parser) (text : String) :
    (∃ f stream, phase m text rule grammar = .unfilled f stream ∧ f.Foreign ∧
      ∀ tokens, ¬ g.Lexes text tokens) ∨
    ∃ tokens stream, g.Lexes text tokens ∧ stream.fill.1 = .ok tokens ∧
      let r : Run.Reading := ⟨g.lexer, g.parser, symbolItems g.language, tokens, stream⟩
      phase m text rule grammar =
        .read r (((Parser.ofStream g.parser stream).invoke rule).result.map (r.handoff rule)) := by
  unfold phase
  rw [opening_eq hg hrule hlexer hparser]
  dsimp only
  rcases hfill : (Stream.ofEmission (g.lexer.emission text)).fill with ⟨f | tokens, stream⟩
  · refine Or.inl ⟨f, stream, rfl, ?_, fun tokens htokens => ?_⟩
    · obtain ⟨hfailure, -⟩ := taken_of_fill hfill
      have hmem := Emission.mem_of_failure? hfailure
      rw [emission_eq hg] at hmem
      exact unreported_emission g.language text _ hmem f rfl
    · unfold Lexes at htokens
      rw [hfill] at htokens
      cases htokens
  · refine Or.inr ⟨tokens, stream, ?_, Stream.fill_again hfill, ?_⟩
    · unfold Lexes
      rw [hfill]
    · unfold Run.Reading.finish Run.Reading.invocation
      dsimp only
      rw [hg.checkTakesOne.2]
      cases ((Parser.ofStream g.parser stream).invoke rule).result <;> rfl

/-- The bench can write all the lines that are asked for, unless a number in the line of a token is too long. -/
theorem written_lines (hg : g.Made) (hrule : rule ∈ g.rules) (hlexer : m.lexerType grammar = .ok g.lexer)
    (hparser : m.parserType grammar = .ok g.parser) {o : RunOptions}
    (hnumbers : ∀ tokens, o.showTokens = true → g.Lexes text tokens →
      ∀ x ∈ tokens, (x.lineNumbers (Class.symbolsOfValues (symbolItems g.language))).all isWritable = true) :
    ((phase m text rule grammar).lines o {}).failure? = none := by
  obtain ⟨f, stream, hphase, -, -⟩ | ⟨tokens, stream, hlexes, hstream, hphase⟩ :=
    phase_eq hg hrule hlexer hparser text
  · rw [hphase]
    rfl
  rw [hphase, Lines.failure?_eq_none]
  intro line hline
  rcases List.mem_append.mp hline with htoken | htree
  · obtain ⟨hshown, htoken⟩ := Lines.mem_onlyIf htoken
    obtain ⟨x, hx, rfl⟩ := List.mem_map.mp htoken
    exact ⟨_, if_pos (hnumbers tokens hshown hlexes x hx)⟩
  · cases hresult : ((Parser.ofStream g.parser stream).invoke rule).result with
    | error f =>
        rw [hresult] at htree
        cases htree
    | ok t =>
        rw [hresult] at htree
        rw [List.mem_singleton.mp (Lines.mem_onlyIf htree).2]
        refine ⟨t.written, (Showing.treeLine_eq t).trans ?_⟩
        rw [(Language.perform_grown (perform_of_invoke hg hrule hstream hresult).1).1.numbers_eq, withNumbers_nil]

/-- **Accepted inputs.** Every entry of the table can be called with the parser alone. When the lexer makes tokens of
a text and the rule is read from them, the invocation gives the tree, unless it is null, and so does the run when the
lines that are asked for can be written; and the tree is null only where a rule is replaced by its only child and an
optional part is absent. This is the one way in which an invocation or a run with a rule of a grammar ends with a
report. The bench itself can write all lines, unless a token has a number that is too long. -/
theorem run_accepted (hg : g.Made) (hrule : rule ∈ g.rules) (hlexer : m.lexerType grammar = .ok g.lexer)
    (hparser : m.parserType grammar = .ok g.parser) (text : String) (w : World) (o : RunOptions) (s : Showing) :
    (∃ e, g.parser.rule rule = .ok e ∧ e.Fit) ∧
    (∀ tokens t, g.Lexes text tokens → g.Accepts rule tokens t → t ≠ .leaf .null →
      (∀ st : Stream, st.fill.1 = .ok tokens → ((Parser.ofStream g.parser st).invoke rule).result = .ok t) ∧
      ∃ run, g.HandsOver tokens t run ∧ (w.run (Run.parse o m text rule grammar s)).1 =
        ((phase m text rule grammar).lines o s).before (.ok run)) ∧
    (∀ tokens, g.Accepts rule tokens (.leaf .null) →
      (∃ p ∈ g.language.automaton.productions.toList, p.Collapses) ∧
        ∃ p ∈ g.language.automaton.productions.toList, p.LeavesNull) ∧
    (∀ tokens r, ∀ st : Stream, st.fill.1 = .ok tokens →
      (((Parser.ofStream g.parser st).invoke rule).result = .error (.report r) ↔
        .report r = Parser.nothingReturned rule ∧ g.Accepts rule tokens (.leaf .null))) ∧
    (∀ r, ((phase m text rule grammar).lines o s).failure? = none →
      ((w.run (Run.parse o m text rule grammar s)).1 = .error (.report r) ↔
        .report r = Parser.nothingReturned rule ∧
          ∃ tokens, g.Lexes text tokens ∧ g.Accepts rule tokens (.leaf .null))) ∧
    ((∀ tokens, o.showTokens = true → g.Lexes text tokens →
      ∀ x ∈ tokens, (x.lineNumbers (Class.symbolsOfValues (symbolItems g.language))).all isWritable = true) →
      ((phase m text rule grammar).lines o {}).failure? = none) := by
  have houtcome : (w.run (Run.parse o m text rule grammar s)).1 =
      ((phase m text rule grammar).lines o s).before (phase m text rule grammar).outcome := by
    obtain ⟨early, late, hrun⟩ := run_parse w m text rule grammar
    rw [hrun o s]
  rw [houtcome]
  refine ⟨⟨_, rule_eq hg hrule, fit_grammarRule rule⟩, fun tokens t hlexes haccepts ht => ?_,
    fun tokens h => productions_of_null h, fun tokens r s hs => (invoke_accepted hg hrule hs).2 r,
    fun r hwritten => ?_, written_lines hg hrule hlexer hparser⟩
  · refine ⟨fun s hs => (invoke_accepted hg hrule hs).1 t haccepts ht, ?_⟩
    obtain ⟨f, stream, -, -, hnone⟩ | ⟨tokens', stream, hlexes', hstream, hphase⟩ :=
      phase_eq hg hrule hlexer hparser text
    · exact absurd hlexes (hnone tokens)
    · obtain rfl := Except.ok.inj (hlexes.symm.trans hlexes')
      rw [hphase, (invoke_accepted hg hrule hstream).1 t haccepts ht]
      exact ⟨_, ⟨rfl, rfl, rfl, rfl, rfl⟩, rfl⟩
  · unfold Lines.before
    rw [hwritten, Option.elim_none]
    obtain ⟨f, stream, hphase, hforeign, hnone⟩ | ⟨tokens, stream, hlexes, hstream, hphase⟩ :=
      phase_eq hg hrule hlexer hparser text
    · rw [hphase]
      constructor
      · intro h
        exact absurd (Except.error.inj h) (hforeign r)
      · rintro ⟨-, tokens, hlexes, -⟩
        exact absurd hlexes (hnone tokens)
    · have hreported : (phase m text rule grammar).outcome = .error (.report r) ↔
          ((Parser.ofStream g.parser stream).invoke rule).result = .error (.report r) := by
        rw [hphase]
        exact Outcome.map_eq_error
      rw [hreported, (invoke_accepted hg hrule hstream).2 r]
      constructor
      · rintro ⟨hreport, haccepts⟩
        exact ⟨hreport, tokens, hlexes, haccepts⟩
      · rintro ⟨hreport, tokens', hlexes', haccepts⟩
        obtain rfl := Except.ok.inj (hlexes'.symm.trans hlexes)
        exact ⟨hreport, haccepts⟩

/-- A module that binds the two classes. -/
def asModule (g : GrammarClasses) : Module :=
  { name := g.lexer.home, names := [("L", .type g.lexer), ("P", .type g.parser)] }

theorem types_asModule {id : Nat} {name home : String} (h : g.LabelledPair id name home)
    (hid : Layer.firstFree ≤ id) :
    g.asModule.lexerType none = .ok g.lexer ∧ g.asModule.parserType none = .ok g.parser := by
  have hoffered : g.asModule.offered = .ok [g.lexer, g.parser] := by
    show Except.ok ([g.lexer, g.parser].filter fun c => c.home = g.lexer.home) = _
    rw [List.filter_eq_self.mpr]
    simp [h.lexer.home, h.parser.home]
  have hlexer (r : Role) : r.fits g.lexer = decide (r = .lexer) := by
    rw [Bool.eq_iff_iff, fits_lexerClass h hid r, decide_eq_true_iff]
  have hparser (r : Role) : r.fits g.parser = decide (r = .parser) := by
    rw [Bool.eq_iff_iff, fits_parserClass h hid r, decide_eq_true_iff]
  constructor
  all_goals
    simp only [Module.lexerType, Module.parserType, Module.chosen, Module.candidates, hoffered, bind, Except.bind,
      List.filter_cons, hlexer, hparser]
    rfl

/-- A newline is read as itself, and handed over. -/
theorem run_accepted_optionalText : ∃ g run, build Layer.firstFree "g" optionalText "m" [] bareShelf = .ok g ∧
    (World.run { files := Files.empty [] } (Run.parse {} g.asModule "\n" "start" none)).1 = .ok run ∧
    run.tree = .lexeme breakLexeme := by
  obtain ⟨g, hbuild, hg, hlanguage, hrule⟩ := exists_build_single (.head _)
  obtain ⟨hlexer, hparser⟩ := types_asModule (labelled_of_build hbuild) (Nat.le_refl _)
  have hlexes : g.Lexes "\n" breakTokens := by
    unfold Lexes
    rw [emission_eq hg, hlanguage]
    decide +kernel
  have haccepts : g.Accepts "start" breakTokens (.lexeme breakLexeme) := by
    unfold Accepts
    rw [hlanguage]
    rfl
  obtain ⟨-, htree, -, -, -, hwritten⟩ :=
    run_accepted hg hrule hlexer hparser "\n" { files := Files.empty [] } {} {}
  obtain ⟨-, run, hhands, hrun⟩ := htree _ _ hlexes haccepts (by simp)
  refine ⟨g, run, hbuild, ?_, hhands.tree⟩
  rw [hrun, Lines.before, hwritten fun _ h => absurd h Bool.false_ne_true, Option.elim_none]

/-- The end of an empty text. -/
def endTokens : List Token := [⟨-1, some "<EOF>", 0, -1, 1, 0, 0, 0⟩]

/-- The empty text is accepted, and still the invocation is reported, as what is absent is all of its tree. -/
theorem refused_optionalText : ∃ g, build Layer.firstFree "g" optionalText "m" [] bareShelf = .ok g ∧
    "start" ∈ g.rules ∧ g.Lexes "" endTokens ∧ g.Accepts "start" endTokens (.leaf .null) ∧
    ((Parser.ofStream g.parser (Stream.ofEmission (g.lexer.emission ""))).invoke "start").result =
      .error (Parser.nothingReturned "start") := by
  obtain ⟨g, hbuild, hg, hlanguage, hrule⟩ := exists_build_single (.head _)
  have hlexes : g.Lexes "" endTokens := by
    unfold Lexes
    rw [emission_eq hg, hlanguage]
    decide +kernel
  have haccepts : g.Accepts "start" endTokens (.leaf .null) := by
    unfold Accepts
    rw [hlanguage]
    rfl
  exact ⟨g, hbuild, hrule, hlexes, haccepts, ((invoke_accepted hg hrule hlexes).2 _).mpr ⟨rfl, haccepts⟩⟩

end GrammarClasses

end GrammarBench
