import GrammarBench.CommandLine.Command
import GrammarBench.Proofs.Phases
import GrammarBench.Proofs.Registry

/-!
# Outcomes of the command

How the command ends is told by what the run of the test file ends with, and what it prints by how far that run
comes. Loading a module prints nothing, so nothing but the lines of the tokens can be printed before a failure.

* `Loading.silent_loadModule`: loads print nothing.
* `Run.course`, `Run.run_process`: how far the run of a file comes, and what is printed by then.
* `Command.run_outcome`: how the command ends and what it prints.
-/

namespace GrammarBench

open World

/-! ## Loads print nothing -/

/-- Nothing has been printed between two worlds. -/
def World.Silent (w w' : World) : Prop := w'.output = w.output

instance : IsPreorder World Silent where
  refl _ := rfl
  trans _ _ _ h h' := h'.trans h

namespace Loading

open Compile

theorem silent_configOf (directory : String) (config : Option String) :
    Respects Silent (configOf directory config) := by
  intro w
  obtain ⟨w', hrun, hnoted⟩ := run_configOf w directory config
  rw [hrun]
  exact hnoted.output

theorem silent_findFiles (directory : String) (patterns : List String) :
    Respects Silent (findFiles directory patterns) := by
  intro w
  obtain ⟨w', hrun, hnoted⟩ := run_findFiles w directory patterns
  rw [hrun]
  exact hnoted.output

theorem silent_build (d : Draft) : Respects Silent (build d) := by
  intro w
  have hbodies : Silent (entered w d) (runAll w.modules.size (entered w d) d.bodies).2 :=
    (imported_runAll _ _ _).output
  rw [run_build]
  rcases hran : runAll w.modules.size (entered w d) d.bodies with ⟨_ | ⟨path, f⟩, w'⟩ <;> rw [hran] at hbodies <;>
    exact hbodies

theorem silent_compileModule (files references : List String) (name : Option String)
    (options : List (String × Value)) : Respects Silent (compileModule files references name options) := by
  refine Respects.bind (fun w => ?_) silent_build
  exact (imported_prepare w files references _ options).output.trans
    (noted_behindFiles w _ options files).output

theorem silent_loadSourceFile (path : String) : Respects Silent (loadSourceFile path) := by
  intro w
  have hbody : Silent (holding w path) ((holding w path).run (Loading.runFile path w.modules.size)).2 :=
    (imported_runFile _ _ _).output
  rw [run_loadSourceFile]
  rcases hran : (holding w path).run (Loading.runFile path w.modules.size) with ⟨f | u, w'⟩ <;>
    rw [hran] at hbody <;> exact hbody

theorem silent_loadFile (path : String) : Respects Silent (loadFile path) := by
  unfold loadFile
  split
  · exact silent_compileModule _ _ _ _
  · split
    · exact silent_loadSourceFile path
    · split
      · exact Respects.bind Respects.get fun _ => Respects.throw _
      · exact Respects.throw _

theorem silent_loadNamed (name : String) : Respects Silent (loadNamed name) := by
  refine Respects.tryCatch (fun w => (Import.imported_module imported_run name w).output) fun f => ?_
  split
  · split <;> exact Respects.throw _
  · exact Respects.throw _
  · exact Respects.throw _

/-- A load prints nothing, whatever comes of it. -/
theorem silent_loadModule (source : String) (config : Option String) :
    Respects Silent (loadModule source config) := by
  have hnote : ∀ level speaker message, Respects Silent (note level speaker message) := fun _ _ _ _ => rfl
  refine Respects.bind Respects.get fun w => ?_
  dsimp only
  split
  · refine Respects.bind (hnote _ _ _) fun _ => ?_
    exact Respects.bind (silent_configOf source config) fun c =>
      Respects.bind (silent_findFiles source c.patterns) fun files => silent_compileModule _ _ _ _
  · split
    · exact Respects.bind (hnote _ _ _) fun _ => silent_loadFile source
    · split
      · exact Respects.bind (hnote _ _ _) fun _ => silent_loadNamed source
      · exact Respects.throw _

end Loading

/-! ## Runs of files -/

namespace Run

/-- How far the run of a file comes. Without a module or an input nothing is read. -/
def course (w : World) (source rule path : String) (grammar config : Option String) : Phase :=
  match w.run (Loading.loadModule source config) with
  | (.error f, _) => .unread f
  | (.ok id, w') =>
    match inputText w'.files path with
    | .error f => .unread f
    | .ok text => phase (w'.module id) text rule grammar

theorem run_readInput (w : World) (path : String) : w.run (readInput path) = (inputText w.files path, w) := by
  unfold readInput
  rw [run_bind_ok (run_get w), run_lift]

/-- The line noted down about a module that has been loaded. -/
def loadedLine (m : Module) : LogLine :=
  ⟨.debug, "grunpy.harness", "Loaded grammar module " ++ m.ownName⟩

/-- The world in which the input file is read: the module has been loaded, and a line tells so. -/
def announced (w : World) (id : ModuleId) : World := { w with log := loadedLine (w.module id) :: w.log }

/-- Once its module has been loaded, a run is that of the text of its input file. -/
theorem run_process_loaded {w w' : World} {o : RunOptions} {source : String} {id : ModuleId}
    (h : w.run (Loading.loadModule source o.config) = (.ok id, w')) (rule path : String) (grammar : Option String)
    (s : Showing) :
    w.run (process o source rule path grammar s) =
      match inputText w'.files path with
      | .ok text => (announced w' id).run (parse o (w'.module id) text rule grammar s)
      | .error f => (.error f, announced w' id) := by
  have hread : (announced w' id).run (readInput path) = (inputText w'.files path, announced w' id) :=
    run_readInput (announced w' id) path
  unfold process
  rw [run_bind_ok h, run_bind_ok (run_get w'), run_bind_ok (run_note _ _ _ _)]
  cases hinput : inputText w'.files path with
  | ok text =>
      rw [hinput] at hread
      exact run_bind_ok hread _
  | error f =>
      rw [hinput] at hread
      exact run_bind_error hread _

/-- The run of a file ends as far as it comes, unless a line that is asked for cannot be written, and prints what is
asked for by then. -/
theorem run_process (w : World) (o : RunOptions) (source rule path : String) (grammar : Option String) (s : Showing) :
    (w.run (process o source rule path grammar s)).1 =
        ((course w source rule path grammar o.config).lines o s).before
          (course w source rule path grammar o.config).outcome ∧
      (w.run (process o source rule path grammar s)).2.output =
        w.output ++ ((course w source rule path grammar o.config).lines o s).text := by
  have hloaded : (w.run (Loading.loadModule source o.config)).2.output = w.output :=
    Loading.silent_loadModule source o.config w
  unfold course
  rcases hload : w.run (Loading.loadModule source o.config) with ⟨f | id, w'⟩ <;> rw [hload] at hloaded
  · unfold process
    rw [run_bind_error hload]
    exact ⟨rfl, hloaded.trans String.append_empty.symm⟩
  · dsimp only at hloaded ⊢
    rw [run_process_loaded hload]
    cases hinput : inputText w'.files path with
    | error f => exact ⟨rfl, hloaded.trans String.append_empty.symm⟩
    | ok text =>
        obtain ⟨early, late, hparse⟩ := run_parse (announced w' id) (w'.module id) text rule grammar
        dsimp only
        rw [hparse o s, ← hloaded]
        exact ⟨rfl, rfl⟩

/-- When the tokens have been read, they are those of the input. -/
theorem exists_held {w : World} {source rule path : String} {grammar config : Option String} {r : Reading}
    {result : Except Failure Run} (h : course w source rule path grammar config = .read r result) :
    ∃ id w' text, w.run (Loading.loadModule source config) = (.ok id, w') ∧
      inputText w'.files path = .ok text ∧ r.Held text := by
  unfold course at h
  rcases hload : w.run (Loading.loadModule source config) with ⟨f | id, w'⟩ <;> rw [hload] at h
  · cases h
  · dsimp only at h
    cases hinput : inputText w'.files path with
    | error f =>
        rw [hinput] at h
        cases h
    | ok text =>
        rw [hinput] at h
        refine ⟨id, w', text, rfl, hinput, ?_⟩
        dsimp only at h
        unfold phase at h
        split at h
        · cases h
        · split at h
          · cases h
          · next hfill =>
            cases h
            exact held_of_fill hfill

end Run

/-! ## The command -/

namespace CommandLine.Command

/-- What is to be shown of a run that some settings ask for. -/
def options (s : Settings) : RunOptions := { showTokens := s.tokens, showTree := s.tree, config := s.config }

/-- The world that the command starts to work in: nothing has been noted down or printed. -/
def blank (w : World) : World := { w with log := [], output := "" }

/-- How far the run comes that some settings ask for. -/
def course (w : World) (s : Settings) : Run.Phase :=
  Run.course (blank w) (s.source.getD "") (s.rule.getD "") (s.test.getD "") s.grammar s.config

/-- The run ends as far as it comes, unless a line that is asked for cannot be written, and what is asked for by then is
all that is printed before the drawing. -/
theorem run_asked (w : World) (s : Settings) (c : Console) :
    ((blank w).run (asked s c)).1 = ((course w s).lines (options s) c.showing).before (course w s).outcome ∧
      ((blank w).run (asked s c)).2.output = ((course w s).lines (options s) c.showing).text := by
  obtain ⟨houtcome, houtput⟩ := Run.run_process (blank w) (options s) (s.source.getD "") (s.rule.getD "")
    (s.test.getD "") s.grammar c.showing
  exact ⟨houtcome, houtput.trans String.empty_append⟩

/-! ### Endings -/

/-- How a failure ends the command: as itself or with a code, unless a line about it cannot be written. -/
def told (c : Console) (f : Failure) : Ending := (errorLines c.showing f).failure?.elim (endingOf f) .failure

/-- The lines that the bench writes about a failure. -/
theorem errorLines_eq {f : Failure} (h : f.numbers.all isWritable = true) :
    errorLines {} f = ("There was an error when trying to parse." :: f.message :: f.details).map .ok := by
  show .ok _ :: withNumbers f.numbers f.message :: f.details.map .ok = _
  unfold withNumbers
  rw [if_pos h]
  rfl

theorem told_ne_code_zero (c : Console) (f : Failure) : told c f ≠ .code 0 := by
  unfold told
  cases (errorLines c.showing f).failure? with
  | some f' => exact nofun
  | none => cases f <;> exact nofun

theorem told_eq_code_one (c : Console) (f : Failure) : told c f = .code 1 ↔
    ∃ report, f = .report report ∧ (errorLines c.showing (.report report)).failure? = none := by
  unfold told
  cases f with
  | report report =>
      cases hfailure : (errorLines c.showing (.report report)).failure? with
      | some f' => exact ⟨nofun, fun ⟨_, heq, hnone⟩ => by cases heq; rw [hfailure] at hnone; cases hnone⟩
      | none => exact ⟨fun _ => ⟨report, rfl, hfailure⟩, fun _ => rfl⟩
  | _ =>
      refine ⟨fun h => ?_, fun ⟨_, heq, _⟩ => nomatch heq⟩
      cases hfailure : (errorLines c.showing _).failure? <;> rw [hfailure] at h <;> cases h

theorem told_eq_failure (c : Console) (f f' : Failure) :
    told c f = .failure f' ↔ (errorLines c.showing f).failure? = some f' ∨
      (errorLines c.showing f).failure? = none ∧ f = f' ∧ ∀ report, f' ≠ .report report := by
  unfold told
  cases (errorLines c.showing f).failure? with
  | some f'' => simp
  | none =>
      cases f with
      | report report => exact ⟨nofun, by rintro (h | ⟨-, h, hother⟩); cases h; exact absurd h.symm (hother report)⟩
      | _ =>
          refine ⟨fun h => Or.inr ?_, by rintro (h | ⟨-, rfl, -⟩); cases h; rfl⟩
          obtain rfl := Ending.failure.inj h
          exact ⟨rfl, rfl, nofun⟩

/-- How the drawing of a tree ends the command. -/
def drawn : Except Failure String → Ending
  | .ok _ => .code 0
  | .error f => .failure f

theorem drawn_eq_code_zero {page : Except Failure String} : drawn page = .code 0 ↔ ∃ text, page = .ok text := by
  cases page <;> simp [drawn]

theorem drawn_ne_code_one (page : Except Failure String) : drawn page ≠ .code 1 := by
  cases page <;> simp [drawn]

theorem drawn_eq_failure {page : Except Failure String} {f : Failure} : drawn page = .failure f ↔ page = .error f := by
  cases page <;> simp [drawn]

/-- What the command comes to, by what the run ends with and the world that it leaves behind. -/
def conclusion (s : Settings) (c : Console) (outcome : Except Failure Run) (after : World) : Result :=
  let noted := logText s.verbose after.log.reverse
  match outcome with
  | .ok r =>
    { output := after.output ++ (rendering s c r).toOption.getD "", errors := noted, ending := drawn (rendering s c r) }
  | .error f => { output := after.output, errors := noted ++ (errorLines c.showing f).text, ending := told c f }

/-- The command that is accepted and finds its test file runs what is asked for, and concludes. -/
theorem run_eq {arguments : List String} {w : World} {s : Settings} (c : Console)
    (hread : Arguments.read arguments = .ok s) (htest : w.files.isFile (s.test.getD "") = true) :
    (run arguments w c).1 = conclusion s c ((blank w).run (asked s c)).1 ((blank w).run (asked s c)).2 := by
  have hran : (asked s c).run { w with log := [], output := "" } = (blank w).run (asked s c) := rfl
  unfold run
  rw [hread]
  dsimp only
  rw [if_neg (by simp [htest]), hran]
  rcases (blank w).run (asked s c) with ⟨f | r, after⟩
  · rfl
  · unfold conclusion
    dsimp only
    cases rendering s c r with
    | ok page => rfl
    | error f => simp [drawn, Except.toOption]

/-! ### What is printed -/

/-- What the tokens and the tree of a run that succeeds come to on the page. -/
theorem lines_of_ok {w : World} {s : Settings} {c : Console} {r : Run}
    (h : ((blank w).run (asked s c)).1 = .ok r) :
    ∃ reading, course w s = .read reading (.ok r) ∧ (course w s).lines (options s) c.showing =
      (reading.lines c.showing).onlyIf s.tokens ++ Lines.onlyIf [c.showing.treeLine r.tree] s.tree := by
  have houtcome := (Lines.before_eq_ok.mp ((run_asked w s c).1.symm.trans h)).2
  cases hcourse : course w s with
  | read reading result =>
      rw [hcourse] at houtcome
      obtain rfl : result = .ok r := houtcome
      exact ⟨reading, rfl, rfl⟩
  | _ =>
      rw [hcourse] at houtcome
      cases houtcome

/-- The tree of a run that fails is not written. -/
theorem text_treeLines {o : RunOptions} {s : Showing} {p : Run.Phase} {f : Failure}
    (h : (p.treeLines o s).before p.outcome = .error f) : (p.treeLines o s).text = "" := by
  cases p with
  | unread f' => rfl
  | unfilled f' stream => rfl
  | read reading result =>
      cases result with
      | error f' => rfl
      | ok r =>
          change (Lines.onlyIf [s.treeLine r.tree] o.showTree).before (.ok r) = _ at h
          show (Lines.onlyIf [s.treeLine r.tree] o.showTree).text = ""
          unfold Lines.onlyIf at h ⊢
          cases hshown : o.showTree with
          | false => rfl
          | true =>
              rw [hshown] at h
              cases hline : s.treeLine r.tree with
              | error f' => rfl
              | ok line =>
                  rw [hline] at h
                  cases h

/-- When the run fails, nothing but lines of its tokens is written. -/
theorem text_tokenLines {o : RunOptions} {s : Showing} {p : Run.Phase} {f : Failure}
    (h : (p.lines o s).before p.outcome = .error f) : (p.lines o s).text = (p.tokenLines o s).text := by
  unfold Run.Phase.lines at h ⊢
  rw [Lines.before_append] at h
  rw [Lines.text_append]
  cases htokens : (p.tokenLines o s).failure? with
  | some f' => rw [Option.isNone_some, if_neg Bool.false_ne_true, String.append_empty]
  | none =>
      unfold Lines.before at h
      rw [htokens, Option.elim_none] at h
      rw [text_treeLines h, ite_self, String.append_empty]

/-- What is on the page when a run fails: nothing, unless the tokens have been read and are shown. -/
theorem text_of_error {w : World} {s : Settings} {c : Console} {f : Failure}
    (h : ((blank w).run (asked s c)).1 = .error f) :
    (((course w s).lines (options s) c.showing).text = "" ∧
      (s.tokens = false ∨ ∀ reading result, course w s ≠ .read reading result)) ∨
    (s.tokens = true ∧ ∃ reading result, course w s = .read reading result ∧
      ((course w s).lines (options s) c.showing).text = (reading.lines c.showing).text) := by
  rw [(run_asked w s c).1] at h
  cases hcourse : course w s with
  | unread f' => exact Or.inl ⟨rfl, Or.inr fun _ _ => nofun⟩
  | unfilled f' stream => exact Or.inl ⟨rfl, Or.inr fun _ _ => nofun⟩
  | read reading result =>
      rw [hcourse] at h
      have htext : ((Run.Phase.read reading result).lines (options s) c.showing).text =
          ((reading.lines c.showing).onlyIf s.tokens).text := text_tokenLines h
      rw [htext]
      cases s.tokens with
      | false => exact Or.inl ⟨rfl, Or.inl rfl⟩
      | true => exact Or.inr ⟨rfl, reading, result, rfl, rfl⟩

/-- **The command.** When the arguments are accepted and the test file is there, the command ends with the code zero just
if the run succeeds and its tree can be drawn, when that is asked for; and with the code one just if the run fails with
a report and all the lines about it can be written. Otherwise it ends with what the run failed with, or with what
writing the lines about it or drawing the tree failed with. A failure of the run is told behind the lines noted down: a
fixed line, the message, then the details; nothing has been printed then but lines of the tokens, and these only when
they are shown and all have been read. When the run succeeds the lines of the tokens, the line of the tree and the
drawing are printed, in this order and as far as they are asked for. -/
theorem run_outcome (arguments : List String) (w : World) (s : Settings) (c : Console)
    (hread : Arguments.read arguments = .ok s) (htest : w.files.isFile (s.test.getD "") = true) :
    let processed := (blank w).run (asked s c)
    let noted := logText s.verbose processed.2.log.reverse
    let result := (run arguments w c).1
    (result.ending = .code 0 ↔ ∃ r, processed.1 = .ok r ∧ ∃ page, rendering s c r = .ok page) ∧
    (result.ending = .code 1 ↔ ∃ report, processed.1 = .error (.report report) ∧
      (errorLines c.showing (.report report)).failure? = none) ∧
    (∀ f, result.ending = .failure f ↔
      (∃ f', processed.1 = .error f' ∧ ((errorLines c.showing f').failure? = some f ∨
        (errorLines c.showing f').failure? = none ∧ f' = f ∧ ∀ report, f ≠ .report report)) ∨
      ∃ r, processed.1 = .ok r ∧ rendering s c r = .error f) ∧
    (∀ f, processed.1 = .error f →
      result.errors = noted ++ (errorLines c.showing f).text ∧
      ((result.output = "" ∧ (s.tokens = false ∨ ∀ reading result, course w s ≠ .read reading result)) ∨
        (s.tokens = true ∧ ∃ reading result', course w s = .read reading result' ∧
          result.output = (reading.lines c.showing).text))) ∧
    (∀ r, processed.1 = .ok r → result.errors = noted ∧ ∃ reading, course w s = .read reading (.ok r) ∧
      result.output = Lines.text
        ((reading.lines c.showing).onlyIf s.tokens ++ Lines.onlyIf [c.showing.treeLine r.tree] s.tree) ++
          (rendering s c r).toOption.getD "") ∧
    (∀ reading result, course w s = .read reading result →
      ∃ id w' text, (blank w).run (Loading.loadModule (s.source.getD "") s.config) = (.ok id, w') ∧
        Run.inputText w'.files (s.test.getD "") = .ok text ∧ reading.Held text) := by
  intro processed noted result
  have houtput : processed.2.output = ((course w s).lines (options s) c.showing).text := (run_asked w s c).2
  have hconclusion : result = conclusion s c processed.1 processed.2 := run_eq c hread htest
  cases hprocessed : processed.1 with
  | ok r =>
      obtain ⟨reading, hreading, hlines⟩ := lines_of_ok hprocessed
      have hresult : result = ⟨processed.2.output ++ (rendering s c r).toOption.getD "", noted,
        drawn (rendering s c r)⟩ := by
          rw [hconclusion, hprocessed]
          rfl
      rw [houtput, hlines] at hresult
      clear_value result noted
      subst hresult
      simp only [Except.ok.injEq, reduceCtorEq, false_and, exists_false, false_or, exists_eq_left',
        false_implies, implies_true, true_and, forall_eq', iff_false]
      exact ⟨drawn_eq_code_zero, drawn_ne_code_one _, fun f => drawn_eq_failure, ⟨reading, hreading, rfl⟩,
        fun _ _ => Run.exists_held⟩
  | error f =>
      have hresult : result = ⟨processed.2.output, noted ++ (errorLines c.showing f).text, told c f⟩ := by
        rw [hconclusion, hprocessed]
        rfl
      rw [houtput] at hresult
      clear_value result noted
      subst hresult
      simp only [Except.error.injEq, reduceCtorEq, false_and, exists_false, or_false, exists_eq_left', false_implies,
        implies_true, true_and, forall_eq', iff_false]
      exact ⟨told_ne_code_zero c f, told_eq_code_one c f, told_eq_failure c f, text_of_error hprocessed,
        fun _ _ => Run.exists_held⟩

/-- A module with a lexer that gives one token and a parser with one rule. -/
def ruleBody (body : RuleBody) : List Statement :=
  [.define "ALexer" ["Lexer"] [("tokenize", .lexing (.fixed
      [.ok { kind := 1, text := some "a", start := 0, stop := 0, line := 1, column := 0 }]))] none,
    .define "AParser" ["Parser"] [("start", .function true { body := body })] none]

def ruleWorld (body : RuleBody) : World :=
  { files := ((Files.empty ["w"]).put "a.py" (.program (.body (ruleBody body)))).put "in.txt" (.bytes [97]) }

/-- Its rule fails with a report. -/
def refusingWorld : World := ruleWorld (.fail (.report { kind := .inputFile, message := "no", details := ["more"] }))

def refusingArguments : List String := ["-s", "a.py", "-r", "start", "-f", "in.txt", "--tokens"]

/-- What the arguments ask for. -/
def refusingSettings : Settings :=
  { source := some "a.py", rule := some "start", test := some "in.txt", tokens := true }

theorem run_outcome_refused :
    Arguments.read refusingArguments = .ok refusingSettings ∧ refusingWorld.files.isFile "in.txt" = true ∧
      ∃ report : Report, ((blank refusingWorld).run (asked refusingSettings)).1 = .error (.report report) ∧
        (run refusingArguments refusingWorld).1.errors = String.join
          (("There was an error when trying to parse." :: report.message :: report.details).map (· ++ "\n")) := by
  have hread : Arguments.read refusingArguments = .ok refusingSettings := by decide +kernel
  have htest : refusingWorld.files.isFile "in.txt" = true := by decide +kernel
  have hended : (run refusingArguments refusingWorld).1.ending = .code 1 := by decide +kernel
  have hquiet : logText refusingSettings.verbose
      ((blank refusingWorld).run (asked refusingSettings)).2.log.reverse = "" := by decide +kernel
  obtain ⟨-, hone, -, herror, -⟩ := run_outcome refusingArguments refusingWorld refusingSettings {} hread htest
  obtain ⟨report, hprocessed, -⟩ := hone.mp hended
  have htold : errorLines {} (.report report) =
    ("There was an error when trying to parse." :: report.message :: report.details).map .ok := errorLines_eq rfl
  refine ⟨hread, htest, report, hprocessed, ?_⟩
  have herrors := (herror _ hprocessed).1
  rw [hquiet, String.empty_append] at herrors
  rw [herrors, ← Lines.text_map_ok, ← htold]

/-- A place that is too far off to be told. -/
def distantFailure : Failure := .unexpectedToken ⟨some 1, some (Int.ofNat longNat), none⟩ "no"

/-- The rule fails there. -/
def distantWorld : World := ruleWorld (.fail distantFailure)

/-- The rule returns a node. -/
def nodeWorld : World := ruleWorld (.give (.plain "a" []))

def prettyArguments : List String := ["-s", "a.py", "-r", "start", "-f", "in.txt", "--pretty"]

/-- What the arguments ask for. -/
def prettySettings : Settings :=
  { source := some "a.py", rule := some "start", test := some "in.txt", pretty := true }

/-- What listing the children of a node comes to when there is nothing in their place. -/
def childless : Failure := .fault .type "'NoneType' object is not iterable"

/-- Where no node has children to be listed. -/
def childlessConsole : Console := { showing := { children := fun _ => .error childless } }

/-- The command does not end with what the run fails with, which is no report, but with what telling it fails with; and
where the run hands over a tree that cannot be drawn, the command ends with a failure of which nothing is told. -/
theorem untold_failures :
    (((blank distantWorld).run (asked refusingSettings)).1 = .error distantFailure ∧
      (∀ report, distantFailure ≠ .report report) ∧ Arguments.read refusingArguments = .ok refusingSettings ∧
      distantWorld.files.isFile "in.txt" = true ∧
      (run refusingArguments distantWorld).1.ending = .failure longNumber) ∧
    ((∃ r, ((blank nodeWorld).run (asked prettySettings childlessConsole)).1 = .ok r) ∧
      Arguments.read prettyArguments = .ok prettySettings ∧ nodeWorld.files.isFile "in.txt" = true ∧
      (run prettyArguments nodeWorld childlessConsole).1.ending = .failure childless ∧
      (run prettyArguments nodeWorld childlessConsole).1.errors = "") := by
  have hprocessed : ((blank distantWorld).run (asked refusingSettings)).1.map (fun _ => ()) =
      .error distantFailure := by decide +kernel
  have hgiven : ((blank nodeWorld).run (asked prettySettings childlessConsole)).1.isOk = true := by decide +kernel
  exact ⟨⟨Outcome.map_eq_error.mp hprocessed, fun _ => Failure.noConfusion, by decide +kernel, by decide +kernel,
    by decide +kernel⟩, Outcome.exists_of_isOk hgiven, by decide +kernel, by decide +kernel, by decide +kernel,
    by decide +kernel⟩

end CommandLine.Command

end GrammarBench
