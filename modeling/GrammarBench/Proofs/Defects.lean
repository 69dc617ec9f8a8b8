import GrammarBench.Loading.Compile
import GrammarBench.Proofs.GrammarClasses
import GrammarBench.Proofs.Importing

/-!
# Defects of sources and references

What is wrong with the files of a module and with what it refers to, file by file and reference by
reference, and how a compilation lists it.

* `Compile.verdict`: what one file holds, or what is wrong with it; no other file matters.
* `Compile.lookUps`: what the look-up of each reference fails with, one reference after the other.
* `Compile.run_addFiles`, `Compile.run_addReferences`: the two passes.
-/

namespace GrammarBench.Loading.Compile

open World

/-! ## Files -/

/-- What comes of one file. -/
inductive Verdict where
  | body (statements : List Statement)
  /-- The text of a grammar that is accepted. -/
  | grammar (text : String)
  | defect (line : String)
  /-- A failure that is no diagnostic: a path that no file can have, bytes that are not well formed, or one that no
  grammar is refused with. -/
  | failure (f : Failure)

/-- What comes of the text of a grammar. -/
def grammarVerdict (fs : Files) (options : List (String × Value)) (path text : String) : Verdict :=
  match Grammar.Language.build (shelf fs) text (GrammarClasses.startsOf (Grammar.ruleNames text))
      options with
  | .ok _ => .grammar text
  | .error f =>
    match f.grammarPlace? with
    | some place => .defect (grammarLine path place f)
    | none => .failure f

/-- What comes of one file of a module. -/
def verdict (fs : Files) (options : List (String × Value)) (path : String) : Verdict :=
  match fs.opened path with
  | .error .nullCharacter => .failure Failure.nullInPath
  | .error (.fault f) => .defect (unreadable path f)
  | .ok c =>
    if path.endsWith grammarSuffix then
      match Files.textOf c.data with
      | .ok text => grammarVerdict fs options path (String.ofList text)
      | .error f => .failure (.undecodable f)
    else
      match programIn c with
      | .ok (.body statements) => .body statements
      | .ok (.defective d) => .defect (defectLine path d)
      | .error f => .failure f

namespace Verdict

def line? : Verdict → Option String
  | defect line => some line
  | _ => none

def failure? : Verdict → Option Failure
  | failure f => some f
  | _ => none

def body? : Verdict → Option (List Statement)
  | body statements => some statements
  | _ => none

def grammar? : Verdict → Option String
  | grammar text => some text
  | _ => none

end Verdict

/-- The classes of a grammar are built under the name of its file, whatever their numbers are. -/
def Built (fs : Files) (home : String) (options : List (String × Value)) (grammar : String × String)
    (g : GrammarClasses) : Prop :=
  ∃ id, GrammarClasses.build id (Path.stem grammar.1) grammar.2 home options (shelf fs) = .ok g

/-- Whether the text of a grammar is refused, and how, does not depend on the numbers of the classes. -/
theorem build_of_language (fs : Files) (home : String) (options : List (String × Value)) (id : Nat)
    (name text : String) :
    match Grammar.Language.build (shelf fs) text (GrammarClasses.startsOf (Grammar.ruleNames text))
        options with
    | .ok _ => ∃ g, GrammarClasses.build id name text home options (shelf fs) = .ok g
    | .error f => GrammarClasses.build id name text home options (shelf fs) = .error f := by
  unfold GrammarClasses.build
  dsimp only
  cases Grammar.Language.build (shelf fs) text (GrammarClasses.startsOf (Grammar.ruleNames text))
      options with
  | error f => rfl
  | ok l =>
      obtain ⟨g, hg⟩ := GrammarClasses.exists_ofLanguage id name home (Grammar.ruleNames text) l.1
      refine ⟨{ g with log := l.2 ++ g.log }, ?_⟩
      show (GrammarClasses.ofLanguage id name home (Grammar.ruleNames text) l.1 >>= _) = _
      rw [hg]
      rfl

/-- What is found in some files, one after the other, by their verdicts alone. -/
structure Reads (fs : Files) (home : String) (options : List (String × Value)) (files : List String)
    (s s' : Sources) : Prop where
  diagnostics : s'.diagnostics = s.diagnostics ++ files.filterMap fun path =>
    (verdict fs options path).line?
  bodies : s'.bodies = s.bodies ++ files.filterMap fun path =>
    (verdict fs options path).body?.map (path, ·)
  classes : ∃ gs, s'.classes = s.classes ++ gs.flatMap (fun g => [g.lexer, g.parser]) ∧
    List.Forall₂ (Built fs home options)
      (files.filterMap fun path => (verdict fs options path).grammar?.map (path, ·)) gs

namespace Reads

variable {fs : Files} {home : String} {options : List (String × Value)}

theorem nil (s : Sources) : Reads fs home options [] s s :=
  ⟨by simp, by simp, [], by simp, .nil⟩

theorem append {files rest : List String} {s s' s'' : Sources} (h : Reads fs home options files s s')
    (h' : Reads fs home options rest s' s'') : Reads fs home options (files ++ rest) s s'' := by
  obtain ⟨gs, hgs, hbuilt⟩ := h.classes
  obtain ⟨gs', hgs', hbuilt'⟩ := h'.classes
  refine ⟨?_, ?_, gs ++ gs', ?_, ?_⟩
  · rw [h'.diagnostics, h.diagnostics, List.filterMap_append, List.append_assoc]
  · rw [h'.bodies, h.bodies, List.filterMap_append, List.append_assoc]
  · rw [hgs', hgs, List.flatMap_append, List.append_assoc]
  · rw [List.filterMap_append]
    exact List.rel_append hbuilt hbuilt'

theorem of_line {path line : String} (h : verdict fs options path = .defect line) (s : Sources) :
    Reads fs home options [path] s (s.blame line) :=
  ⟨by simp [h, Verdict.line?, Sources.blame], by simp [h, Verdict.body?, Sources.blame], [],
    by simp [Sources.blame], by simp [h, Verdict.grammar?]⟩

theorem of_body {path : String} {statements : List Statement}
    (h : verdict fs options path = .body statements) (s : Sources) :
    Reads fs home options [path] s { s with bodies := s.bodies ++ [(path, statements)] } :=
  ⟨by simp [h, Verdict.line?], by simp [h, Verdict.body?], [], by simp,
    by simp [h, Verdict.grammar?]⟩

theorem of_grammar {path text : String} (h : verdict fs options path = .grammar text)
    {g : GrammarClasses} (hg : Built fs home options (path, text) g) (s : Sources) :
    Reads fs home options [path] s { s with classes := s.classes ++ [g.lexer, g.parser] } :=
  ⟨by simp [h, Verdict.line?], by simp [h, Verdict.body?], [g], by simp,
    by simpa [h, Verdict.grammar?] using hg⟩

end Reads

theorem run_addBody (w : World) (home : String) (options : List (String × Value)) {path : String}
    (hpath : path.endsWith grammarSuffix = false) (s : Sources) :
    match (verdict w.files options path).failure? with
    | some f => w.run (addBody path s) = (.error f, w)
    | none => ∃ s', w.run (addBody path s) = (.ok s', w) ∧
        Reads w.files home options [path] s s' := by
  obtain ⟨v, hv⟩ : ∃ v, verdict w.files options path = v := ⟨_, rfl⟩
  have hcases := hv
  unfold verdict at hcases
  unfold addBody
  rw [run_bind_ok (run_get w), hv]
  cases hopened : w.files.opened path with
  | error e =>
      rw [hopened] at hcases
      cases e with
      | nullCharacter =>
          subst hcases
          rfl
      | fault f =>
          subst hcases
          exact ⟨_, rfl, Reads.of_line hv s⟩
  | ok c =>
      rw [hopened, hpath] at hcases
      dsimp only [Bool.false_eq_true, if_false] at hcases ⊢
      rw [run_bind, run_lift]
      cases hprogram : programIn c with
      | error f =>
          rw [hprogram] at hcases
          subst hcases
          rfl
      | ok p =>
          rw [hprogram] at hcases
          cases p with
          | body statements =>
              subst hcases
              exact ⟨_, rfl, Reads.of_body hv s⟩
          | defective d =>
              subst hcases
              exact ⟨_, rfl, Reads.of_line hv s⟩

theorem run_addGrammar (w : World) (home : String) (options : List (String × Value)) {path : String}
    (hpath : path.endsWith grammarSuffix = true) (s : Sources) :
    match (verdict w.files options path).failure? with
    | some f => w.run (addGrammar home options path s) = (.error f, w)
    | none => ∃ s' w', w.run (addGrammar home options path s) = (.ok s', w') ∧ Noted w w' ∧
        Reads w.files home options [path] s s' := by
  obtain ⟨v, hv⟩ : ∃ v, verdict w.files options path = v := ⟨_, rfl⟩
  have hcases := hv
  unfold verdict at hcases
  unfold addGrammar
  rw [run_bind_ok (run_get w), hv]
  cases hopened : w.files.opened path with
  | error e =>
      rw [hopened] at hcases
      cases e with
      | nullCharacter =>
          subst hcases
          rfl
      | fault f =>
          subst hcases
          exact ⟨_, w, rfl, Noted.refl w, Reads.of_line hv s⟩
  | ok c =>
      rw [hopened, hpath] at hcases
      dsimp only [if_true] at hcases ⊢
      rw [run_bind, run_lift]
      cases htext : Files.textOf c.data with
      | error f =>
          rw [htext] at hcases
          subst hcases
          rfl
      | ok text =>
          rw [htext] at hcases
          have hbuild := build_of_language w.files home options w.nextClass (Path.stem path)
            (String.ofList text)
          dsimp only [Except.mapError] at hcases ⊢
          unfold grammarVerdict at hcases
          cases hlanguage : Grammar.Language.build (shelf w.files) (String.ofList text)
              (GrammarClasses.startsOf (Grammar.ruleNames (String.ofList text))) options with
          | error f =>
              rw [hlanguage] at hcases hbuild
              dsimp only at hcases hbuild
              rw [hbuild]
              dsimp only
              cases hplace : f.grammarPlace? with
              | none =>
                  rw [hplace] at hcases
                  subst hcases
                  rfl
              | some place =>
                  rw [hplace] at hcases
                  subst hcases
                  exact ⟨_, w, rfl, Noted.refl w, Reads.of_line hv s⟩
          | ok l =>
              rw [hlanguage] at hcases hbuild
              obtain ⟨g, hg⟩ := hbuild
              subst hcases
              rw [hg]
              exact ⟨_, _, rfl, ⟨rfl, rfl, rfl, rfl, rfl⟩, Reads.of_grammar hv ⟨_, hg⟩ s⟩

/-- One file is read: a failure that is no diagnostic goes through, and all else adds to what is found. -/
theorem run_addFile (w : World) (home : String) (options : List (String × Value)) (s : Sources)
    (path : String) :
    match (verdict w.files options path).failure? with
    | some f => w.run (addFile home options s path) = (.error f, w)
    | none => ∃ s' w', w.run (addFile home options s path) = (.ok s', w') ∧ Noted w w' ∧
        Reads w.files home options [path] s s' := by
  unfold addFile
  cases hpath : path.endsWith grammarSuffix with
  | true => exact run_addGrammar w home options hpath s
  | false =>
      have hbody := run_addBody w home options hpath s
      cases hfailure : (verdict w.files options path).failure? with
      | some f =>
          rw [hfailure] at hbody
          exact hbody
      | none =>
          rw [hfailure] at hbody
          obtain ⟨s', hrun, hreads⟩ := hbody
          exact ⟨s', w, hrun, Noted.refl w, hreads⟩

/-- The failure of the first file that has one which is no diagnostic. -/
def fileFailure? (fs : Files) (options : List (String × Value)) (files : List String) : Option Failure :=
  files.findSome? fun path => (verdict fs options path).failure?

/-- The files are read one after the other, up to the first failure that is no diagnostic. -/
theorem run_addFiles (home : String) (options : List (String × Value)) (files : List String) (s : Sources)
    (w : World) :
    match fileFailure? w.files options files with
    | some f => ∃ w', w.run (files.foldlM (addFile home options) s) = (.error f, w') ∧ Noted w w'
    | none => ∃ s' w', w.run (files.foldlM (addFile home options) s) = (.ok s', w') ∧ Noted w w' ∧
        Reads w.files home options files s s' := by
  induction files generalizing s w with
  | nil => exact ⟨s, w, rfl, Noted.refl w, Reads.nil s⟩
  | cons path rest ih =>
      have hstep := run_addFile w home options s path
      unfold fileFailure? at ih ⊢
      rw [List.findSome?_cons, List.foldlM_cons]
      cases hfailure : (verdict w.files options path).failure? with
      | some f =>
          rw [hfailure] at hstep
          exact ⟨w, run_bind_error hstep _, Noted.refl w⟩
      | none =>
          rw [hfailure] at hstep
          obtain ⟨s', w', hrun, hnoted, hreads⟩ := hstep
          have hrest := ih s' w'
          rw [hnoted.files] at hrest
          rw [run_bind_ok hrun]
          cases hlater : rest.findSome? fun path => (verdict w.files options path).failure? with
          | some f =>
              rw [hlater] at hrest
              obtain ⟨w'', hrun', hnoted'⟩ := hrest
              exact ⟨w'', hrun', hnoted.trans hnoted'⟩
          | none =>
              rw [hlater] at hrest
              obtain ⟨s'', w'', hrun', hnoted', hreads'⟩ := hrest
              exact ⟨s'', w'', hrun', hnoted.trans hnoted', hreads.append hreads'⟩

/-! ## References -/

/-- What the look-up of a reference fails with, if it does, and the world behind it. A path needs no
look-up. -/
def lookUp (w : World) (reference : String) : Option Failure × World :=
  if w.files.exists? reference then (none, w)
  else
    match w.run (Import.module Loading.run reference) with
    | (.ok _, w') => (none, w')
    | (.error f, w') => (some f, w')

/-- The look-ups of some references, one after the other, and the world behind the last one. A failure that is
no diagnostic ends them. -/
def lookUps : World → List String → List (String × Option Failure) × World
  | w, [] => ([], w)
  | w, reference :: rest =>
    let (f, w') := lookUp w reference
    match f.filter fun f => !f.isImport with
    | some _ => ([(reference, f)], w')
    | none =>
      let (found, w'') := lookUps w' rest
      ((reference, f) :: found, w'')

theorem imported_lookUp (w : World) (reference : String) : Imported w (lookUp w reference).2 := by
  unfold lookUp
  split
  · exact Imported.refl w
  · have himported := Import.imported_module imported_run reference w
    split
    · rename_i hrun
      rw [hrun] at himported
      exact himported
    · rename_i hrun
      rw [hrun] at himported
      exact himported

theorem lookUps_cons (w : World) (reference : String) (rest : List String) :
    lookUps w (reference :: rest) =
      match (lookUp w reference).1.filter fun f => !f.isImport with
      | some _ => ([(reference, (lookUp w reference).1)], (lookUp w reference).2)
      | none => ((reference, (lookUp w reference).1) :: (lookUps (lookUp w reference).2 rest).1,
          (lookUps (lookUp w reference).2 rest).2) := rfl

theorem imported_lookUps (w : World) (references : List String) :
    Imported w (lookUps w references).2 := by
  induction references generalizing w with
  | nil => exact Imported.refl w
  | cons reference rest ih =>
      have himported := imported_lookUp w reference
      rw [lookUps_cons]
      cases (lookUp w reference).1.filter fun f => !f.isImport with
      | some f => exact himported
      | none => exact himported.trans (ih _)

/-- The failure of the first reference that has one which is no diagnostic. -/
def referenceFailure? (found : List (String × Option Failure)) : Option Failure :=
  found.findSome? fun r => r.2.filter fun f => !f.isImport

/-- The diagnostics about references that are neither a path nor a module. -/
def referenceLines (found : List (String × Option Failure)) : List String :=
  found.filterMap fun r => r.2.map (referenceLine r.1)

/-- The directories among some references, from the root on. -/
def pathsOf (fs : Files) (references : List String) : List String :=
  (references.filter fs.exists?).map fs.absolute

theorem pathsOf_cons (fs : Files) (reference : String) (rest : List String) :
    pathsOf fs (reference :: rest) = pathsOf fs [reference] ++ pathsOf fs rest := by
  unfold pathsOf
  rw [← List.map_append, ← List.filter_append, List.singleton_append]

theorem referenceLines_cons (r : String × Option Failure) (rest : List (String × Option Failure)) :
    referenceLines (r :: rest) = referenceLines [r] ++ referenceLines rest := by
  unfold referenceLines
  rw [← List.filterMap_append, List.singleton_append]

theorem run_addReference (w : World) (found : List String × List String) (reference : String) :
    match (lookUp w reference).1.filter fun f => !f.isImport with
    | some f => w.run (addReference found reference) = (.error f, (lookUp w reference).2)
    | none => w.run (addReference found reference) =
        (.ok (found.1 ++ pathsOf w.files [reference],
          found.2 ++ referenceLines [(reference, (lookUp w reference).1)]), (lookUp w reference).2) := by
  unfold addReference lookUp
  rw [run_bind_ok (run_get w)]
  dsimp only
  by_cases hexists : w.files.exists? reference = true
  · rw [if_pos hexists, if_pos hexists]
    simp [pathsOf, referenceLines, hexists]
  · rw [if_neg hexists, if_neg hexists, run_tryCatch, run_bind]
    rcases hrun : w.run (Import.module Loading.run reference) with ⟨f | id, w'⟩
    · cases himport : f.isImport with
      | true => simp [pathsOf, referenceLines, Option.filter, hexists, himport]
      | false => simp [Option.filter, himport]
    · simp [pathsOf, referenceLines, hexists]

/-- The references are looked up one after the other, up to the first failure that is no diagnostic. -/
theorem run_addReferences (references : List String) (found : List String × List String) (w : World) :
    w.run (references.foldlM addReference found) =
      match referenceFailure? (lookUps w references).1 with
      | some f => (.error f, (lookUps w references).2)
      | none => (.ok (found.1 ++ pathsOf w.files references,
          found.2 ++ referenceLines (lookUps w references).1), (lookUps w references).2) := by
  induction references generalizing found w with
  | nil => simp [referenceFailure?, lookUps, pathsOf, referenceLines]
  | cons reference rest ih =>
      have hstep := run_addReference w found reference
      have himported := imported_lookUp w reference
      unfold referenceFailure? at ih ⊢
      rw [List.foldlM_cons, lookUps_cons]
      cases hfailure : (lookUp w reference).1.filter fun f => !f.isImport with
      | some f =>
          rw [hfailure] at hstep
          rw [run_bind_error hstep]
          dsimp only
          rw [List.findSome?_cons, hfailure]
      | none =>
          rw [hfailure] at hstep
          rw [run_bind_ok hstep, ih]
          dsimp only
          rw [List.findSome?_cons, hfailure, himported.files]
          dsimp only
          rw [pathsOf_cons _ _ rest, referenceLines_cons _ (lookUps _ rest).1, List.append_assoc,
            List.append_assoc]

end GrammarBench.Loading.Compile
