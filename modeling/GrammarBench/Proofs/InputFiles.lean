import GrammarBench.Proofs.CommandOutcome
import GrammarBench.Proofs.LineEnds
import GrammarBench.Proofs.NamedLoads
import GrammarBench.Proofs.Utf8Texts

/-!
# Input files

What comes of reading the input file of a run. The bytes of a text are read as that text with every line ended by a
newline; for other bytes the report tells how long the longest text is that they begin with. What is read is what a
run takes through its classes, so that no lexer ever meets a carriage return.

* `Run.inputText_eq_ok`, `Run.inputText_of_not_isText`: what bytes are read as.
* `Run.readInput_outcome`: what comes of reading an input file.
-/

namespace GrammarBench.Run

open World

/-! ## Bytes -/

theorem inputText_of_unopened {fs : Files} {path : String} {f : PathFault} (h : fs.opened path = .error (.fault f)) :
    inputText fs path = .error (refuseInput ("Cannot read test file '" ++ path ++ "': " ++ f.reason)) := by
  unfold inputText
  rw [h]

/-- No file has a path with a null character in it, and this is no report on the input file. -/
theorem inputText_of_null {fs : Files} {path : String} (h : '\x00' ∈ path.toList) :
    inputText fs path = .error Failure.nullInPath := by
  unfold inputText
  rw [Files.opened_of_null h]

theorem inputText_of_decode {fs : Files} {path : String} {content : Content} {decoded : List Char}
    (hopened : fs.opened path = .ok content) (hdecode : Text.Utf8.decode content.data = .ok decoded) :
    inputText fs path = .ok (String.ofList (Text.universal decoded)) := by
  unfold inputText Files.textOf
  rw [hopened]
  dsimp only
  rw [hdecode]
  rfl

theorem inputText_of_fault {fs : Files} {path : String} {content : Content} {f : Text.Utf8.Fault}
    (hopened : fs.opened path = .ok content) (hdecode : Text.Utf8.decode content.data = .error f) :
    inputText fs path =
      .error (refuseInput ("Test file '" ++ path ++ "' is not valid UTF-8: " ++ f.reason.message)
        ["byte offset " ++ toString f.offset]) := by
  unfold inputText Files.textOf
  rw [hopened]
  dsimp only
  rw [hdecode]
  rfl

/-- Nothing but a text or a report on the input file comes of reading. -/
theorem inputText_total (fs : Files) {path : String} (hpath : '\x00' ∉ path.toList) :
    (∃ text, inputText fs path = .ok text) ∨
      ∃ r, inputText fs path = .error (.report r) ∧ r.kind = .inputFile := by
  cases hopened : fs.opened path with
  | error e =>
      cases e with
      | nullCharacter => exact absurd hopened (Files.opened_ne_nullCharacter hpath)
      | fault f => exact Or.inr ⟨_, inputText_of_unopened hopened, rfl⟩
  | ok content =>
      cases hdecode : Text.Utf8.decode content.data with
      | error f => exact Or.inr ⟨_, inputText_of_fault hopened hdecode, rfl⟩
      | ok decoded => exact Or.inl ⟨_, inputText_of_decode hopened hdecode⟩

/-- The bytes of a text, and no others, are read as a text, each character by the one before it. -/
theorem inputText_eq_ok {fs : Files} {path : String} {content : Content} (hopened : fs.opened path = .ok content)
    {text : String} : inputText fs path = .ok text ↔
      ∃ decoded, content.data = Text.Utf8.encode decoded ∧ text.toList = Text.readFrom none decoded := by
  have hread (decoded : List Char) : Text.universal decoded = Text.readFrom none decoded :=
    Text.universal_eq_readFrom (Or.inl (by decide))
  constructor
  · intro h
    cases hdecode : Text.Utf8.decode content.data with
    | error f =>
        rw [inputText_of_fault hopened hdecode] at h
        cases h
    | ok decoded =>
        rw [inputText_of_decode hopened hdecode, hread] at h
        cases h
        exact ⟨decoded, Text.Utf8.decode_eq_ok.mp hdecode, String.toList_ofList⟩
  · rintro ⟨decoded, hdata, htext⟩
    rw [inputText_of_decode hopened (Text.Utf8.decode_eq_ok.mpr hdata), hread, ← htext, String.ofList_toList]

/-- Of other bytes the length of the longest text is told that they begin with. -/
theorem inputText_of_not_isText {fs : Files} {path : String} {content : Content}
    (hopened : fs.opened path = .ok content) (hdata : ¬ Text.Utf8.IsText content.data) :
    ∃ front reason, Text.Utf8.LongestText content.data front ∧
      inputText fs path = .error
        (refuseInput ("Test file '" ++ path ++ "' is not valid UTF-8: " ++ Text.Utf8.Reason.message reason)
          ["byte offset " ++ toString front.length]) := by
  cases hdecode : Text.Utf8.decode content.data with
  | ok decoded => exact absurd ⟨decoded, Text.Utf8.decode_eq_ok.mp hdecode⟩ hdata
  | error f =>
      obtain ⟨front, hfront, hoffset⟩ := Text.Utf8.exists_longestText hdecode
      refine ⟨front, f.reason, hfront, ?_⟩
      rw [inputText_of_fault hopened hdecode, hoffset]

theorem not_mem_inputText {fs : Files} {path text : String} (h : inputText fs path = .ok text) :
    '\r' ∉ text.toList := by
  cases hopened : fs.opened path with
  | error e =>
      unfold inputText at h
      rw [hopened] at h
      cases e <;> cases h
  | ok content =>
      obtain ⟨decoded, -, htext⟩ := (inputText_eq_ok hopened).mp h
      rw [htext]
      exact Text.not_mem_readFrom none decoded

/-! ## Runs -/

/-- **Input files.** Reading a file changes nothing, and a text or a report on the input file comes of it, unless its
path has a null character in it. A file that cannot be opened is reported. The bytes of a text, and no others, are read
as a text: each carriage return is read as a newline, and a newline behind one is not read again. For other bytes the
report tells, as its only detail, how long the longest text is that they begin with. No text that is read has a carriage
return in it, and it is what the run of the file takes through the classes of the module, once that has been loaded. -/
theorem readInput_outcome (w : World) (path : String) :
    let outcome := (w.run (readInput path)).1
    (w.run (readInput path)).2 = w ∧
    ('\x00' ∉ path.toList →
      (∃ text, outcome = .ok text) ∨ ∃ r, outcome = .error (.report r) ∧ r.kind = .inputFile) ∧
    ('\x00' ∈ path.toList → outcome = .error Failure.nullInPath) ∧
    (∀ f, w.files.opened path = .error (.fault f) →
      outcome = .error (refuseInput ("Cannot read test file '" ++ path ++ "': " ++ f.reason))) ∧
    (∀ data, w.files.opened path = .ok (.bytes data) →
      (∀ text, outcome = .ok text ↔
        ∃ decoded, data = Text.Utf8.encode decoded ∧ text.toList = Text.readFrom none decoded) ∧
      (¬ Text.Utf8.IsText data → ∃ front reason, Text.Utf8.LongestText data front ∧
        outcome = .error
          (refuseInput ("Test file '" ++ path ++ "' is not valid UTF-8: " ++ Text.Utf8.Reason.message reason)
            ["byte offset " ++ toString front.length]))) ∧
    (∀ text, outcome = .ok text → '\r' ∉ text.toList) ∧
    ∀ (before : World) (o : RunOptions) (source rule : String) (grammar : Option String) (s : Showing) (id : ModuleId),
      before.run (Loading.loadModule source o.config) = (.ok id, w) →
        before.run (process o source rule path grammar s) =
          match outcome with
          | .ok text => (announced w id).run (parse o (w.module id) text rule grammar s)
          | .error f => (.error f, announced w id) := by
  rw [run_readInput w path]
  refine ⟨rfl, inputText_total w.files, inputText_of_null, fun f => inputText_of_unopened, fun data hopened => ?_,
    fun text => not_mem_inputText, fun before o source rule grammar s id hload => ?_⟩
  · exact ⟨fun text => inputText_eq_ok hopened, inputText_of_not_isText hopened⟩
  · exact run_process_loaded hload rule path grammar s

/-- A world with one file and one module. -/
def inputWorld (data : List UInt8) : World where
  files := { working := [], entries := [([], .directory), (["a.txt"], .bytes data)] }
  modules := #[{ name := "m" }]
  registry := [("m", 0)]

theorem opened_inputWorld (data : List UInt8) : (inputWorld data).files.opened "a.txt" = .ok (.bytes data) := by
  have hparts : Path.parts "a.txt" = ["a.txt"] := by decide +kernel
  have habsolute : "a.txt".startsWith "/" = false := by decide +kernel
  refine Files.opened_of_find (by decide) rfl ?_ nofun
  unfold Files.find Files.place
  rw [if_neg (by decide), hparts, habsolute]
  rfl

/-- A module that is there is loaded by its name. -/
theorem run_loadModule_inputWorld (data : List UInt8) :
    (inputWorld data).run (Loading.loadModule "m" none) = (.ok 0, Loading.importing (inputWorld data) "m") := by
  have hfind : (inputWorld data).files.find "m" = .error .missing := by
    have hparts : Path.parts "m" = ["m"] := by decide +kernel
    have habsolute : "m".startsWith "/" = false := by decide +kernel
    unfold Files.find Files.place
    rw [if_neg (by decide), hparts, habsolute]
    rfl
  have hdirectory : (inputWorld data).files.isDirectory "m" = false := by
    unfold Files.isDirectory
    rw [hfind]
  have hfile : (inputWorld data).files.isFile "m" = false := by
    unfold Files.isFile
    rw [hfind]
  have hname : Loading.isModuleName "m" = true := by decide +kernel
  have hrelative : "m".startsWith "." = false := by decide +kernel
  have hknown : (Loading.importing (inputWorld data) "m").run (Loading.Import.known? "m") =
      (.ok (some 0), Loading.importing (inputWorld data) "m") := Loading.Import.run_known? _ "m"
  rw [Loading.run_loadModule_by_name none hdirectory hfile, if_pos hname]
  refine Loading.run_loadNamed_ok ?_
  unfold Loading.Import.module
  rw [if_neg (by rw [hrelative]; decide), if_neg (by decide)]
  exact run_bind_ok hknown _

/-- A text with all three line ends. -/
def mixedText : List Char := "é\r\nb\rc\n".toList

/-- The first line of a text, and the form of a surrogate behind it. -/
def surrogateBytes : List UInt8 := Text.Utf8.encode "é\r\n".toList ++ [0xED, 0xA0, 0x80]

theorem readInput_outcome_mixed :
    ((inputWorld (Text.Utf8.encode mixedText)).run (readInput "a.txt")).1 = .ok "é\nb\nc\n" ∧
    (∃ w, (inputWorld (Text.Utf8.encode mixedText)).run (Loading.loadModule "m" none) = (.ok 0, w) ∧
      (inputWorld (Text.Utf8.encode mixedText)).run (process {} "m" "start" "a.txt" none) =
        (announced w 0).run (parse {} (w.module 0) "é\nb\nc\n" "start" none)) ∧
    ¬ Text.Utf8.IsText surrogateBytes ∧
    ∃ reason, ((inputWorld surrogateBytes).run (readInput "a.txt")).1 =
      .error (refuseInput ("Test file 'a.txt' is not valid UTF-8: " ++ Text.Utf8.Reason.message reason)
        ["byte offset 4"]) := by
  have hdecode : Text.Utf8.decode surrogateBytes = .error ⟨4, 0xED, 1, .continuationByte⟩ := by decide +kernel
  have hdata : ¬ Text.Utf8.IsText surrogateBytes := by decide +kernel
  have hload := run_loadModule_inputWorld (Text.Utf8.encode mixedText)
  obtain ⟨-, -, -, -, hmixed, -⟩ := readInput_outcome (inputWorld (Text.Utf8.encode mixedText)) "a.txt"
  obtain ⟨-, -, -, -, hloaded, -, hprocess⟩ :=
    readInput_outcome (Loading.importing (inputWorld (Text.Utf8.encode mixedText)) "m") "a.txt"
  obtain ⟨-, -, -, -, hsurrogate, -⟩ := readInput_outcome (inputWorld surrogateBytes) "a.txt"
  refine ⟨((hmixed _ (opened_inputWorld _)).1 _).mpr ⟨mixedText, rfl, by decide⟩, ⟨_, hload, ?_⟩, hdata, ?_⟩
  · have htext := ((hloaded _ (opened_inputWorld _)).1 "é\nb\nc\n").mpr ⟨mixedText, rfl, by decide⟩
    have hrun := hprocess _ {} "m" "start" none {} 0 hload
    rw [htext] at hrun
    exact hrun
  · obtain ⟨front, reason, hfront, houtcome⟩ := (hsurrogate _ (opened_inputWorld _)).2 hdata
    obtain ⟨front', hfront', hlength⟩ := Text.Utf8.exists_longestText hdecode
    rw [hfront.length_eq hfront', ← hlength] at houtcome
    exact ⟨reason, houtcome⟩

end GrammarBench.Run
