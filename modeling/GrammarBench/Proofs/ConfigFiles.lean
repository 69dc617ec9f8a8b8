import GrammarBench.Proofs.LineEnds
import GrammarBench.Proofs.Loads
import GrammarBench.Proofs.Utf8Texts
import GrammarBench.Proofs.ValueReading

/-!
# Configuration files

What a configuration file has to hold, and what comes of loading whatever there is at a path.

* `Config.Describes`: the configurations that an object describes.
* `Config.ofValue_eq_ok`: a value gives the configuration that it describes, if it is an object that describes one.
* `Loading.ConfigFile.Configures`: the configuration that the file at a path writes.
* `Loading.ConfigFile.outcome_load`: what comes of loading a configuration file.
-/

namespace GrammarBench

namespace Value

theorem mapM_text?_eq_some {items : List Value} {texts : List String} :
    items.mapM text? = some texts ↔ items = texts.map text := by
  induction items generalizing texts with
  | nil =>
      rw [List.mapM_nil]
      constructor
      · intro h
        cases h
        rfl
      · intro h
        rw [List.map_eq_nil_iff.mp h.symm]
        rfl
  | cons v items ih =>
      rw [List.mapM_cons]
      constructor
      · intro h
        obtain ⟨s, hs, h⟩ := Option.bind_eq_some_iff.mp h
        obtain ⟨texts', htexts, h⟩ := Option.bind_eq_some_iff.mp h
        cases h
        cases v <;> cases hs
        rw [ih.mp htexts]
        rfl
      · intro h
        obtain ⟨s, texts', rfl, rfl, rfl⟩ := List.map_eq_cons_iff.mp h.symm
        rw [ih.mpr rfl]
        rfl

theorem texts?_eq_some {v : Value} {texts : List String} :
    v.texts? = some texts ↔ v = .list (texts.map text) := by
  cases v with
  | list items => exact mapM_text?_eq_some.trans ⟨congrArg list, fun h => list.inj h⟩
  | _ => exact ⟨fun h => (nomatch h), fun h => (nomatch h)⟩

end Value

namespace Config

/-! ## Fields -/

/-- A list of texts, with what counts where it is absent or null. -/
inductive TextsField (default : List String) : Option Value → List String → Prop
  | absent : TextsField default none default
  | null : TextsField default (some .null) default
  | texts (texts : List String) : TextsField default (some (.list (texts.map .text))) texts

/-- A list of patterns; a lone one stands for a list of one. -/
inductive PatternsField : Option Value → List String → Prop
  | lone (pattern : String) : PatternsField (some (.text pattern)) [pattern]
  | list {field : Option Value} {patterns : List String} :
      TextsField defaultPatterns field patterns → PatternsField field patterns

/-- Options for the grammars, none of them a reserved one. -/
inductive OptionsField : Option Value → List (String × Value) → Prop
  | absent : OptionsField none []
  | null : OptionsField (some .null) []
  | options {entries : List (String × Value)} :
      (∀ key ∈ reserved, key ∉ entries.map (·.1)) → OptionsField (some (.dict entries)) entries

/-- What an object says of a configuration, whatever else is in it. -/
structure Describes (entries : List (String × Value)) (c : Config) : Prop where
  patterns : PatternsField (Ordered.find? "include" entries) c.patterns
  references : TextsField [] (Ordered.find? "references" entries) c.references
  options : OptionsField (Ordered.find? "lark_options" entries) c.options

theorem textsField_iff (default : List String) {field : Option Value} (fault : String) {texts : List String} :
    TextsField default field texts ↔ ∃ given, textsField field fault = .ok given ∧ given.getD default = texts := by
  constructor
  · rintro (_ | _ | texts)
    · exact ⟨none, rfl, rfl⟩
    · exact ⟨none, rfl, rfl⟩
    · refine ⟨some texts, ?_, rfl⟩
      unfold textsField
      dsimp only
      rw [Value.texts?_eq_some.mpr rfl]
  · rintro ⟨given, h, rfl⟩
    unfold textsField at h
    split at h
    · cases h
      exact .absent
    · cases h
      exact .null
    · split at h
      · rename_i texts htexts
        cases h
        rw [Value.texts?_eq_some.mp htexts]
        exact .texts texts
      · cases h

/-- The patterns as a list, where a lone one is given. -/
def listed : Option Value → Option Value
  | some (.text s) => some (.list [.text s])
  | field => field

theorem patternsField_iff {field : Option Value} {patterns : List String} :
    PatternsField field patterns ↔ TextsField defaultPatterns (listed field) patterns := by
  constructor
  · rintro (s | h)
    · exact .texts [s]
    · cases h with
      | absent => exact .absent
      | null => exact .null
      | texts => exact .texts _
  · intro h
    unfold listed at h
    split at h
    · rename_i s
      generalize hfield : some (Value.list [.text s]) = field at h
      cases h with
      | absent => cases hfield
      | null => cases hfield
      | texts texts =>
          obtain ⟨s', rest, rfl, hs, hrest⟩ := List.map_eq_cons_iff.mp (Value.list.inj (Option.some.inj hfield)).symm
          cases hs
          rw [List.map_eq_nil_iff.mp hrest]
          exact .lone s
    · exact .list h

theorem optionsField_iff {field : Option Value} (shown : String) {options : List (String × Value)} :
    OptionsField field options ↔ optionsField field shown = .ok options := by
  have hreserved (entries : List (String × Value)) :
      (∀ key ∈ reserved, key ∉ entries.map (·.1)) ↔
        (reserved.filter fun key => entries.any (·.1 = key)) = [] := by
    rw [List.filter_eq_nil_iff]
    simp
  constructor
  · rintro (_ | _ | h)
    · rfl
    · rfl
    · unfold optionsField
      dsimp only
      rw [(hreserved options).mp h]
  · intro h
    unfold optionsField at h
    split at h
    · cases h
      exact .absent
    · cases h
      exact .null
    · split at h
      · rename_i hnone
        cases h
        exact .options ((hreserved options).mpr hnone)
      · cases h
    · cases h

/-! ## Objects -/

theorem ofValue_dict (path : Option String) (entries : List (String × Value)) :
    ofValue path (.dict entries) = do
      let patterns ← textsField (listed (Ordered.find? "include" entries))
        ("'include' in '" ++ shownPath path ++ "' must be a list of glob patterns")
      let references ← textsField (Ordered.find? "references" entries)
        ("'references' in '" ++ shownPath path ++ "' must be a list of strings")
      let options ← optionsField (Ordered.find? "lark_options" entries) (shownPath path)
      return ⟨patterns.getD defaultPatterns, references.getD [], options, path⟩ := rfl

/-- A value gives the configuration that it describes, if it is an object that describes one. -/
theorem ofValue_eq_ok {path : Option String} {v : Value} {c : Config} :
    ofValue path v = .ok c ↔ c.path = path ∧ ∃ entries, v = .dict entries ∧ Describes entries c := by
  constructor
  · intro h
    cases v with
    | dict entries =>
        rw [ofValue_dict] at h
        obtain ⟨patterns, hpatterns, h⟩ := Outcome.bind_ok h
        obtain ⟨references, hreferences, h⟩ := Outcome.bind_ok h
        obtain ⟨options, hoptions, h⟩ := Outcome.bind_ok h
        cases h
        refine ⟨rfl, entries, rfl, ?_, ?_, ?_⟩
        · exact patternsField_iff.mpr ((textsField_iff _ _).mpr ⟨patterns, hpatterns, rfl⟩)
        · exact (textsField_iff _ _).mpr ⟨references, hreferences, rfl⟩
        · exact (optionsField_iff _).mpr hoptions
    | _ => cases h
  · rintro ⟨rfl, entries, rfl, hpatterns, hreferences, hoptions⟩
    obtain ⟨patterns, hpatterns, hincluded⟩ := (textsField_iff _
      ("'include' in '" ++ shownPath c.path ++ "' must be a list of glob patterns")).mp
        (patternsField_iff.mp hpatterns)
    obtain ⟨references, hreferences, hreferred⟩ := (textsField_iff _
      ("'references' in '" ++ shownPath c.path ++ "' must be a list of strings")).mp hreferences
    rw [ofValue_dict, hpatterns, hreferences, (optionsField_iff (shownPath c.path)).mp hoptions]
    show Except.ok (Config.mk (patterns.getD defaultPatterns) (references.getD []) c.options c.path) = .ok c
    rw [hincluded, hreferred]

theorem refuse_kind {α : Type} {message : String} {r : Report} (h : refuse (α := α) message = .error r) :
    r.kind = .config := by
  cases h
  rfl

theorem textsField_error {field : Option Value} {fault : String} {r : Report}
    (h : textsField field fault = .error r) : r.kind = .config := by
  unfold textsField at h
  split at h
  · cases h
  · cases h
  · split at h
    · cases h
    · exact refuse_kind h

theorem optionsField_error {field : Option Value} {shown : String} {r : Report}
    (h : optionsField field shown = .error r) : r.kind = .config := by
  unfold optionsField at h
  split at h
  · cases h
  · cases h
  · split at h
    · cases h
    · exact refuse_kind h
  · exact refuse_kind h

/-- Whatever is wrong with a value is reported as what is wrong with a configuration. -/
theorem ofValue_error {path : Option String} {v : Value} {r : Report} (h : ofValue path v = .error r) :
    r.kind = .config := by
  cases v with
  | dict entries =>
      rw [ofValue_dict] at h
      rcases Outcome.bind_error h with h | ⟨_, -, h⟩
      · exact textsField_error h
      rcases Outcome.bind_error h with h | ⟨_, -, h⟩
      · exact textsField_error h
      rcases Outcome.bind_error h with h | ⟨_, -, h⟩
      · exact optionsField_error h
      · cases h
  | _ => exact refuse_kind h

end Config

/-! ## Files -/

theorem Value.read_of_ok {text : List Char} {v : Value} (h : Value.parse text = .ok v) (describe : String → Failure) :
    Value.read text describe = .ok v := by
  unfold Value.read
  rw [h]

theorem Value.read_of_error {text : List Char} {f : Value.Fault} (h : Value.parse text = .error f)
    (describe : String → Failure) :
    (∃ n, f.defect = .tooManyDigits n ∧ ∃ m, Value.read text describe = .error (.fault .value m)) ∨
      (∀ n, f.defect ≠ .tooManyDigits n) ∧ ∃ m, Value.read text describe = .error (describe m) := by
  unfold Value.read
  rw [h]
  dsimp only
  split
  · rename_i n hdefect
    exact Or.inl ⟨n, hdefect, _, rfl⟩
  · rename_i hother
    exact Or.inr ⟨hother, _, rfl⟩

namespace Loading.ConfigFile

/-- There is a file at a path, and its bytes are those of a text. -/
def Holds (fs : Files) (path : String) (text : List Char) : Prop :=
  ∃ content, fs.opened path = .ok content ∧ content.data = Text.Utf8.encode text

/-- There is a file at a path, but its bytes are those of no text. -/
def Garbled (fs : Files) (path : String) : Prop :=
  ∃ content, fs.opened path = .ok content ∧ ∀ text, content.data ≠ Text.Utf8.encode text

/-- The file at a path writes an object that describes the configuration. -/
def Configures (fs : Files) (path : String) (c : Config) : Prop :=
  c.path = some path ∧ ∃ text entries,
    Holds fs path text ∧ Value.Document text (.dict entries) ∧ Config.Describes entries c

/-- An outcome is the configuration that the file at a path writes, or a report on the configuration where it writes
none. -/
structure Settled (fs : Files) (path : String) (outcome : Except Failure Config) : Prop where
  total : (∃ c, outcome = .ok c) ∨ ∃ r, outcome = .error (.report r) ∧ r.kind = .config
  described : ∀ c, outcome = .ok c ↔ Configures fs path c

theorem Holds.unique {fs : Files} {path : String} {text text' : List Char} (h : Holds fs path text)
    (h' : Holds fs path text') : text = text' := by
  obtain ⟨content, hopened, hdata⟩ := h
  obtain ⟨content', hopened', hdata'⟩ := h'
  obtain rfl := Except.ok.inj (hopened.symm.trans hopened')
  exact Except.ok.inj ((Text.Utf8.decode_eq_ok.mpr hdata).symm.trans (Text.Utf8.decode_eq_ok.mpr hdata'))

/-- A refusal settles what comes of a file that writes no configuration. -/
theorem settled_refuse {fs : Files} {path : String} (message : String) (h : ∀ c, ¬ Configures fs path c) :
    Settled fs path (.error (refuse message)) where
  total := Or.inr ⟨_, rfl, rfl⟩
  described c := ⟨fun hok => (nomatch hok), fun hc => absurd hc (h c)⟩

theorem settled_of_unopened {fs : Files} {path : String} {f : PathFault} (h : fs.opened path = .error (.fault f)) :
    Settled fs path (configAt fs path) := by
  have hconfig : configAt fs path =
      .error (refuse ("Cannot read config file '" ++ path ++ "': " ++ f.reason)) := by
    unfold configAt valueIn
    rw [h]
    rfl
  rw [hconfig]
  refine settled_refuse _ ?_
  rintro c ⟨-, text, entries, ⟨content, hopened, -⟩, -⟩
  rw [h] at hopened
  cases hopened

theorem configAt_of_null {fs : Files} {path : String} (h : '\x00' ∈ path.toList) :
    configAt fs path = .error Failure.nullInPath := by
  unfold configAt valueIn
  rw [Files.opened_of_null h]
  rfl

theorem undecodable_of_garbled {fs : Files} {path : String} (h : Garbled fs path) :
    ∃ f, configAt fs path = .error (.undecodable f) := by
  obtain ⟨content, hopened, hdata⟩ := h
  unfold configAt valueIn Files.textOf
  rw [hopened]
  dsimp only
  cases hdecode : Text.Utf8.decode content.data with
  | ok text => exact absurd (Text.Utf8.decode_eq_ok.mp hdecode) (hdata text)
  | error f => exact ⟨f, rfl⟩

theorem configAt_of_holds {fs : Files} {path : String} {text : List Char} (h : Holds fs path text) :
    configAt fs path = (Value.read (Text.universal text) fun m =>
      refuse ("Malformed config file '" ++ path ++ "': " ++ m)) >>= fun v =>
        (Config.ofValue (some path) v).mapError .report := by
  obtain ⟨content, hopened, hdata⟩ := h
  unfold configAt valueIn Files.textOf
  rw [hopened]
  dsimp only
  rw [Text.Utf8.decode_eq_ok.mpr hdata]
  rfl

/-- What a text writes that is parsed when it is read. -/
theorem writes_iff {text : List Char} {v v' : Value} (h : Value.parse (Text.universal text) = .ok v) :
    Value.Document text v' ↔ v' = v :=
  Value.document_universal.symm.trans (Value.document_iff_of_parse h)

/-- What comes of a file that writes a value. -/
theorem settled_value {fs : Files} {path : String} {text : List Char} {v : Value} (h : Holds fs path text)
    (hparse : Value.parse (Text.universal text) = .ok v) :
    Settled fs path ((Config.ofValue (some path) v).mapError .report) where
  total := by
    cases hvalue : Config.ofValue (some path) v with
    | ok c => exact Or.inl ⟨c, rfl⟩
    | error r => exact Or.inr ⟨r, rfl, Config.ofValue_error hvalue⟩
  described c := by
    have hok : (Config.ofValue (some path) v).mapError Failure.report = .ok c ↔
        Config.ofValue (some path) v = .ok c := by
      cases Config.ofValue (some path) v with
      | ok c' =>
          exact ⟨fun h => congrArg Except.ok (Except.ok.inj h), fun h => congrArg Except.ok (Except.ok.inj h)⟩
      | error r => exact ⟨fun h => (nomatch h), fun h => (nomatch h)⟩
    rw [hok, Config.ofValue_eq_ok]
    refine and_congr_right fun _ => ⟨?_, ?_⟩
    · rintro ⟨entries, hv, hdescribes⟩
      exact ⟨text, entries, h, (writes_iff hparse).mpr hv.symm, hdescribes⟩
    · rintro ⟨text', entries, h', hdocument, hdescribes⟩
      obtain rfl := h.unique h'
      exact ⟨entries, ((writes_iff hparse).mp hdocument).symm, hdescribes⟩

/-- What comes of a file with a text in it. -/
theorem settled_of_holds {fs : Files} {path : String} {text : List Char} (h : Holds fs path text) :
    Settled fs path (configAt fs path) ∨
      Value.LongRun text ∧ ∃ m, configAt fs path = .error (.fault .value m) := by
  rw [configAt_of_holds h]
  cases hparse : Value.parse (Text.universal text) with
  | ok v =>
      rw [Value.read_of_ok hparse]
      exact Or.inl (settled_value h hparse)
  | error f =>
      rcases Value.read_of_error hparse fun m => refuse ("Malformed config file '" ++ path ++ "': " ++ m) with
        ⟨n, hdefect, m, hread⟩ | ⟨hother, m, hread⟩
      · obtain ⟨defect, o⟩ := f
        obtain rfl : defect = .tooManyDigits n := hdefect
        rw [hread]
        exact Or.inr ⟨(Value.longRun_of_parse hparse).of_universal, m, rfl⟩
      · rw [hread]
        refine Or.inl (settled_refuse _ ?_)
        rintro c ⟨-, text', entries, h', hdocument, -⟩
        obtain rfl := h.unique h'
        exact Value.not_document_of_parse hparse hother _ (Value.document_universal.mpr hdocument)

/-- **Configuration files.** Where there is no file, or one with a text in it that has no more digits in a row than an
integer may have, the outcome is the configuration that the file writes or a report on the configuration. Where the
bytes are those of no text, with an integer of more digits, and for a path with a null character in it, the failure is no
report. -/
theorem outcome_load (w : World) (path : String) :
    let outcome := (w.run (load path)).1
    ('\x00' ∉ path.toList → ¬ Garbled w.files path → (∀ text, Holds w.files path text → ¬ Value.LongRun text) →
      Settled w.files path outcome) ∧
    ('\x00' ∈ path.toList → outcome = .error Failure.nullInPath) ∧
    (Garbled w.files path → ∃ f, outcome = .error (.undecodable f)) ∧
    ∀ text, Holds w.files path text →
      Settled w.files path outcome ∨ Value.LongRun text ∧ ∃ m, outcome = .error (.fault .value m) := by
  obtain ⟨w', hrun, -⟩ := run_loadConfig w path
  rw [hrun]
  refine ⟨fun hpath hgarbled hshort => ?_, configAt_of_null, undecodable_of_garbled, fun text => settled_of_holds⟩
  cases hopened : w.files.opened path with
  | error e =>
      cases e with
      | nullCharacter => exact absurd hopened (Files.opened_ne_nullCharacter hpath)
      | fault f => exact settled_of_unopened hopened
  | ok content =>
      have hholds : ∃ text, content.data = Text.Utf8.encode text := by
        by_contra hnone
        exact hgarbled ⟨content, hopened, not_exists.mp hnone⟩
      obtain ⟨text, hdata⟩ := hholds
      have hholds : Holds w.files path text := ⟨content, hopened, hdata⟩
      exact (settled_of_holds hholds).resolve_right fun h => hshort text hholds h.1

/-- An object with its patterns given twice, and with what is no part of a configuration. -/
def repeatedText : List Char := "\x7b\"include\": [1], \"include\": \"*.py\", \"more\": 1\x7d".toList

def repeated : World := { files := (Files.empty ["w"]).put "c.json" (.bytes (Text.Utf8.encode repeatedText)) }

theorem outcome_load_repeated :
    (repeated.run (load "c.json")).1 = .ok ⟨["*.py"], [], [], some "c.json"⟩ := by
  have hdata : (repeated.files.opened "c.json").map Content.data = .ok (Text.Utf8.encode repeatedText) := by
    decide +kernel
  have hholds : Holds repeated.files "c.json" repeatedText := by
    cases hopened : repeated.files.opened "c.json" with
    | error f =>
        rw [hopened] at hdata
        cases hdata
    | ok content =>
        rw [hopened] at hdata
        exact ⟨content, hopened, Except.ok.inj hdata⟩
  have hgarbled : ¬ Garbled repeated.files "c.json" := by
    rintro ⟨content, hopened, hnone⟩
    rw [hopened] at hdata
    exact hnone repeatedText (Except.ok.inj hdata)
  have hshort (text : List Char) (htext : Holds repeated.files "c.json" text) : ¬ Value.LongRun text := by
    rintro ⟨digits, hinfix, -, hlong⟩
    rw [htext.unique hholds] at hinfix
    have hlength : repeatedText.length = 46 := rfl
    have := hinfix.length_le
    omega
  have hsettled := (outcome_load repeated "c.json").1 (by decide) hgarbled hshort
  have hparse : Value.parse repeatedText = .ok (.dict [("include", .text "*.py"), ("more", .int 1)]) := rfl
  exact (hsettled.described _).mpr
    ⟨rfl, repeatedText, _, hholds, Value.document_of_parse hparse, .lone "*.py", .absent, .absent⟩

/-- A file whose only byte is no text. -/
def garbled : World := { files := (Files.empty ["w"]).put "c.json" (.bytes [0xff]) }

theorem load_garbled_escapes :
    garbled.files.isFile "c.json" = true ∧
      ¬ ((∃ c, (garbled.run (load "c.json")).1 = .ok c) ∨
        ∃ r, (garbled.run (load "c.json")).1 = .error (.report r) ∧ r.kind = .config) := by
  have houtcome : (garbled.run (load "c.json")).1.map (fun _ => ()) =
      .error (.undecodable ⟨0, 0xff, 1, .startByte⟩) := by decide +kernel
  refine ⟨by decide +kernel, ?_⟩
  rintro (⟨c, hc⟩ | ⟨r, hr, -⟩)
  · rw [hc] at houtcome
    cases houtcome
  · rw [hr] at houtcome
    cases houtcome

end Loading.ConfigFile

end GrammarBench
