import GrammarBench.Grammar.RuleNames
import GrammarBench.Proofs.ScanTokens
import GrammarBench.Proofs.SourceForms
import GrammarBench.Proofs.Takings

/-!
# The lexemes of a grammar text

What the terminals of grammar texts take: which of them may go over the end of a line, what a lexeme can
start with, and what stands behind the name of a rule. The machine of grammar texts is computed once, and
checked for all that is needed here.

* `Source.Usual`: what is known of the machine.
* `Source.Shape`: what is known of a lexeme and of the text behind it.
* `Source.Laid`: lexemes one behind the other, each on its lines.
* `Source.lexemes`, `Source.laid_of_parse`: the lexemes of a grammar text that can be read.
-/

namespace GrammarBench

/-- The line on which a lexeme starts, counted from zero. -/
def Lexeme.row (x : Lexeme) : Nat := (x.line.getD 1 - 1).toNat

/-- The line on which the text behind a lexeme starts, counted from zero. -/
def Lexeme.lastRow (x : Lexeme) : Nat := (x.endLine.getD 1 - 1).toNat

namespace Grammar

namespace Source

open Pattern Scanner

/-- The lexemes of a grammar text, ignored ones included. -/
def lexemes (text : String) : List Lexeme :=
  match machine with
  | .ok m => (m.scanner.scan (text ++ "\n")).filterMap Except.toOption
  | .error _ => []

/-- The characters of some lexemes. -/
def pieces (xs : List Lexeme) : List Char := xs.flatMap fun x => x.text.toList

/-! ## First characters -/

/-- The characters that the line of a rule may start with, and those that may stand behind its name. -/
def headChars : List Char := " \t?!:.abcdefghijklmnopqrstuvwxyz".toList

/-- The terminals that may start with such a character, or with an underscore. -/
def startersOf (c : Char) : List String :=
  if isGap c then ["WS", "COMMENT"]
  else if isSmall c then ["RULE"]
  else if c = '?' then ["OP", "RULE_MODIFIERS"]
  else if c = '!' then ["RULE_MODIFIERS"]
  else if c = ':' then ["_COLON"]
  else if c = '.' then ["_DOT", "_DOTDOT"]
  else ["RULE", "TERMINAL"]

theorem mem_headChars_of_small {c : Char} (h : isSmall c = true) : c ∈ headChars := by
  obtain ⟨hlow, hhigh⟩ := Bool.and_eq_true_iff.mp h
  have hlow : 97 ≤ c.toNat := of_decide_eq_true hlow
  have hhigh : c.toNat ≤ 122 := of_decide_eq_true hhigh
  have hall : (List.range' 97 26).all (fun n => headChars.contains (Char.ofNat n)) = true := by decide +kernel
  have hmem := List.all_eq_true.mp hall c.toNat (List.mem_range'_1.mpr ⟨hlow, by omega⟩)
  rwa [Char.ofNat_toNat, List.contains_iff_mem] at hmem

theorem mem_headChars_of_gap {c : Char} (h : isGap c = true) : c ∈ headChars := by
  rcases Bool.or_eq_true_iff.mp h with h | h <;> rw [of_decide_eq_true h] <;> decide +kernel

theorem gap_of_blank {c : Char} (h : Text.isBlank c = true) (hc : c ∈ headChars) : isGap c = true := by
  have hall : headChars.all (fun c => !Text.isBlank c || isGap c) = true := by decide +kernel
  simpa [h] using List.all_eq_true.mp hall c hc

/-! ## The machine -/

/-- The terminals that may go over the end of a line. -/
def lineEnders : List String := ["REGEXP", "COMMENT", "_NL_OR", "_NL", "BACKSLASH"]

/-- The set of one character. -/
def only (c : Char) : CharSet := { items := [.range c.toNat c.toNat] }

/-- The set of all white space. -/
def blanks : CharSet := { items := [.category .space false false] }

/-- The set of all characters but the newline. -/
def inLine : CharSet := { items := [.range 10 10], negated := true }

/-- The characters of a name. -/
def nameChars : CharSet := { items := [.range 95 95, .range 97 122, .range 48 57] }

/-- Ends of lines, at least one. -/
def lineEnds (index : Nat) : Expr :=
  .rep (.capture index (.seq (.span (only '\r') 0 (some 1) false) (.set (only '\n')))) 1 none false

/-- The expressions of the terminals that matter for the lines of a text. -/
def knownExprs : List (String × Expr) :=
  [("COMMENT", .capture 5 (.alt
      (.seq (.span blanks 0 none false) (.seq (.set (only '/')) (.seq (.set (only '/')) (.span inLine 0 none false))))
      (.seq (.span blanks 0 none false) (.seq (.set (only '#')) (.span inLine 0 none false))))),
   ("RULE", .capture 6 (.seq (.span (only '_') 0 (some 1) false)
      (.seq (.set { items := [.range 97 122] }) (.span nameChars 0 none false)))),
   ("_NL_OR", .capture 8 (.seq (lineEnds 9) (.seq (.span blanks 0 none false) (.set (only '|'))))),
   ("_NL", .capture 10 (.seq (lineEnds 11) (.span blanks 0 none false))),
   ("BACKSLASH", .capture 12 (.seq (.set (only '\\')) (.seq (.span (only ' ') 0 none false) (.set (only '\n'))))),
   ("WS", .capture 14 (.span { items := [.range 32 32, .range 9 9] } 1 none false)),
   ("RULE_MODIFIERS", .capture 20 (.seq
      (.capture 21 (.alt (.set (only '!')) (.alt (.seq (.set (only '!')) (.span (only '?') 0 (some 1) false))
        (.seq (.set (only '?')) (.span (only '!') 0 (some 1) false)))))
      (.ahead true (.set { items := [.range 95 95, .range 97 122] }))))]

/-- What is needed of the machine of grammar texts. -/
structure Usual (m : Machine) : Prop where
  sound : m.automaton.Sound 0 1 "start"
  productions : m.automaton.productions.toList = allProductions
  begin : m.automaton.starts.lookup "start" = some 0
  goal : m.automaton.ends.lookup "start" = some 1
  closing : m.automaton.isRule Automaton.endName = false
  keywords : m.scanner.keywords = []
  counted : ∀ name ∈ lineEnders, m.scanner.multiline.contains name = true
  terminal : ∀ b ∈ m.scanner.branches, m.automaton.isRule b.1 = false
  newline : ∀ b ∈ m.scanner.branches, ∀ cs ∈ b.2.sets, cs.has '\n' = true → b.1 ∈ lineEnders
  first : ∀ b ∈ m.scanner.branches, ∀ c ∈ '_' :: headChars, ∀ cs ∈ b.2.firstSets, cs.has c = true →
    b.1 ∈ startersOf c
  known : ∀ b ∈ m.scanner.branches, ∀ e, knownExprs.lookup b.1 = some e → b.2 = e

/-- The same, computed. -/
def isUsual (m : Machine) : Bool :=
  m.automaton.isSound 0 1 "start" && m.automaton.productions.toList = allProductions &&
  m.automaton.starts.lookup "start" = some 0 && m.automaton.ends.lookup "start" = some 1 &&
  !m.automaton.isRule Automaton.endName && m.scanner.keywords.isEmpty &&
  lineEnders.all (m.scanner.multiline.contains ·) &&
  m.scanner.branches.all fun b =>
    !m.automaton.isRule b.1 && b.2.sets.all (fun cs => !cs.has '\n' || lineEnders.contains b.1) &&
    ('_' :: headChars).all (fun c => b.2.firstSets.all fun cs => !cs.has c || (startersOf c).contains b.1) &&
    (knownExprs.lookup b.1).all (b.2 = ·)

theorem usual_of_isUsual {m : Machine} (h : isUsual m = true) : Usual m := by
  unfold isUsual at h
  simp only [Bool.and_eq_true, decide_eq_true_eq, Bool.not_eq_true', List.isEmpty_iff, List.all_eq_true,
    List.contains_iff_mem, Option.all_eq_true, Bool.or_eq_true] at h
  obtain ⟨⟨⟨⟨⟨⟨⟨hsound, hproductions⟩, hbegin⟩, hgoal⟩, hclosing⟩, hkeywords⟩, hcounted⟩, hbranches⟩ := h
  refine ⟨Automaton.sound_of_isSound hsound, hproductions, hbegin, hgoal, hclosing, hkeywords,
    fun name hname => List.contains_iff_mem.mpr (hcounted name hname), fun b hb => ?_, fun b hb cs hcs hhas => ?_,
    fun b hb c hc cs hcs hhas => ?_, fun b hb e he => ?_⟩
  · exact (hbranches b hb).1.1.1
  · exact ((hbranches b hb).1.1.2 cs hcs).resolve_left (by rw [hhas]; simp)
  · exact ((hbranches b hb).1.2 c hc cs hcs).resolve_left (by rw [hhas]; simp)
  · exact (hbranches b hb).2 e he

theorem isUsual_machine : machine.toOption.all isUsual = true := by decide +kernel

theorem usual_of_machine {m : Machine} (h : machine = .ok m) : Usual m := by
  have hall := isUsual_machine
  rw [h] at hall
  exact usual_of_isUsual hall

/-! ## The shapes of lexemes -/

theorem eq_of_has_only {c d : Char} (h : (only c).has d = true) : d = c := by
  have hrange : c.toNat ≤ d.toNat ∧ d.toNat ≤ c.toNat := by
    simpa [only, CharSet.has, SetItem.has] using h
  exact Char.toNat_inj.mp (by omega)

theorem has_blanks (c : Char) : blanks.has c = Text.isBlank c := by
  simp [blanks, CharSet.has, SetItem.has, Category.has]

theorem ne_newline_of_has_inLine {c : Char} (h : inLine.has c = true) : c ≠ '\n' := by
  rintro rfl
  revert h
  decide

theorem small_of_has {c : Char} (h : CharSet.has { items := [.range 97 122] } c = true) : isSmall c = true := by
  have hrange : 97 ≤ c.toNat ∧ c.toNat ≤ 122 := by simpa [CharSet.has, SetItem.has] using h
  exact Bool.and_eq_true_iff.mpr ⟨decide_eq_true hrange.1, decide_eq_true hrange.2⟩

theorem has_nameChars (c : Char) : nameChars.has c = isNameChar c := by
  have hle (a : Char) : (a ≤ c ↔ a.toNat ≤ c.toNat) ∧ (c ≤ a ↔ c.toNat ≤ a.toNat) := ⟨Iff.rfl, Iff.rfl⟩
  have hunderscore : c = '_' ↔ c.toNat = 95 := Char.toNat_inj.symm
  rw [Bool.eq_iff_iff]
  simp only [nameChars, CharSet.has, SetItem.has, isNameChar, isSmall, Bool.false_eq_true, if_false,
    List.any_cons, List.any_nil, Bool.or_false, Bool.bne_false, Bool.or_eq_true, Bool.and_eq_true,
    decide_eq_true_eq, (hle _).1, (hle _).2, hunderscore, Char.reduceToNat]
  omega

/-- What is known of a lexeme and of the text behind it. -/
structure Shape (x : Lexeme) (rest : List Char) : Prop where
  ne : x.text.toList ≠ []
  newline : '\n' ∈ x.text.toList → x.terminal ∈ lineEnders
  first : ∀ c ∈ x.text.toList.head?, c ∈ '_' :: headChars → x.terminal ∈ startersOf c
  blank : x.terminal = "WS" → ∀ c ∈ x.text.toList, isGap c = true
  lineEnd : x.terminal = "_NL" → '\n' ∈ x.text.toList ∧ ∀ c ∈ x.text.toList, Text.isBlank c = true
  guarded : x.terminal = "COMMENT" ∨ x.terminal = "_NL_OR" → ∃ w c q, x.text.toList = w ++ c :: q ∧
    (∀ d ∈ w, Text.isBlank d = true) ∧ c ∈ ['/', '#', '|'] ∧ '\n' ∉ q
  continued : x.terminal = "BACKSLASH" → ∃ w, x.text.toList = w ++ ['\n']
  name : x.terminal = "RULE" →
    (∀ c ∈ x.text.toList, isNameChar c = true) ∧ ∀ c ∈ rest.head?, isNameChar c = false
  modifiers : x.terminal = "RULE_MODIFIERS" →
    x.text.toList ∈ [['!'], ['!', '?'], ['?'], ['?', '!']] ∧ ∃ c ∈ rest.head?, c = '_' ∨ isSmall c = true

theorem takes_only {c : Char} {p r : List Char} (h : (Expr.set (only c)).Takes p r) : p = [c] := by
  obtain ⟨d, rfl, hd⟩ := h
  rw [eq_of_has_only hd]

/-- At most one character. -/
theorem takes_optional {c : Char} {p r : List Char} {lazy : Bool}
    (h : (Expr.span (only c) 0 (some 1) lazy).Takes p r) : p = [] ∨ p = [c] := by
  obtain ⟨hall, -, hmost⟩ := h
  cases p with
  | nil => exact Or.inl rfl
  | cons d p =>
      have hle := hmost 1 rfl
      obtain rfl : p = [] := List.eq_nil_of_length_eq_zero (by simpa using hle)
      rw [eq_of_has_only (hall d List.mem_cons_self)]
      exact Or.inr rfl

theorem takes_blanks {p r : List Char} {least : Nat} {most : Option Nat} {lazy : Bool}
    (h : (Expr.span blanks least most lazy).Takes p r) : ∀ c ∈ p, Text.isBlank c = true :=
  fun c hc => has_blanks c ▸ h.1 c hc

theorem takes_inLine {p r : List Char} {least : Nat} {most : Option Nat} {lazy : Bool}
    (h : (Expr.span inLine least most lazy).Takes p r) : '\n' ∉ p :=
  fun hmem => ne_newline_of_has_inLine (h.1 _ hmem) rfl

/-- Ends of lines are white space with a newline in it. -/
theorem takes_lineEnds {i : Nat} {p r : List Char} (h : (lineEnds i).Takes p r) :
    '\n' ∈ p ∧ ∀ c ∈ p, Text.isBlank c = true := by
  constructor
  · obtain ⟨n, hn, hrepeats⟩ := h
    cases hrepeats with
    | zero => exact absurd hn (by decide)
    | succ hone _ =>
        obtain ⟨q, q', rfl, -, hnewline⟩ := hone
        rw [takes_only hnewline]
        simp
  · intro c hc
    obtain ⟨cs, hcs, hhas⟩ := h.among c hc
    rcases List.mem_pair.mp hcs with rfl | rfl <;> rw [eq_of_has_only hhas] <;> decide +kernel

section Known

variable {e : Expr} {p r : List Char}

theorem takes_space (he : knownExprs.lookup "WS" = some e) (h : e.Takes p r) : ∀ c ∈ p, isGap c = true := by
  obtain rfl := Option.some.inj he
  intro c hc
  have hhas := h.1 c hc
  have hcodes : c.toNat = 32 ∨ c.toNat = 9 := by
    simp only [CharSet.has, SetItem.has, Bool.false_eq_true, if_false, List.any_cons, List.any_nil,
      Bool.or_false, Bool.bne_false, Bool.or_eq_true, Bool.and_eq_true, decide_eq_true_eq] at hhas
    omega
  rcases hcodes with h | h
  · rw [show c = ' ' from Char.toNat_inj.mp h]
    rfl
  · rw [show c = '\t' from Char.toNat_inj.mp h]
    rfl

theorem takes_lineEnd (he : knownExprs.lookup "_NL" = some e) (h : e.Takes p r) :
    '\n' ∈ p ∧ ∀ c ∈ p, Text.isBlank c = true := by
  obtain rfl := Option.some.inj he
  obtain ⟨q, q', rfl, hends, hspace⟩ := h
  obtain ⟨hnewline, hblank⟩ := takes_lineEnds hends
  refine ⟨List.mem_append_left _ hnewline, fun c hc => ?_⟩
  rcases List.mem_append.mp hc with hc | hc
  · exact hblank c hc
  · exact takes_blanks hspace c hc

/-- White space, then a mark that no line of a rule starts with. -/
theorem takes_comment (he : knownExprs.lookup "COMMENT" = some e) (h : e.Takes p r) :
    ∃ w c q, p = w ++ c :: q ∧ (∀ d ∈ w, Text.isBlank d = true) ∧ c ∈ ['/', '#', '|'] ∧ '\n' ∉ q := by
  obtain rfl := Option.some.inj he
  rcases h with ⟨w, _, htext, hw, _, _, rfl, hslash, _, q, rfl, hslash', hq⟩ | ⟨w, _, htext, hw, _, q, rfl, hsharp, hq⟩
  · rw [takes_only hslash, takes_only hslash'] at htext
    refine ⟨w, '/', '/' :: q, htext, takes_blanks hw, by simp, ?_⟩
    rw [List.mem_cons, not_or]
    exact ⟨by decide, takes_inLine hq⟩
  · rw [takes_only hsharp] at htext
    exact ⟨w, '#', q, htext, takes_blanks hw, by simp, takes_inLine hq⟩

theorem takes_barLine (he : knownExprs.lookup "_NL_OR" = some e) (h : e.Takes p r) :
    ∃ w c q, p = w ++ c :: q ∧ (∀ d ∈ w, Text.isBlank d = true) ∧ c ∈ ['/', '#', '|'] ∧ '\n' ∉ q := by
  obtain rfl := Option.some.inj he
  obtain ⟨q, _, htext, hends, w, _, rfl, hw, hbar⟩ := h
  rw [takes_only hbar, ← List.append_assoc] at htext
  refine ⟨q ++ w, '|', [], htext, fun c hc => ?_, by simp, by simp⟩
  rcases List.mem_append.mp hc with hc | hc
  · exact (takes_lineEnds hends).2 c hc
  · exact takes_blanks hw c hc

theorem takes_backslash (he : knownExprs.lookup "BACKSLASH" = some e) (h : e.Takes p r) :
    ∃ w, p = w ++ ['\n'] := by
  obtain rfl := Option.some.inj he
  obtain ⟨q, _, htext, -, w, _, rfl, -, hnewline⟩ := h
  rw [takes_only hnewline, ← List.append_assoc] at htext
  exact ⟨q ++ w, htext⟩

/-- A name ends only where none of its characters follows. -/
theorem takes_name (he : knownExprs.lookup "RULE" = some e) (h : e.Takes p r) (hends : e.Ends r) :
    (∀ c ∈ p, isNameChar c = true) ∧ ∀ c ∈ r.head?, isNameChar c = false := by
  obtain rfl := Option.some.inj he
  obtain ⟨q, _, rfl, hunderscore, q', q'', rfl, ⟨c, rfl, hsmall⟩, hspan⟩ := h
  refine ⟨fun d hd => ?_, fun d hd => has_nameChars d ▸ hends d hd⟩
  rcases List.mem_append.mp hd with hd | hd
  · rw [eq_of_has_only (hunderscore.1 d hd)]
    rfl
  · rcases List.mem_append.mp hd with hd | hd
    · rw [List.mem_singleton.mp hd]
      exact Bool.or_eq_true_iff.mpr (Or.inl (Bool.or_eq_true_iff.mpr (Or.inl (small_of_has hsmall))))
    · exact has_nameChars d ▸ hspan.1 d hd

theorem takes_modifiers (he : knownExprs.lookup "RULE_MODIFIERS" = some e) (h : e.Takes p r) :
    p ∈ [['!'], ['!', '?'], ['?'], ['?', '!']] ∧ ∃ c ∈ r.head?, c = '_' ∨ isSmall c = true := by
  obtain rfl := Option.some.inj he
  obtain ⟨q, _, htext, hmarks, rfl, _, r', rfl, c, rfl, hc⟩ := h
  rw [List.append_nil] at htext
  refine ⟨?_, c, rfl, ?_⟩
  · rw [htext]
    rcases hmarks with hbang | ⟨_, _, rfl, hbang, hmark⟩ | ⟨_, _, rfl, hmark, hbang⟩
    · rw [takes_only hbang]
      simp
    · rw [takes_only hbang]
      rcases takes_optional hmark with rfl | rfl <;> simp
    · rw [takes_only hmark]
      rcases takes_optional hbang with rfl | rfl <;> simp
  · simp only [CharSet.has, SetItem.has, Bool.false_eq_true, if_false, List.any_cons, List.any_nil,
      Bool.or_false, Bool.bne_false, Bool.or_eq_true, Bool.and_eq_true, decide_eq_true_eq] at hc
    rcases hc with hc | hc
    · exact Or.inl (Char.toNat_inj.mp (show c.toNat = '_'.toNat by
        rw [show '_'.toNat = 95 from rfl]
        omega))
    · exact Or.inr (Bool.and_eq_true_iff.mpr ⟨decide_eq_true hc.1, decide_eq_true hc.2⟩)

end Known

/-- What a text is made of that the expression of a terminal takes. -/
theorem shape_of_takes {m : Machine} (hm : Usual m) {x : Lexeme} {e : Expr} {r : List Char}
    (hb : (x.terminal, e) ∈ m.scanner.branches) (hne : x.text.toList ≠ []) (htakes : e.Takes x.text.toList r)
    (hends : e.Ends r) : Shape x r := by
  have hknown {n : String} {e' : Expr} (hn : x.terminal = n) (h : knownExprs.lookup n = some e') :
      knownExprs.lookup n = some e := by
    have heq : e = e' := hm.known _ hb e' (by rwa [hn])
    rwa [heq]
  refine
    { ne := hne
      newline := fun hmem => ?_
      first := fun c hc hhead => ?_
      blank := fun hn => takes_space (hknown hn rfl) htakes
      lineEnd := fun hn => takes_lineEnd (hknown hn rfl) htakes
      guarded := fun hn => hn.elim (fun hn => takes_comment (hknown hn rfl) htakes)
        fun hn => takes_barLine (hknown hn rfl) htakes
      continued := fun hn => takes_backslash (hknown hn rfl) htakes
      name := fun hn => takes_name (hknown hn rfl) htakes hends
      modifiers := fun hn => takes_modifiers (hknown hn rfl) htakes }
  · obtain ⟨cs, hcs, hhas⟩ := htakes.among _ hmem
    exact hm.newline _ hb cs hcs hhas
  · obtain ⟨cs, hcs, hhas⟩ := htakes.first c hc
    exact hm.first _ hb c hhead cs hcs hhas

/-! ## Lexemes one behind the other -/

/-- Lexemes behind a text, each of its shape and on its lines. -/
inductive Laid : List Char → List Lexeme → Prop
  | nil (before : List Char) : Laid before []
  | cons {before : List Char} {x : Lexeme} {xs : List Lexeme} : Shape x (pieces xs) →
      x.row = Text.newlines before → x.lastRow = Text.newlines (before ++ x.text.toList) →
      Laid (before ++ x.text.toList) xs → Laid before (x :: xs)

theorem Laid.drop {before : List Char} {xs ys : List Lexeme} (h : Laid before (xs ++ ys)) :
    Laid (before ++ pieces xs) ys := by
  induction xs generalizing before with
  | nil => rwa [show pieces [] = [] from rfl, List.append_nil]
  | cons x xs ih =>
      cases h with
      | cons _ _ _ hrest =>
          rw [show pieces (x :: xs) = x.text.toList ++ pieces xs from List.flatMap_cons, ← List.append_assoc]
          exact ih hrest

variable {m : Machine}

theorem terminal_of_found (hm : Usual m) {p q : Position} {f : Finding} (h : m.scanner.Found p f q) :
    f.lexeme.terminal = f.finder := by
  rw [congrArg Lexeme.terminal h.lexeme]
  unfold Scanner.renamed
  rw [hm.keywords]
  rfl

theorem shape_of_found (hm : Usual m) {p q : Position} {f : Finding} (h : m.scanner.Found p f q)
    (hne : f.lexeme.text ≠ "") : Shape f.lexeme q.cursor.after := by
  obtain ⟨e, hb, s, hmatch, hafter⟩ := h.finder
  obtain ⟨p', htext, htakes⟩ := Expr.matchAt_takes hmatch
  have hends := Expr.matchAt_ends hmatch
  rw [hafter] at htext htakes hends
  obtain rfl : f.lexeme.text.toList = p' := List.append_cancel_right (h.after.symm.trans htext)
  refine shape_of_takes hm (by rw [terminal_of_found hm h]; exact hb) (fun hnil => hne ?_) htakes hends
  exact String.toList_inj.mp hnil

theorem pieces_of_scans {p r : Position} {fs : List Finding} (h : m.scanner.Scans p fs r) :
    p.cursor.after = pieces (fs.map (·.lexeme)) := by
  rw [h.after_eq.2, pieces, List.flatMap_map]

theorem laid_of_scans (hm : Usual m) {p r : Position} {fs : List Finding} (h : m.scanner.Scans p fs r)
    (hp : p.Placed) : Laid p.cursor.before.reverse (fs.map (·.lexeme)) := by
  induction h with
  | done _ => exact .nil _
  | @found p q r f fs hfound hne hrest ih =>
      have hshape := shape_of_found hm hfound hne
      have hq : q.Placed := hfound.placed (fun hmem => by
        rw [← terminal_of_found hm hfound]
        exact hm.counted _ (hshape.newline hmem)) hp
      have hbefore : q.cursor.before.reverse = p.cursor.before.reverse ++ f.lexeme.text.toList := by
        rw [hfound.before, List.reverse_append, List.reverse_reverse]
      rw [pieces_of_scans hrest] at hshape
      refine .cons hshape ?_ ?_ (hbefore ▸ ih hq)
      · have hline : f.lexeme.line = some (p.line : Int) := congrArg Lexeme.line hfound.lexeme
        unfold Lexeme.row
        rw [hline, hp.line, Option.getD_some]
        omega
      · have hline : f.lexeme.endLine = some (q.line : Int) := congrArg Lexeme.endLine hfound.lexeme
        unfold Lexeme.lastRow
        rw [hline, hq.line, Option.getD_some, hbefore]
        dsimp only
        omega

/-! ## Texts that can be read -/

/-- Whether a lexeme is left out when a grammar text is read. -/
def isIgnored (x : Lexeme) : Bool := ignored.contains x.terminal

/-- A text that can be read is read by the machine. -/
theorem read_of_parse {text name : String} {t : Tree} (h : parse text name = .ok t) :
    ∃ m, machine = .ok m ∧ read m (text ++ "\n") = .ok t := by
  -- opened by name: a unification that opens `parse` works the machine out
  unfold parse at h
  obtain ⟨m, hmachine, h⟩ := Outcome.bind_ok h
  refine ⟨m, hmachine, ?_⟩
  split at h
  · rename_i hread
    cases h
    exact hread
  · cases h

theorem lexemes_of_machine {m : Machine} (h : machine = .ok m) (text : String) :
    lexemes text = (m.scanner.scan (text ++ "\n")).filterMap Except.toOption := by
  -- opened as a function: behind its argument the machine would be worked out
  generalize hlexemes : lexemes = f
  delta lexemes at hlexemes
  rw [h] at hlexemes
  rw [← hlexemes]

/-- A reading that comes to its end reads lexemes only. -/
theorem ok_of_run {a : Automaton} {t : Tree} {last : Option Lexeme} {s : Stack} {ls : List (Except Failure Lexeme)}
    (h : run a last s ls = .ok t) : ∃ xs : List Lexeme, ls = xs.map .ok := by
  induction ls generalizing last s with
  | nil => exact ⟨[], rfl⟩
  | cons l ls ih =>
      cases l with
      | error f => cases f <;> cases h
      | ok x =>
          unfold run at h
          split at h
          · obtain ⟨xs, rfl⟩ := ih h
            exact ⟨x :: xs, rfl⟩
          · split at h
            · obtain ⟨xs, rfl⟩ := ih h
              exact ⟨x :: xs, rfl⟩
            · cases h
            · cases h

/-- The tree of lexemes is made of those that are not ignored. -/
theorem makes_of_run (hm : Usual m) {t : Tree} {last : Option Lexeme} {s : Stack} {read xs : List Lexeme}
    (hnames : ∀ x ∈ xs, m.automaton.isRule x.terminal = false) (hs : s.Reads m.automaton 0 read)
    (h : run m.automaton last s (xs.map .ok) = .ok t) :
    Makes allProductions [.rule "start"] (read ++ xs.filter fun x => !isIgnored x) [t] := by
  induction xs generalizing last s read with
  | nil =>
      have hclosing : m.automaton.isRule (endAfter last).terminal = false := by
        cases last <;> exact hm.closing
      unfold run Stack.feedFor at h
      rw [List.map_nil, hm.goal] at h
      dsimp only at h
      split at h
      · rename_i t' hfed
        cases h
        rw [List.filter_nil, List.append_nil, ← hm.productions]
        exact (hs.feed hm.sound hclosing _).2 _ hfed
      · cases h
      · cases h
  | cons x xs ih =>
      obtain ⟨hname, hrest⟩ := List.forall_mem_cons.mp hnames
      unfold run Stack.feedFor at h
      rw [List.map_cons, hm.goal] at h
      dsimp only at h
      split at h
      · rename_i hignored
        rw [List.filter_cons_of_neg (by simpa [isIgnored] using hignored)]
        exact ih hrest hs h
      · rename_i hkept
        rw [List.filter_cons_of_pos (by simpa [isIgnored] using hkept)]
        split at h
        · rename_i s' hfed
          have hmakes := ih hrest ((hs.feed hm.sound hname _).1 _ hfed) h
          rwa [List.append_assoc] at hmakes
        · cases h
        · cases h

/-- A scan of lexemes only has findings only. -/
theorem findings_of_scan {sc : Scanner} {text : String} {xs : List Lexeme} (h : sc.scan text = xs.map .ok) :
    ∃ fs : List Finding, sc.findings text = fs.map .ok ∧ xs = fs.map (·.lexeme) := by
  unfold scan at h
  generalize sc.findings text = found at h
  induction found generalizing xs with
  | nil => exact ⟨[], rfl, List.map_eq_nil_iff.mp h.symm⟩
  | cons f found ih =>
      rw [List.map_cons] at h
      obtain ⟨x, xs, rfl, hx, hrest⟩ := List.map_eq_cons_iff.mp h.symm
      obtain ⟨fs, rfl, rfl⟩ := ih hrest.symm
      cases f with
      | error e => cases hx
      | ok f =>
          cases hx
          exact ⟨f :: fs, rfl, rfl⟩

/-- The lexemes of a grammar text that can be read: they are the text with a newline added, and the items of
the text are made of those that are not ignored. -/
theorem laid_of_parse {text name : String} {t : Tree} (h : parse text name = .ok t) :
    pieces (lexemes text) = text.toList ++ ['\n'] ∧ Laid [] (lexemes text) ∧
      ∃ segments, Items ((lexemes text).filter fun x => !isIgnored x) segments ∧
        openNames t = segments.filterMap (·.2) := by
  obtain ⟨m, hmachine, hread⟩ := read_of_parse h
  have hm := usual_of_machine hmachine
  unfold read Automaton.begin? at hread
  rw [hm.begin] at hread
  have hrun : run m.automaton none ⟨[0], []⟩ (m.scanner.scan (text ++ "\n")) = .ok t := hread
  obtain ⟨xs, hscan⟩ := ok_of_run hrun
  obtain ⟨fs, hfindings, rfl⟩ := findings_of_scan hscan
  have hlexemes : lexemes text = fs.map (·.lexeme) := by
    rw [lexemes_of_machine hmachine, hscan, List.filterMap_map]
    exact List.filterMap_some
  obtain ⟨r, hscans⟩ := scans_of_findFrom hfindings rfl
  have hpieces := pieces_of_scans hscans
  have hlaid := laid_of_scans hm hscans (Position.placed_start _)
  have hnames : ∀ x ∈ fs.map (·.lexeme), m.automaton.isRule x.terminal = false := by
    intro x hx
    obtain ⟨f, hf, rfl⟩ := List.mem_map.mp hx
    obtain ⟨p, q, -, hfound, -⟩ := (hscans.invariant (I := fun _ => True) (fun _ _ _ _ _ _ => trivial) trivial).2 f hf
    obtain ⟨e, hb, -⟩ := hfound.finder
    rw [terminal_of_found hm hfound]
    exact hm.terminal _ hb
  rw [hscan] at hrun
  obtain ⟨segments, hitems, hopen⟩ := items_of_start (makes_of_run hm hnames ⟨[], .bottom⟩ hrun)
  rw [hlexemes]
  refine ⟨hpieces.symm.trans ?_, hlaid, segments, hitems, hopen⟩
  show (text ++ "\n").toList = _
  rw [String.toList_append]
  rfl

end Source

end Grammar

end GrammarBench
