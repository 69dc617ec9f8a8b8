import GrammarBench.Proofs.Invocation
import GrammarBench.Proofs.Script
import GrammarBench.Proofs.Tokenization

/-!
# What a rule is read from

The script of the tokens of a text gives back the lexemes that the tokens were made of, and the
invocation of a rule goes along the script.

* `Bridge.script_scans`: the script of the tokens of a text.
* `Language.perform_unexpected`: the place of a parse failure is that of a lexeme of the script.
* `GrammarClasses.invoke_feeds`: the invocation of a rule.
-/

namespace GrammarBench

open Grammar

namespace Grammar

namespace Bridge

/-! ## Scripts of texts -/

/-- A lexeme without the place behind it, which no token keeps. -/
def bare (x : Lexeme) : Lexeme := { x with endLine := none, endColumn := none }

/-- The lexemes of a text that are not ignored. -/
def shownLexemes (l : Language) (fs : List Scanner.Finding) : List Lexeme :=
  (fs.filter fun f => f.lexeme.terminal ∉ l.ignored).map fun f => bare f.lexeme

/-- The lexeme at the end of a text: at its length, and at the place behind the last finding. -/
def endLexeme (text : String) (fs : List Scanner.Finding) : Lexeme :=
  { terminal := Automaton.endName, text := "", start := some text.length, stop := some text.length
    line := fs.getLast?.elim (some 1) (·.lexeme.endLine)
    column := fs.getLast?.elim (some 1) (·.lexeme.endColumn) }

section

open Scanner

variable {l : Language} {sc : Scanner} {p q : Position} {f : Finding} {fs : List Finding}

theorem terminalOf?_of_represents {t : Token} (h : Represents l f t) :
    terminalOf? l t.kind = some f.lexeme.terminal := by
  have hkind := h.kind
  have hnamed := h.named
  unfold terminalOf?
  unfold GrammarClasses.symbolItems at hnamed
  rw [show t.kind.toNat = (t.kind - 1).toNat + 1 by omega, List.getElem?_cons_succ,
    List.getElem?_map, Option.map_eq_some_iff] at hnamed
  obtain ⟨u, hu, hname⟩ := hnamed
  rw [if_pos hkind.1, hu, Option.map_some, Value.text.inj hname]

/-- The token of a finding is carried back to the lexeme it was made of. -/
theorem carried_tokenOf (h : sc.Found p f q) (symbols : Symbols) (hidden : List String) (i : Int) :
    carried ((tokenOf symbols hidden f.lexeme).withIndex i) f.lexeme.terminal f.lexeme.text =
      bare f.lexeme := by
  rw [tokenOf_eq h]
  unfold bare
  rw [congrArg Lexeme.start h.lexeme, congrArg Lexeme.stop h.lexeme, congrArg Lexeme.line h.lexeme,
    congrArg Lexeme.column h.lexeme, congrArg Lexeme.textless h.lexeme]
  simp [carried, Token.withIndex]

/-- The script of tokens that stand for findings and carry their lexemes. -/
theorem script_represented {body : List Token} {last : Token} (hlast : last.isEof = true)
    (hbody : List.Forall₂ (fun f t => Represents l f t ∧
      carried t f.lexeme.terminal f.lexeme.text = bare f.lexeme) fs body) :
    script l (body ++ [last]) = ⟨shownLexemes l fs, .ok (carried last Automaton.endName (some ""))⟩ := by
  induction hbody with
  | nil => exact script_eof hlast l []
  | @cons f t fs body hhead _ ih =>
      obtain ⟨hrepresents, hcarried⟩ := hhead
      have hchannel := hrepresents.channel
      rw [List.cons_append]
      unfold shownLexemes at ih ⊢
      by_cases hignored : f.lexeme.terminal ∈ l.ignored
      · rw [if_pos hignored] at hchannel
        rw [script_hidden hrepresents.isEof_eq (by rw [hchannel]; decide), ih,
          List.filter_cons_of_neg (by simpa using hignored)]
      · rw [if_neg hignored] at hchannel
        rw [script_known hrepresents.isEof_eq hchannel (terminalOf?_of_represents hrepresents), ih,
          List.filter_cons_of_pos (by simpa using hignored), List.map_cons, hrepresents.text,
          hcarried]

/-- Behind a scan is the place behind its last finding. -/
theorem place_scans {r : Position} (h : sc.Scans p fs r) :
    some (r.line : Int) = fs.getLast?.elim (some (p.line : Int)) (·.lexeme.endLine) ∧
      some (r.column : Int) = fs.getLast?.elim (some (p.column : Int)) (·.lexeme.endColumn) := by
  induction h with
  | done _ => exact ⟨rfl, rfl⟩
  | @found p q r f fs hfound _ _ ih =>
      rw [List.getLast?_cons]
      cases hlast : fs.getLast? with
      | none =>
          rw [hlast] at ih
          rw [Option.getD_none, Option.elim_some, Option.elim_some,
            congrArg Lexeme.endLine hfound.lexeme, congrArg Lexeme.endColumn hfound.lexeme]
          exact ih
      | some g =>
          rw [hlast] at ih
          exact ih

/-- The script of the tokens of a text: the lexemes that are not ignored, and the end of the text.
-/
theorem script_scans {r : Position} {text : String}
    (hscans : sc.Scans { cursor := .ofText text.toList } fs r) (hnamed : sc.Named l.terminals) :
    script l (numbered (fs.map fun f => tokenOf (symbols l) l.ignored f.lexeme) ++
        [(Token.eofAt text r.line ((r.column : Int) - 1)).withIndex
          (fs.map fun f => tokenOf (symbols l) l.ignored f.lexeme).length]) =
      ⟨shownLexemes l fs, .ok (endLexeme text fs)⟩ := by
  obtain ⟨-, hall⟩ := hscans.invariant (I := fun _ => True) (fun _ _ _ _ _ _ => trivial) trivial
  have hline : fs.getLast?.elim (some 1) (·.lexeme.endLine) = some (r.line : Int) :=
    (place_scans hscans).1.symm
  have hcolumn : fs.getLast?.elim (some 1) (·.lexeme.endColumn) = some (r.column : Int) :=
    (place_scans hscans).2.symm
  have hbody : List.Forall₂
      (fun f t => Represents l f t ∧ carried t f.lexeme.terminal f.lexeme.text = bare f.lexeme) fs
      (numbered (fs.map fun f => tokenOf (symbols l) l.ignored f.lexeme)) := by
    refine forall₂_numbered fun f hf i => ?_
    obtain ⟨p, q, -, hfound, -⟩ := hall f hf
    exact ⟨represents_tokenOf (hfound.named hnamed) i, carried_tokenOf hfound _ _ i⟩
  rw [script_represented rfl hbody]
  unfold endLexeme
  rw [hline, hcolumn]
  simp [carried, Token.withIndex, Token.eofAt]

end

end Bridge

/-! ## Parse failures -/

/-- The place of a lexeme, as failures tell it. -/
def placeOf (x : Lexeme) : Place := ⟨x.line, x.column, x.start⟩

namespace Language

open Bridge

variable {l : Language} {rule : String} {s : Stack} {x : Lexeme} {place : Place} {message : String}

theorem shift_unexpected (h : l.shift rule s x = .error (.unexpectedToken place message)) :
    place = placeOf x := by
  unfold shift at h
  split at h
  · cases h
  · exact (Failure.unexpectedToken.inj (Except.error.inj h)).1.symm
  · cases h

theorem finish_unexpected (h : l.finish rule s x = .error (.unexpectedToken place message)) :
    place = placeOf x := by
  unfold finish at h
  split at h
  · cases h
  · exact (Failure.unexpectedToken.inj (Except.error.inj h)).1.symm
  · cases h

/-- The state behind some lexemes of a rule. -/
def stateBehind (l : Language) (rule : String) (fed : List Lexeme) : Except Failure Stack := do
  fed.foldlM (l.shift rule) (← l.begin rule)

/-- A parse failure tells the place of the lexeme that was refused, and all lexemes before it were
taken. -/
theorem perform_unexpected {tokens : List Token}
    (h : l.reading.perform rule (script l tokens) = .error (.unexpectedToken place message)) :
    (∃ before x behind state, (script l tokens).fed = before ++ x :: behind ∧
      l.stateBehind rule before = .ok state ∧
      l.shift rule state x = .error (.unexpectedToken place message) ∧ place = placeOf x) ∨
    ∃ x state, (script l tokens).ending = .ok x ∧
      l.stateBehind rule (script l tokens).fed = .ok state ∧
      l.finish rule state x = .error (.unexpectedToken place message) ∧ place = placeOf x := by
  unfold Reading.perform at h
  rcases Outcome.bind_error h with hbegin | ⟨start, hbegin, h⟩
  · -- A rule that cannot be started is no parse failure.
    unfold reading begin at hbegin
    dsimp only at hbegin
    split at hbegin <;> cases hbegin
  rcases Outcome.bind_error h with hfed | ⟨state, hfed, h⟩
  · obtain ⟨before, x, behind, state, hsplit, hbefore, hshift⟩ := Outcome.foldlM_error hfed
    refine Or.inl ⟨before, x, behind, state, hsplit, ?_, hshift, shift_unexpected hshift⟩
    unfold stateBehind
    rw [show l.begin rule = .ok start from hbegin]
    exact hbefore
  rcases Outcome.bind_error h with hending | ⟨x, hending, hfinish⟩
  · -- Neither is a token that stands for no terminal.
    unfold script at hending
    dsimp only at hending
    split at hending <;> cases hending
  refine Or.inr ⟨x, state, hending, ?_, hfinish, finish_unexpected hfinish⟩
  unfold stateBehind
  rw [show l.begin rule = .ok start from hbegin]
  exact hfed

end Language

end Grammar

/-! ## Invocations -/

namespace GrammarClasses

open Bridge GrammarBench.Class

variable {g : GrammarClasses}

/-- A parse tree has to be something. -/
def notNull (rule : String) (t : Tree) : Except Failure Tree :=
  if t.isNull then .error (refuseInvocation ("Rule '" ++ rule ++ "' returned no parse tree"))
  else .ok t

theorem callGrammar_eq (hg : g.Made) {p : Parser} (htype : p.type = g.parser) {tokens : List Token}
    (htokens : p.tokens Token.defaultChannel = .ok tokens) (rule : String) :
    (p.callGrammar rule).1 = parse g.language.reading (symbols g.language) rule tokens := by
  unfold Parser.callGrammar parse
  rw [htype, hg.parserFinds.language, parser_symbolValues hg, htokens,
    ← symbolsOfValues_symbolItems]
  rw [show g.language.reading.begin rule = g.language.begin rule from rfl]
  simp only [bind, Except.bind, pure, Except.pure]
  cases g.language.begin rule with
  | error f => rfl
  | ok start =>
      dsimp only
      cases feedAll g.language.reading (symbolsOfValues (symbolItems g.language)) rule start
        tokens with
      | error f => rfl
      | ok fed => rfl

theorem invoke_eq (hg : g.Made) {rule : String} (hrule : rule ∈ g.rules) {s : Stream} {tokens : List Token}
    (hs : s.fill.1 = .ok tokens) :
    ((Parser.ofStream g.parser s).invoke rule).result =
      (g.language.reading.perform rule (script g.language tokens)).bind (notNull rule) := by
  let ready : Parser := ⟨g.parser, some fun n => (s.onChannel n).1, true⟩
  have htokens : ready.tokens Token.defaultChannel = .ok (Stream.select Token.defaultChannel tokens) := by
    show (s.onChannel Token.defaultChannel).1 = _
    unfold Stream.onChannel
    dsimp only
    rw [hs]
    rfl
  have hlookUp : (Parser.ofStream g.parser s).lookUp rule = .ok (.grammarRule rule) :=
    (Parser.lookUp_eq (p := Parser.ofStream g.parser s) (rule_eq hg hrule)).trans rfl
  show ((Parser.ofStream g.parser s).attempt Parser.call rule).result = _
  rw [Parser.attempt_ok hlookUp]
  show (ready.callGrammar rule).1.bind (notNull rule) = _
  rw [callGrammar_eq hg rfl htokens, parse_select]

/-- What an invocation gives has been read, and is not null. -/
theorem perform_of_invoke (hg : g.Made) {rule : String} (hrule : rule ∈ g.rules) {s : Stream} {tokens : List Token}
    (hs : s.fill.1 = .ok tokens) {t : Tree}
    (ht : ((Parser.ofStream g.parser s).invoke rule).result = .ok t) :
    g.language.reading.perform rule (script g.language tokens) = .ok t ∧ t.isNull = false := by
  rw [invoke_eq hg hrule hs] at ht
  obtain ⟨t', hperform, hnull⟩ := Outcome.bind_ok ht
  unfold notNull at hnull
  split at hnull
  · cases hnull
  · cases hnull
    exact ⟨hperform, Bool.eq_false_iff.mpr ‹_›⟩

/-- The language of one letter with blanks about it. -/
def letterLanguage : Language where
  terminals := [⟨"A", { isLiteral := true, value := "a" }, 0⟩,
    ⟨"WS", { isLiteral := true, value := " " }, 0⟩]
  ignored := ["WS"]
  flags := {}
  useBytes := false
  automaton :=
    { rows := #[[("start", .shift 1), ("A", .shift 2)], [], [("$END", .reduce 1)]]
      starts := [("start", 0)]
      ends := [("start", 1)]
      productions := #[{ origin := "$root_start", items := [⟨.rule "start", false⟩] },
        { origin := "start", items := [⟨.terminal "A", false⟩] }] }
  starts := ["start"]

def letterTokens : List Token :=
  [⟨2, some " ", 0, 0, 1, 0, 1, 0⟩, ⟨1, some "a", 1, 1, 1, 1, 0, 1⟩,
    ⟨-1, some "<EOF>", 2, 1, 1, 2, 0, 2⟩]

end GrammarClasses

end GrammarBench
