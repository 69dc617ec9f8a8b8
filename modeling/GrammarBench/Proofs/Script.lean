import GrammarBench.Grammar.Bridge

/-!
# Scripts of readings

A rule of a grammar is read from the tokens of the default channel before the first one that ends
the input, each under the name of its type. This is said by a script: the lexemes that are fed,
and what ends the reading. A token of a type without a terminal ends it with a failure.

* `Bridge.script`, `Reading.perform`: the script of some tokens, and a reading along a script.
* `Bridge.parse_select`: any reading of a rule over a stream goes along the script.
-/

namespace GrammarBench

open Grammar

namespace Grammar

/-! ## Scripts -/

/-- What is fed while a rule is read, and what ends the reading: one more lexeme, or a failure. -/
structure Script where
  fed : List Lexeme
  ending : Except Failure Lexeme

/-- The reading of a rule along a script. -/
def Reading.perform {σ : Type} (r : Reading σ) (rule : String) (s : Script) :
    Except Failure Tree := do
  let state ← s.fed.foldlM (r.shift rule) (← r.begin rule)
  r.finish rule state (← s.ending)

namespace Bridge

/-- The name of the terminal that a type stands for, if it stands for one. -/
def terminalOf? (l : Language) (kind : Int) : Option String :=
  if 1 ≤ kind then (l.terminals[(kind - 1).toNat]?).map (·.name) else none

/-- The failure about a token that stands for no terminal. -/
def foreign (t : Token) : Failure :=
  .fault .grammarRuntime ("Token type " ++ toString t.kind ++ " at " ++ toString t.line ++ ":" ++
    toString t.column ++ " is not a terminal of this grammar")

/-- The lexeme that ends a reading: the first token that ends the input, or a bare end. -/
def endOf (tokens : List Token) : Lexeme :=
  match tokens.find? Token.isEof with
  | some t => carried t Automaton.endName (some "")
  | none => bareEnd

/-- The tokens of the default channel before the first one that ends the input. -/
def visible (tokens : List Token) : List Token :=
  (tokens.takeWhile (!·.isEof)).filter (·.channel = Token.defaultChannel)

/-- What a rule is read from: the visible tokens before the first foreign one, and then the end of
the input or the failure about the foreign one. -/
def script (l : Language) (tokens : List Token) : Script :=
  let isKnown (t : Token) : Bool := (terminalOf? l t.kind).isSome
  { fed := ((visible tokens).takeWhile isKnown).filterMap fun t =>
      (terminalOf? l t.kind).map fun name => carried t name t.text
    ending := match (visible tokens).find? (!isKnown ·) with
      | some t => .error (foreign t)
      | none => .ok (endOf tokens) }

/-- A type stands for the terminal under which the classes list it. -/
theorem getElem?_symbols (l : Language) (kind : Int) :
    (if 0 < kind then (symbols l)[kind.toNat]? else none) = (terminalOf? l kind).map some := by
  unfold terminalOf?
  by_cases hkind : 0 < kind
  · rw [if_pos hkind, if_pos (by omega), show kind.toNat = (kind - 1).toNat + 1 by omega]
    unfold symbols
    rw [List.getElem?_cons_succ, List.getElem?_map, Option.map_map]
    rfl
  · rw [if_neg hkind, if_neg (by omega)]
    rfl

theorem lexemeOf_eof {t : Token} (h : t.isEof = true) (l : Language) :
    lexemeOf (symbols l) t = .ok (carried t Automaton.endName (some "")) := by
  unfold lexemeOf
  rw [if_pos h]

theorem lexemeOf_known {t : Token} (h : t.isEof = false) {l : Language} {name : String}
    (hname : terminalOf? l t.kind = some name) :
    lexemeOf (symbols l) t = .ok (carried t name t.text) := by
  unfold lexemeOf
  rw [h, getElem?_symbols, hname]
  rfl

theorem lexemeOf_foreign {t : Token} (h : t.isEof = false) {l : Language}
    (hname : terminalOf? l t.kind = none) : lexemeOf (symbols l) t = .error (foreign t) := by
  unfold lexemeOf
  rw [h, getElem?_symbols, hname]
  rfl

/-! ## Scripts of longer lists -/

theorem script_eof {t : Token} (h : t.isEof = true) (l : Language) (rest : List Token) :
    script l (t :: rest) = ⟨[], .ok (carried t Automaton.endName (some ""))⟩ := by
  simp [script, visible, endOf, h]

theorem script_hidden {t : Token} (h : t.isEof = false)
    (hchannel : t.channel ≠ Token.defaultChannel) (l : Language) (rest : List Token) :
    script l (t :: rest) = script l rest := by
  simp [script, visible, endOf, h, hchannel]

theorem script_known {t : Token} (h : t.isEof = false) (hchannel : t.channel = Token.defaultChannel)
    {l : Language} {name : String} (hname : terminalOf? l t.kind = some name) (rest : List Token) :
    script l (t :: rest) = { script l rest with
      fed := carried t name t.text :: (script l rest).fed } := by
  simp [script, visible, endOf, h, hchannel, hname]

theorem script_foreign {t : Token} (h : t.isEof = false)
    (hchannel : t.channel = Token.defaultChannel) {l : Language}
    (hname : terminalOf? l t.kind = none) (rest : List Token) :
    script l (t :: rest) = ⟨[], .error (foreign t)⟩ := by
  simp [script, visible, h, hchannel, hname]

/-! ## Readings of streams -/

variable {σ : Type} (r : Reading σ) (rule : String)

/-- From any state on, the tokens of a stream are fed as the script says. -/
theorem feedAll_select (l : Language) (tokens : List Token) (s : σ) :
    (do
      let (s, last) ← feedAll r (symbols l) rule s (Stream.select Token.defaultChannel tokens)
      close r (symbols l) rule s last) =
    (do
      let s ← (script l tokens).fed.foldlM (r.shift rule) s
      r.finish rule s (← (script l tokens).ending)) := by
  induction tokens generalizing s with
  | nil => rfl
  | cons t rest ih =>
      cases heof : t.isEof with
      | true =>
          rw [script_eof heof]
          unfold Stream.select
          rw [List.filter_cons_of_pos (by simp [heof]), feedAll, if_pos heof]
          show close r (symbols l) rule s (some t) = _
          unfold close
          dsimp only
          rw [lexemeOf_eof heof]
          rfl
      | false =>
          by_cases hchannel : t.channel = Token.defaultChannel
          · unfold Stream.select at ih ⊢
            rw [List.filter_cons_of_pos (by simp [hchannel]), feedAll, if_neg (by simp [heof])]
            cases hname : terminalOf? l t.kind with
            | none =>
                rw [lexemeOf_foreign heof hname, script_foreign heof hchannel hname]
                rfl
            | some name =>
                rw [lexemeOf_known heof hname, script_known heof hchannel hname]
                dsimp only
                rw [List.foldlM_cons]
                show (r.shift rule s (carried t name t.text) >>= _) >>= _ = _
                cases hshift : r.shift rule s (carried t name t.text) with
                | error f => rfl
                | ok s' => exact ih s'
          · have hselect : Stream.select Token.defaultChannel (t :: rest) =
                Stream.select Token.defaultChannel rest := by
              unfold Stream.select
              rw [List.filter_cons_of_neg (by simp [hchannel, heof])]
            rw [hselect, script_hidden heof hchannel]
            exact ih s

/-- Any reading of a rule over the default channel of a stream goes along the script. -/
theorem parse_select (l : Language) (tokens : List Token) :
    parse r (symbols l) rule (Stream.select Token.defaultChannel tokens) =
      r.perform rule (script l tokens) := by
  unfold parse Reading.perform
  cases r.begin rule with
  | error f => rfl
  | ok s => exact feedAll_select r rule l tokens s

end Bridge

end Grammar

end GrammarBench
