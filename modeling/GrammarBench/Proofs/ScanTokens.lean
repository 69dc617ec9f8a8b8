import Mathlib.Data.List.Chain
import GrammarBench.Grammar.Bridge
import GrammarBench.Proofs.Scanning

/-!
# The tokens of a scan

What findings say about the places in a text, and the tokens that are made of them.

* `Position.On`, `Position.Placed`: what a finding preserves of a position.
* `Scans.invariant`: what findings preserve holds along a whole scan.
* `Bridge.typeOf_spec`: the type of a terminal.
* `Bridge.tokensOf_scans`, `Bridge.chained_scans`: the tokens of a scan, each behind the one before.
-/

namespace GrammarBench

open Grammar

namespace Grammar

namespace Scanner

variable {sc : Scanner}

/-! ## What findings preserve -/

/-- A position in a text. -/
structure Position.On (text : List Char) (p : Position) : Prop where
  whole : text = p.cursor.before.reverse ++ p.cursor.after
  passed : p.cursor.passed = p.cursor.before.length

/-- A position whose line and column are those of the text before it. -/
structure Position.Placed (p : Position) : Prop where
  line : p.line = 1 + Text.newlines p.cursor.before.reverse
  column : p.column = (Text.afterLastNewline p.cursor.before.reverse).length + 1

theorem Position.on_start (text : List Char) : Position.On text { cursor := .ofText text } :=
  ⟨rfl, rfl⟩

theorem Position.placed_start (text : List Char) : Position.Placed { cursor := .ofText text } :=
  ⟨rfl, rfl⟩

theorem Found.on {p q : Position} {f : Finding} (h : sc.Found p f q) {text : List Char}
    (hp : p.On text) : q.On text := by
  obtain ⟨hwhole, hpassed⟩ := hp
  constructor
  · rw [h.before, List.reverse_append, List.reverse_reverse, List.append_assoc, ← h.after]
    exact hwhole
  · rw [h.before, h.passed, List.length_append, List.length_reverse, hpassed]
    omega

/-- The place behind a finding is right if its newlines are counted, or if it has none. -/
theorem Found.placed {p q : Position} {f : Finding} (h : sc.Found p f q)
    (hcounted : '\n' ∈ f.lexeme.text.toList → sc.multiline.contains f.finder = true)
    (hp : p.Placed) : q.Placed := by
  obtain ⟨hline, hcolumn⟩ := hp
  have hplace := h.place
  have hbefore : q.cursor.before.reverse = p.cursor.before.reverse ++ f.lexeme.text.toList := by
    rw [h.before, List.reverse_append, List.reverse_reverse]
  unfold placeBehind at hplace
  by_cases hnewline : Text.newlines f.lexeme.text.toList = 0
  · rw [if_neg (by simp [hnewline])] at hplace
    obtain ⟨hl, hc⟩ := Prod.mk.inj hplace
    constructor
    · rw [hl, hline, hbefore, Text.newlines_append, hnewline, Nat.add_zero]
    · rw [hc, hcolumn, hbefore, Text.afterLastNewline_append hnewline, List.length_append]
      omega
  · have hmem : '\n' ∈ f.lexeme.text.toList := by
      rw [Text.newlines_eq_zero] at hnewline
      exact Decidable.not_not.mp hnewline
    rw [if_pos (by rw [hcounted hmem]; simp [hnewline])] at hplace
    obtain ⟨hl, hc⟩ := Prod.mk.inj hplace
    constructor
    · rw [hl, hline, hbefore, Text.newlines_append]
      omega
    · rw [hc, hbefore, Text.afterLastNewline_append_of_newline hnewline]

/-- What all findings of a scan preserve holds behind the scan and before each finding. -/
theorem Scans.invariant {I : Position → Prop} {p r : Position} {fs : List Finding}
    (h : sc.Scans p fs r) (hstep : ∀ f ∈ fs, ∀ p q, sc.Found p f q → I p → I q) (hp : I p) :
    I r ∧ ∀ f ∈ fs, ∃ p' q', I p' ∧ sc.Found p' f q' ∧ f.lexeme.text ≠ "" := by
  induction h with
  | done _ => exact ⟨hp, by simp⟩
  | @found p q r f fs hfound hne _ ih =>
      have hq := hstep f List.mem_cons_self p q hfound hp
      obtain ⟨hr, hall⟩ := ih (fun g hg => hstep g (List.mem_cons_of_mem f hg)) hq
      refine ⟨hr, fun g hg => ?_⟩
      rcases List.mem_cons.mp hg with rfl | hg
      · exact ⟨p, q, hp, hfound, hne⟩
      · exact hall g hg

/-- A scan takes the text up to its end. -/
theorem Scans.after_eq {p r : Position} {fs : List Finding} (h : sc.Scans p fs r) :
    r.cursor.after = [] ∧ p.cursor.after = fs.flatMap fun f => f.lexeme.text.toList := by
  induction h with
  | done hempty => exact ⟨hempty, hempty⟩
  | found hfound _ _ ih =>
      refine ⟨ih.1, ?_⟩
      rw [hfound.after, ih.2, List.flatMap_cons]

end Scanner

/-! ## Tokens of findings -/

namespace Bridge

open Scanner

theorem lastPlace?_eq_some {name : String} {symbols : Symbols} {n i : Nat}
    (h : lastPlace? name n symbols = some i) : n ≤ i ∧ symbols[i - n]? = some (some name) := by
  induction symbols generalizing n with
  | nil => cases h
  | cons s rest ih =>
      rw [lastPlace?, Option.or_eq_some_iff] at h
      rcases h with hrest | ⟨-, hhere⟩
      · obtain ⟨hle, hget⟩ := ih hrest
        refine ⟨by omega, ?_⟩
        rw [show i - n = i - (n + 1) + 1 by omega, List.getElem?_cons_succ]
        exact hget
      · obtain ⟨hs, hi⟩ := Option.ite_none_right_eq_some.mp hhere
        cases hi
        rw [Nat.sub_self, hs]
        exact ⟨Nat.le_refl _, rfl⟩

theorem lastPlace?_ne_none {name : String} {symbols : Symbols} (h : some name ∈ symbols) (n : Nat) :
    lastPlace? name n symbols ≠ none := by
  induction symbols generalizing n with
  | nil => cases h
  | cons s rest ih =>
      rw [lastPlace?, Ne, Option.or_eq_none_iff]
      rintro ⟨hrest, hhere⟩
      rcases List.mem_cons.mp h with rfl | h
      · rw [if_pos rfl] at hhere
        cases hhere
      · exact ih h _ hrest

/-- The type of a name is a place where it stands. -/
theorem typeOf_spec {symbols : Symbols} {name : String} (h : some name ∈ symbols) :
    ∃ n : Nat, typeOf symbols name = n ∧ symbols[n]? = some (some name) := by
  unfold typeOf
  cases hplace : lastPlace? name 0 symbols with
  | none => exact absurd hplace (lastPlace?_ne_none h 0)
  | some n => exact ⟨n, rfl, (lastPlace?_eq_some hplace).2⟩

variable {sc : Scanner} {p q r : Position} {f : Finding} {fs : List Finding}

/-- The token of a finding, from the positions before and behind it. -/
theorem tokenOf_eq (h : sc.Found p f q) (symbols : Symbols) (hidden : List String) :
    tokenOf symbols hidden f.lexeme =
      { kind := typeOf symbols f.lexeme.terminal, text := some f.lexeme.text
        start := p.cursor.passed, stop := (q.cursor.passed : Int) - 1
        line := p.line, column := (p.column : Int) - 1
        channel := if hidden.contains f.lexeme.terminal then Token.hiddenChannel
          else Token.defaultChannel } := by
  unfold tokenOf
  rw [congrArg Lexeme.start h.lexeme, congrArg Lexeme.stop h.lexeme, congrArg Lexeme.line h.lexeme,
    congrArg Lexeme.column h.lexeme]
  rfl

/-- The tokens of a scan: one for each finding, and the one that ends the input at the place
behind. -/
theorem tokensOf_scans (h : sc.Scans p fs r) (symbols : Symbols) (hidden : List String)
    (text : String) :
    tokensOf symbols hidden text (p.line, (p.column : Int) - 1) (fs.map fun f => .ok f.lexeme) =
      (fs.map fun f => tokenOf symbols hidden f.lexeme).map .ok ++
        [.ok (Token.eofAt text r.line ((r.column : Int) - 1))] := by
  induction h with
  | done _ => rfl
  | @found p q r f fs hfound _ _ ih =>
      rw [List.map_cons, List.map_cons, List.map_cons, List.cons_append, tokensOf,
        congrArg Lexeme.endLine hfound.lexeme, congrArg Lexeme.endColumn hfound.lexeme]
      exact congrArg (_ :: ·) ih

/-- The tokens of a text in which a lexeme is found everywhere. -/
theorem emission_scans {l : Language} {text : String} (h : l.findings text = fs.map .ok)
    (hscans : sc.Scans { cursor := .ofText text.toList } fs r) :
    emission l text = (fs.map fun f => tokenOf (symbols l) l.ignored f.lexeme).map .ok ++
      [.ok (Token.eofAt text r.line ((r.column : Int) - 1))] := by
  have hlexemes : l.lexemes text = fs.map fun f => .ok f.lexeme := by
    unfold Language.lexemes
    rw [h, List.map_map]
    rfl
  unfold emission emissionWith
  rw [hlexemes]
  exact tokensOf_scans hscans _ _ _

/-- Every token starts where the one before it stops. -/
theorem chained_scans (h : sc.Scans p fs r) (symbols : Symbols) (hidden : List String)
    {last : Token} (hlast : last.start = r.cursor.passed) :
    (∀ t ∈ ((fs.map fun f => tokenOf symbols hidden f.lexeme) ++ [last]).head?,
        t.start = p.cursor.passed) ∧
      List.IsChain (fun a b : Token => b.start = a.stop + 1)
        ((fs.map fun f => tokenOf symbols hidden f.lexeme) ++ [last]) := by
  induction h with
  | done _ => exact ⟨by simpa using hlast, List.isChain_singleton _⟩
  | @found p q r f fs hfound _ _ ih =>
      obtain ⟨hhead, hchain⟩ := ih hlast
      rw [List.map_cons, List.cons_append, tokenOf_eq hfound]
      refine ⟨by simp, List.isChain_cons.mpr ⟨fun t ht => ?_, hchain⟩⟩
      rw [hhead t ht]
      show (q.cursor.passed : Int) = (q.cursor.passed : Int) - 1 + 1
      omega

end Bridge

end Grammar

end GrammarBench
