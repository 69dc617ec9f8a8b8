import Mathlib.Data.List.Nodup
import GrammarBench.Proofs.LeafChanges

/-!
# Ignoring

A lexer may leave out a lexeme as soon as an ignored terminal finds it; the lexer class of a grammar hides
it by the name that it ends up with. The two differ for keywords, which are found by one terminal and
named after another.

* `Language.heeded`, `Language.readHeeded`: the lexemes that no ignored terminal finds, and the reading of
  a rule from them.
* `Language.Uncrossed`: no lexeme crosses the list of ignored terminals when it is renamed.
* `GrammarClasses.visible_heeded`, `GrammarClasses.invoke_heeded`: when the visible tokens of a text are
  the heeded lexemes, and what the invocation of a rule then comes to.
-/

namespace GrammarBench

open Grammar

namespace Grammar

open Bridge Scanner

namespace Language

variable (l : Language) (rule : String)

/-- The lexemes of a text that are left when what an ignored terminal finds is left out. -/
def heeded (fs : List Finding) : List Lexeme :=
  (fs.filter fun f => f.finder ∉ l.ignored).map (·.lexeme)

/-- The reading of a rule from the lexemes that are heeded; the end stands where the last one does. -/
def readHeeded (fs : List Finding) : Except Failure Tree :=
  l.reading.perform rule ⟨l.heeded fs, .ok (Source.endAfter (l.heeded fs).getLast?)⟩

/-- A lexeme is ignored under its own name just if it is under the name of its finder. -/
def Uncrossed (fs : List Finding) : Prop :=
  ∀ f ∈ fs, f.lexeme.terminal ∈ l.ignored ↔ f.finder ∈ l.ignored

/-- A lexeme among others is refused, for the given reason, when all before it have been taken. -/
def StopsAt (xs : List Lexeme) (x : Lexeme) (f : Failure) : Prop :=
  ∃ before behind state, xs = before ++ x :: behind ∧ l.stateBehind rule before = .ok state ∧
    l.shift rule state x = .error f

theorem perform_eq (xs : List Lexeme) (x : Lexeme) :
    l.reading.perform rule ⟨xs, .ok x⟩ = l.stateBehind rule xs >>= fun s => l.finish rule s x := by
  unfold Reading.perform stateBehind
  show (l.begin rule >>= fun s => xs.foldlM (l.shift rule) s >>= _) = _
  cases l.begin rule with
  | error f => rfl
  | ok s => rfl

variable {l rule} {xs : List Lexeme} {f : Failure}

/-- A state is not reached just if the rule cannot be started or a lexeme is refused. -/
theorem stateBehind_error (h : l.stateBehind rule xs = .error f) :
    l.begin rule = .error f ∨ ∃ x, l.StopsAt rule xs x f := by
  unfold stateBehind at h
  rcases Outcome.bind_error h with hbegin | ⟨s, hbegin, hfold⟩
  · exact Or.inl hbegin
  · obtain ⟨before, x, behind, state, hsplit, hbefore, hshift⟩ := Outcome.foldlM_error hfold
    refine Or.inr ⟨x, before, behind, state, hsplit, ?_, hshift⟩
    unfold stateBehind
    rw [hbegin]
    exact hbefore

end Language

/-! ## Visible tokens -/

/-- A token that stands for a lexeme: the same terminal, text and offset. -/
structure StandsFor (l : Language) (x : Lexeme) (t : Token) : Prop where
  terminal : terminalOf? l t.kind = some x.terminal
  text : t.text = some x.text
  start : x.start = some t.start

variable {l : Language} {sc : Scanner} {p q r : Position} {f : Finding} {fs : List Finding}

/-- The token of a finding stands for its lexeme. -/
theorem standsFor_tokenOf (h : sc.Found p f q) (hnamed : sc.Named l.terminals) (i : Int) :
    StandsFor l f.lexeme ((tokenOf (symbols l) l.ignored f.lexeme).withIndex i) := by
  refine ⟨terminalOf?_of_represents (represents_tokenOf (h.named hnamed) i), rfl, ?_⟩
  rw [tokenOf_eq h, congrArg Lexeme.start h.lexeme]
  rfl

/-- The visible ones among tokens that stand for findings. -/
theorem visible_represented {body : List Token} {last : Token} (hlast : last.isEof = true)
    (hbody : List.Forall₂ (fun f t => Represents l f t ∧ StandsFor l f.lexeme t) fs body) :
    List.Forall₂ (StandsFor l) ((fs.filter fun f => f.lexeme.terminal ∉ l.ignored).map (·.lexeme))
      (visible (body ++ [last])) := by
  induction hbody with
  | nil =>
      unfold visible
      rw [List.nil_append, List.takeWhile_cons_of_neg (by simp [hlast])]
      exact .nil
  | @cons f t fs body hhead _ ih =>
      obtain ⟨hrepresents, hstands⟩ := hhead
      have hchannel := hrepresents.channel
      unfold visible at ih ⊢
      rw [List.cons_append, List.takeWhile_cons_of_pos (by simp [hrepresents.isEof_eq])]
      by_cases hignored : f.lexeme.terminal ∈ l.ignored
      · rw [if_pos hignored] at hchannel
        rw [List.filter_cons_of_neg (by simpa using hignored),
          List.filter_cons_of_neg (by rw [hchannel]; decide)]
        exact ih
      · rw [if_neg hignored] at hchannel
        rw [List.filter_cons_of_pos (by simpa using hignored), List.map_cons,
          List.filter_cons_of_pos (by rw [hchannel]; decide)]
        exact .cons hstands ih

namespace Scanner

/-- The findings of a scan start at different places, none before the scan. -/
theorem Scans.starts (h : sc.Scans p fs r) :
    (∀ f ∈ fs, ∃ n : Nat, p.cursor.passed ≤ n ∧ f.lexeme.start = some (n : Int)) ∧
      (fs.map fun f => f.lexeme.start).Nodup := by
  induction h with
  | done _ => exact ⟨by simp, List.nodup_nil⟩
  | @found p q r f fs hfound hne _ ih =>
      obtain ⟨hbound, hnodup⟩ := ih
      have hstart : f.lexeme.start = some (p.cursor.passed : Int) := congrArg Lexeme.start hfound.lexeme
      have hpassed : p.cursor.passed < q.cursor.passed := by
        have hlength : f.lexeme.text.toList.length ≠ 0 := fun h0 =>
          hne (String.toList_eq_nil_iff.mp (List.length_eq_zero_iff.mp h0))
        rw [hfound.passed]
        omega
      refine ⟨fun g hg => ?_, List.nodup_cons.mpr ⟨fun hmem => ?_, hnodup⟩⟩
      · rcases List.mem_cons.mp hg with rfl | hg
        · exact ⟨_, Nat.le_refl _, hstart⟩
        · obtain ⟨n, hn, hgstart⟩ := hbound g hg
          exact ⟨n, by omega, hgstart⟩
      · obtain ⟨g, hg, hsame⟩ := List.mem_map.mp hmem
        obtain ⟨n, hn, hgstart⟩ := hbound g hg
        have hn' : (n : Int) = p.cursor.passed :=
          Option.some.inj (hgstart.symm.trans (hsame.trans hstart))
        omega

end Scanner

/-- Of elements with different keys, two conditions leave the same keys just if they agree. -/
theorem filter_agree {α κ : Type} {key : α → κ} {as : List α} (h : (as.map key).Nodup) {p q : α → Bool}
    (hkeys : (as.filter p).map key = (as.filter q).map key) {a : α} (ha : a ∈ as) : p a = q a := by
  have hleft {p q : α → Bool} (hkeys : (as.filter p).map key = (as.filter q).map key)
      (hp : p a = true) : q a = true := by
    have hmem : key a ∈ (as.filter q).map key :=
      hkeys ▸ List.mem_map_of_mem (List.mem_filter.mpr ⟨ha, hp⟩)
    obtain ⟨b, hb, hsame⟩ := List.mem_map.mp hmem
    obtain ⟨hb, hq⟩ := List.mem_filter.mp hb
    rwa [List.inj_on_of_nodup_map h hb ha hsame] at hq
  exact Bool.eq_iff_iff.mpr ⟨hleft hkeys, hleft hkeys.symm⟩

/-- The visible tokens of a text are its heeded lexemes just if no lexeme crosses the list of ignored
terminals. -/
theorem visible_scans {text : String} (hscans : sc.Scans { cursor := .ofText text.toList } fs r)
    (hnamed : sc.Named l.terminals) {last : Token} (hlast : last.isEof = true) :
    List.Forall₂ (StandsFor l) (l.heeded fs)
        (visible (numbered (fs.map fun f => tokenOf (symbols l) l.ignored f.lexeme) ++ [last])) ↔
      l.Uncrossed fs := by
  obtain ⟨-, hall⟩ := hscans.invariant (I := fun _ => True) (fun _ _ _ _ _ _ => trivial) trivial
  have hshown := visible_represented (l := l) hlast (forall₂_numbered fun f hf i => by
    obtain ⟨p, q, -, hfound, -⟩ := hall f hf
    exact ⟨represents_tokenOf (hfound.named hnamed) i, standsFor_tokenOf hfound hnamed i⟩)
  constructor
  · intro hheeded f hf
    have hstarts {xs : List Lexeme} {ts : List Token} (h : List.Forall₂ (StandsFor l) xs ts) :
        xs.map (·.start) = ts.map fun t => some t.start := by
      induction h with
      | nil => rfl
      | cons hhead _ ih => rw [List.map_cons, List.map_cons, hhead.start, ih]
    have hkeys := (hstarts hheeded).trans (hstarts hshown).symm
    unfold Language.heeded at hkeys
    rw [List.map_map, List.map_map] at hkeys
    have hagree := filter_agree hscans.starts.2 hkeys hf
    exact not_iff_not.mp (decide_eq_decide.mp hagree.symm)
  · intro huncrossed
    unfold Language.heeded
    rw [List.filter_congr fun f hf => decide_eq_decide.mpr (not_congr (huncrossed f hf).symm)]
    exact hshown

/-- Of lexemes that do not cross the list of ignored terminals, those that are shown are heeded. -/
theorem shownLexemes_eq (h : l.Uncrossed fs) : shownLexemes l fs = (l.heeded fs).map bare := by
  unfold shownLexemes Language.heeded
  rw [List.filter_congr fun f hf => decide_eq_decide.mpr (not_congr (h f hf)), List.map_map]
  rfl

end Grammar

/-! ## Invocations -/

namespace GrammarClasses

open Bridge GrammarBench.Class

variable {g : GrammarClasses} {rule : String} {text : String} {fs : List Scanner.Finding}

/-- How the invocation of a rule goes, against the reading of the rule from the heeded lexemes: the
same tree with bare leaves, unless it is nothing; a failure about the same lexeme; or a failure about
the end of the text for one about the end of the lexemes. -/
inductive Matches (l : Language) (rule : String) (xs : List Lexeme) (last : Lexeme) :
    Except Failure Tree → Except Failure Tree → Prop
  | tree (t : Tree) : Matches l rule xs last (.ok t) (notNull rule (t.mapLexemes bare))
  | unstarted (f : Failure) : l.begin rule = .error f → Matches l rule xs last (.error f) (.error f)
  | stopped (x : Lexeme) (f : Failure) : l.StopsAt rule xs x f →
      Matches l rule xs last (.error f) (.error f)
  | unfinished (state : Stack) (expected : List String) : l.stateBehind rule xs = .ok state →
      Matches l rule xs last (.error (unexpected (Source.endAfter xs.getLast?) expected))
        (.error (unexpected last expected))
  | endless : Matches l rule xs last (.error endlessReading) (.error endlessReading)

/-- A reading of bare lexemes up to the end of a text goes as the reading of the heeded lexemes. -/
theorem matches_perform (l : Language) (rule : String) (fs : List Scanner.Finding) {last : Lexeme}
    (hlast : last.terminal = Automaton.endName) :
    Matches l rule (l.heeded fs) last (l.readHeeded rule fs)
      ((l.reading.perform rule ⟨(l.heeded fs).map bare, .ok last⟩).bind (notNull rule)) := by
  unfold Language.readHeeded
  rw [Language.perform_eq, Language.perform_eq, Language.stateBehind_bare]
  cases hbehind : l.stateBehind rule (l.heeded fs) with
  | error f =>
      rcases Language.stateBehind_error hbehind with hbegin | ⟨x, hstops⟩
      · exact .unstarted f hbegin
      · exact .stopped x f hstops
  | ok state =>
      have hend : last.terminal = (Source.endAfter (l.heeded fs).getLast?).terminal := by
        rw [hlast]
        cases (l.heeded fs).getLast? <;> rfl
      have hlike := Language.finish_bare l rule state hend
      show Matches l rule (l.heeded fs) last (l.finish rule state _)
        ((l.finish rule (state.mapLexemes bare) last).bind (notNull rule))
      revert hlike
      generalize l.finish rule state (Source.endAfter (l.heeded fs).getLast?) = own
      generalize l.finish rule (state.mapLexemes bare) last = other
      intro hlike
      cases hlike with
      | tree t => exact .tree t
      | refused expected => exact .unfinished state expected hbehind
      | endless => exact .endless

/-- **Ignoring.** The tokens that the lexer class of a grammar leaves visible in a text are the lexemes that
no ignored terminal finds, with their terminals, texts and offsets, just if no lexeme crosses the list
of ignored terminals when it is renamed. Then the invocation of a rule on the text goes as the
reading of the rule from those lexemes does. -/
theorem invoke_heeded (hg : g.Made) (h : g.language.findings text = fs.map .ok) :
    ∃ tokens, (Stream.ofEmission (g.lexer.emission text)).fill.1 = .ok tokens ∧
      (List.Forall₂ (StandsFor g.language) (g.language.heeded fs) (visible tokens) ↔
        g.language.Uncrossed fs) ∧
      (g.language.Uncrossed fs → ∀ rule ∈ g.rules,
        Matches g.language rule (g.language.heeded fs) (endLexeme text fs)
          (g.language.readHeeded rule fs)
          ((Parser.ofStream g.parser (Stream.ofEmission (g.lexer.emission text))).invoke rule).result) := by
  obtain ⟨sc, r, hnamed, hscans⟩ := Language.scans_of_findings h
  have hfill := fill_scans hg h hscans hnamed
  refine ⟨_, hfill, visible_scans hscans hnamed rfl, fun huncrossed rule hrule => ?_⟩
  rw [invoke_eq hg hrule hfill, script_scans hscans hnamed, shownLexemes_eq huncrossed]
  exact matches_perform g.language rule fs rfl

def wordLexeme (terminal text : String) : Lexeme :=
  ⟨terminal, text, some 0, some 1, some 1, some 1, some 1, some 2, false⟩

/-- An ignored word that is no keyword is hidden. -/
theorem invoke_heeded_word :
    ∃ g : GrammarClasses, g.Made ∧ g.language = ignoredWords ∧
      g.language.readHeeded "start" [⟨"W", wordLexeme "W" "b"⟩] = .ok (.rule "start" []) ∧
      ((Parser.ofStream g.parser (Stream.ofEmission (g.lexer.emission "b"))).invoke "start").result =
        .ok (.rule "start" []) := by
  obtain ⟨g, hg, hlanguage, hrules⟩ := exists_made ignoredWords ["start"]
  have hfindings : g.language.findings "b" = [⟨"W", wordLexeme "W" "b"⟩].map .ok := by
    rw [hlanguage]
    decide +kernel
  have huncrossed : g.language.Uncrossed [⟨"W", wordLexeme "W" "b"⟩] := by
    rw [hlanguage]
    simp [Language.Uncrossed, ignoredWords, wordLexeme]
  obtain ⟨tokens, -, -, hmatches⟩ := invoke_heeded hg hfindings
  have hread : g.language.readHeeded "start" [⟨"W", wordLexeme "W" "b"⟩] = .ok (.rule "start" []) := by
    rw [hlanguage]
    rfl
  have hmatched := hmatches huncrossed "start" (by rw [hrules]; exact List.mem_cons_self)
  rw [hread] at hmatched
  refine ⟨g, hg, hlanguage, hread, ?_⟩
  generalize ((Parser.ofStream g.parser _).invoke "start").result = result at hmatched ⊢
  cases hmatched
  rfl

def keywordTokens : List Token := [⟨1, some "a", 0, 0, 1, 0, 0, 0⟩, ⟨-1, some "<EOF>", 1, 0, 1, 1, 0, 1⟩]

/-- A keyword that an ignored terminal finds stays visible, and the rule is read from it. -/
theorem crossed_keyword :
    ∃ g, build Layer.firstFree "g" wordsText "m" [] bareShelf = .ok g ∧ g.language = ignoredWords ∧
      g.language.findings "a" = [⟨"W", wordLexeme "A" "a"⟩].map .ok ∧
      g.language.readHeeded "start" [⟨"W", wordLexeme "A" "a"⟩] = .ok (.rule "start" []) ∧
      (Stream.ofEmission (g.lexer.emission "a")).fill.1 = .ok keywordTokens ∧
      ¬ List.Forall₂ (StandsFor g.language) (g.language.heeded [⟨"W", wordLexeme "A" "a"⟩])
        (visible keywordTokens) ∧
      ((Parser.ofStream g.parser (Stream.ofEmission (g.lexer.emission "a"))).invoke "start").result =
        .ok (.rule "start" [.lexeme (bare (wordLexeme "A" "a"))]) := by
  obtain ⟨g, hbuild, hg, hlanguage, hrule⟩ := exists_build_single (.tail _ (.tail _ (.head _)))
  have hfill : (Stream.ofEmission (g.lexer.emission "a")).fill.1 = .ok keywordTokens := by
    rw [emission_eq hg, hlanguage]
    decide +kernel
  refine ⟨g, hbuild, hlanguage, ?_, ?_, hfill, ?_, ?_⟩
  · rw [hlanguage]
    decide +kernel
  · rw [hlanguage]
    rfl
  · -- The word is not heeded, and one token is visible.
    intro hstands
    rw [hlanguage] at hstands
    exact absurd hstands.length_eq (by decide)
  · rw [invoke_eq hg hrule hfill, hlanguage]
    rfl

end GrammarClasses

end GrammarBench
