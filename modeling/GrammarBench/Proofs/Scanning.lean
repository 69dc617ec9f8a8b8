import Mathlib.Data.List.Forall2
import GrammarBench.Grammar.Language
import GrammarBench.Proofs.Matching
import GrammarBench.Proofs.Outcome

/-!
# Scans

What the findings in a text are when none of them is a failure: they stand one behind the other,
each takes at least one character, and they come to the end of the text. A match of no character
would be found again and again in its place, and such a scanning ends with a failure.

* `Scanner.Named`, `Scanner.named_ofTerminals`: all names that a scanner gives are names of its
  terminals.
* `Scanner.Found`, `Scanner.found_of_findingAt`: one finding, with the positions before and behind
  it.
* `Scanner.Scans`, `Scanner.scans_of_findFrom`: a run of findings up to the end of the text.
* `Language.scans_of_findings`: the findings of a language.
-/

namespace GrammarBench.Grammar

open Pattern

namespace Scanner

/-! ## Names -/

/-- Whether newlines are counted in what the terminal of a name finds. -/
def countsNewlines (terminals : List Terminal) (name : String) : Bool :=
  terminals.any fun t => t.name = name && mayHoldNewline t.pattern.regexp

theorem contains_multiline (terminals : List Terminal) (name : String) :
    ((terminals.filter fun t => mayHoldNewline t.pattern.regexp).map (·.name)).contains name =
      countsNewlines terminals name := by
  rw [Bool.eq_iff_iff]
  simp only [List.contains_iff_mem, List.mem_map, List.mem_filter, countsNewlines, List.any_eq_true,
    Bool.and_eq_true, decide_eq_true_eq]
  constructor
  · rintro ⟨t, ⟨ht, hnewline⟩, hname⟩
    exact ⟨t, ht, hname, hnewline⟩
  · rintro ⟨t, ht, hname, hnewline⟩
    exact ⟨t, ⟨ht, hnewline⟩, hname⟩

/-- All names of a scanner are names of some terminals, and newlines are counted where they say
so. -/
structure Named (sc : Scanner) (terminals : List Terminal) : Prop where
  branch : ∀ b ∈ sc.branches, ∃ t ∈ terminals, t.name = b.1
  keyword : ∀ k ∈ sc.keywords, ∀ b ∈ k.2, ∃ t ∈ terminals, t.name = b.1
  multiline : ∀ name, sc.multiline.contains name = countsNewlines terminals name

theorem map_snd_ranked {terminals : List Terminal} {ranked : List (Rank × Terminal)}
    (h : terminals.mapM (fun t => return (← t.rank, t)) = (.ok ranked : Except Failure _)) :
    ranked.map (·.2) = terminals := by
  have hall := Outcome.mapM_ok h
  clear h
  induction hall with
  | nil => rfl
  | cons hrank _ ih =>
    obtain ⟨rank, -, hpair⟩ := Outcome.bind_ok hrank
    cases hpair
    rw [List.map_cons, ih]

theorem mem_place (t u : Rank × Terminal) (l : List (Rank × Terminal)) :
    u ∈ place t l ↔ u = t ∨ u ∈ l := by
  induction l with
  | nil => simp [place]
  | cons v rest ih =>
      unfold place
      split
      · rw [List.mem_cons]
      · rw [List.mem_cons, ih, List.mem_cons]
        exact or_left_comm

theorem mem_foldr_place (u : Rank × Terminal) (l : List (Rank × Terminal)) :
    u ∈ l.foldr place [] ↔ u ∈ l := by
  induction l with
  | nil => rfl
  | cons t rest ih => rw [List.foldr_cons, mem_place, ih, List.mem_cons]

theorem mem_inOrder {terminals ordered : List Terminal} (h : inOrder terminals = .ok ordered)
    (t : Terminal) : t ∈ ordered ↔ t ∈ terminals := by
  obtain ⟨ranked, hranked, h⟩ := Outcome.bind_ok h
  cases h
  rw [← map_snd_ranked hranked]
  simp only [List.mem_map, mem_foldr_place]

theorem mem_joined {flags : Flags} {terminals : List Terminal} {branches : List Branch}
    (h : joined flags terminals = .ok branches) {b : Branch} (hb : b ∈ branches) :
    ∃ t ∈ terminals, t.name = b.1 := by
  unfold joined at h
  split at h
  · cases h
    cases hb
  · dsimp only at h
    split at h
    · cases h
      exact List.mem_map.mp (List.of_mem_zip hb).1
    · cases h

/-- A scanner gives no other names than those of its terminals. -/
theorem named_ofTerminals {flags : Flags} {terminals : List Terminal} {sc : Scanner}
    (h : ofTerminals flags terminals = .ok sc) : sc.Named terminals := by
  obtain ⟨ordered, hordered, h⟩ := Outcome.bind_ok h
  obtain ⟨keywords, hkeywords, h⟩ := Outcome.bind_ok h
  obtain ⟨branches, hbranches, h⟩ := Outcome.bind_ok h
  cases h
  have hmem := mem_inOrder hordered
  refine ⟨?_, ?_, ?_⟩
  · intro b hb
    obtain ⟨t, ht, hname⟩ := mem_joined hbranches hb
    exact ⟨t, (hmem t).mp (List.mem_filter.mp ht).1, hname⟩
  · intro k hk b hb
    obtain ⟨i, hlt, rfl⟩ := List.mem_iff_getElem.mp hk
    have hi : i < keywords.length := hlt
    obtain ⟨hlength, hget⟩ := List.forall₂_iff_get.mp (Outcome.mapM_ok hkeywords)
    have hfound := hget i (by omega) hi
    obtain ⟨joinedBranches, hjoined, hpair⟩ := Outcome.bind_ok hfound
    have hbranch : b ∈ joinedBranches := by
      rw [← show (_, joinedBranches) = keywords[i] from Except.ok.inj hpair] at hb
      exact hb
    -- The keywords of a terminal are chosen from the terminals themselves.
    obtain ⟨t, ht, hname⟩ := mem_joined hjoined hbranch
    have hpart := List.get_mem ((ordered.map fun t => (t, keywordsOf flags ordered t)).filter
      fun x => !x.2.isEmpty) ⟨i, by omega⟩
    obtain ⟨u, -, hu⟩ := List.mem_map.mp (List.mem_filter.mp hpart).1
    rw [← hu] at ht
    dsimp only at ht
    unfold keywordsOf at ht
    split at ht
    · cases ht
    · exact ⟨t, (hmem t).mp (List.mem_filter.mp ht).1, hname⟩
  · intro name
    rw [contains_multiline, countsNewlines, countsNewlines, Bool.eq_iff_iff]
    simp only [List.any_eq_true]
    constructor
    · rintro ⟨t, ht, hname⟩
      exact ⟨t, (hmem t).mp ht, hname⟩
    · rintro ⟨t, ht, hname⟩
      exact ⟨t, (hmem t).mpr ht, hname⟩

/-- A keyword is a terminal too. -/
theorem Named.renamed {sc : Scanner} {terminals : List Terminal} (h : sc.Named terminals)
    {name : String} (hname : ∃ t ∈ terminals, t.name = name) (text : List Char) :
    ∃ t ∈ terminals, t.name = sc.renamed name text := by
  unfold Scanner.renamed
  split
  · exact hname
  · rename_i branches hlookup
    obtain ⟨before, behind, hkeywords, -⟩ := List.lookup_eq_some_iff.mp hlookup
    split
    · rename_i keyword e hfind
      refine h.keyword (name, branches) (by simp [hkeywords]) _ (List.mem_of_find?_eq_some hfind)
    · exact hname

/-! ## One finding -/

theorem firstMatch_spec {s t : Cursor} {name : String} {branches : List Branch}
    (h : firstMatch s branches = some (name, t)) : ∃ e, (name, e) ∈ branches ∧ e.matchAt s = some t := by
  induction branches with
  | nil => cases h
  | cons b rest ih =>
    obtain ⟨n, e⟩ := b
    unfold firstMatch at h
    split at h
    · rename_i u hmatch
      cases h
      exact ⟨e, List.mem_cons_self, hmatch⟩
    · obtain ⟨e', he', hmatch⟩ := ih h
      exact ⟨e', List.mem_cons_of_mem _ he', hmatch⟩

/-- The line and the column behind a text; newlines are counted only when asked for. -/
def placeBehind (counted : Bool) (line column : Nat) (text : List Char) : Nat × Nat :=
  if counted && Text.newlines text ≠ 0 then
    (line + Text.newlines text, (Text.afterLastNewline text).length + 1)
  else (line, column + text.length)

/-- A finding at a position, with the position behind it. -/
structure Found (sc : Scanner) (p : Position) (f : Finding) (q : Position) : Prop where
  finder : ∃ e, (f.finder, e) ∈ sc.branches ∧
    ∃ s, e.matchAt p.cursor = some s ∧ s.after = q.cursor.after
  after : p.cursor.after = f.lexeme.text.toList ++ q.cursor.after
  before : q.cursor.before = f.lexeme.text.toList.reverse ++ p.cursor.before
  passed : q.cursor.passed = p.cursor.passed + f.lexeme.text.toList.length
  captures : q.cursor.captures = []
  place : (q.line, q.column) =
    placeBehind (sc.multiline.contains f.finder) p.line p.column f.lexeme.text.toList
  lexeme : f.lexeme =
    { terminal := sc.renamed f.finder f.lexeme.text.toList, text := f.lexeme.text
      start := some p.cursor.passed, stop := some q.cursor.passed, line := some p.line
      column := some p.column, endLine := some q.line, endColumn := some q.column }

theorem found_of_findingAt {sc : Scanner} {p q : Position} {f : Finding}
    (h : sc.findingAt p = some (f, q)) : sc.Found p f q := by
  unfold findingAt at h
  obtain ⟨⟨name, s⟩, hmatch, h⟩ := Option.map_eq_some_iff.mp h
  obtain ⟨e, hbranch, hmatch⟩ := firstMatch_spec hmatch
  obtain ⟨hafter, hbefore, hpassed⟩ := (Expr.matchAt_onward hmatch).since_eq
  dsimp only at h
  cases h
  have hcursor : (p.behind (sc.multiline.contains name) (s.since p.cursor) s).cursor =
      { s with captures := [] } := by
    unfold Position.behind
    dsimp only
    split <;> rfl
  constructor
  · exact ⟨e, hbranch, s, hmatch, by rw [hcursor]⟩
  · rw [hcursor, String.toList_ofList]
    exact hafter
  · rw [hcursor, String.toList_ofList]
    exact hbefore
  · rw [hcursor, String.toList_ofList]
    exact hpassed
  · rw [hcursor]
  · rw [String.toList_ofList]
    unfold Position.behind placeBehind
    dsimp only
    split <;> rfl
  · rw [String.toList_ofList]

/-- The name of a lexeme is that of a terminal. -/
theorem Found.named {sc : Scanner} {p q : Position} {f : Finding} (h : sc.Found p f q)
    {terminals : List Terminal} (hsc : sc.Named terminals) :
    ∃ t ∈ terminals, t.name = f.lexeme.terminal := by
  obtain ⟨e, he, -⟩ := h.finder
  rw [congrArg Lexeme.terminal h.lexeme]
  exact hsc.renamed (hsc.branch _ he) _

/-- A finding of no character leaves the position as it is. -/
theorem Found.eq_of_empty {sc : Scanner} {p q : Position} {f : Finding} (h : sc.Found p f q)
    (hp : p.cursor.captures = []) (hempty : f.lexeme.text = "") : q = p := by
  obtain ⟨-, hafter, hbefore, hpassed, hcaptures, hplace, -⟩ := h
  rw [hempty] at hafter hbefore hpassed hplace
  obtain ⟨⟨before, after, passed, captures⟩, line, column⟩ := p
  obtain ⟨⟨before', after', passed', captures'⟩, line', column'⟩ := q
  simp [placeBehind, Text.newlines] at hafter hbefore hpassed hcaptures hplace hp
  obtain ⟨rfl, rfl⟩ := hplace
  subst hafter hbefore hpassed hcaptures hp
  rfl

/-! ## Whole scans -/

/-- Findings one behind the other, from a position to the end of the text; none of them is empty. -/
inductive Scans (sc : Scanner) : Position → List Finding → Position → Prop
  | done {p : Position} : p.cursor.after = [] → Scans sc p [] p
  | found {p q r : Position} {f : Finding} {fs : List Finding} :
      sc.Found p f q → f.lexeme.text ≠ "" → Scans sc q fs r → Scans sc p (f :: fs) r

/-- A scanning that stays in its place before the end of the text ends with a failure. -/
theorem endless_of_stay {sc : Scanner} {p : Position} {f : Finding}
    (h : sc.findingAt p = some (f, p)) (hafter : p.cursor.after ≠ []) (text : List Char)
    (rounds : Nat) (last : Option Lexeme) : .error endless ∈ sc.findFrom text rounds p last := by
  induction rounds generalizing last with
  | zero => simp [findFrom, hafter]
  | succ rounds ih =>
    unfold findFrom
    split
    · contradiction
    · simp only [h]
      exact List.mem_cons_of_mem _ (ih _)

theorem failure_ne_findings {e : Failure} {fs : List Finding} : [.error e] ≠ fs.map Except.ok := by
  intro h
  obtain ⟨f, _, -, hf, -⟩ := List.map_eq_cons_iff.mp h.symm
  cases hf

/-- A scanning without a failure comes to the end of the text. -/
theorem scans_of_findFrom {sc : Scanner} {text : List Char} {fs : List Finding} {rounds : Nat}
    {p : Position} {last : Option Lexeme} (h : sc.findFrom text rounds p last = fs.map .ok)
    (hp : p.cursor.captures = []) : ∃ q, sc.Scans p fs q := by
  induction rounds generalizing p last fs with
  | zero =>
    unfold findFrom at h
    split at h
    · rename_i hempty
      rw [List.map_eq_nil_iff.mp h.symm]
      exact ⟨p, Scans.done (List.isEmpty_iff.mp hempty)⟩
    · exact absurd h failure_ne_findings
  | succ rounds ih =>
    have hrun := h
    unfold findFrom at h
    split at h
    · rename_i hempty
      rw [List.map_eq_nil_iff.mp h.symm]
      exact ⟨p, Scans.done hempty⟩
    · rename_i c rest hafter
      split at h
      · exact absurd h failure_ne_findings
      · rename_i f q hfinding
        obtain ⟨f', fs', rfl, hhead, htail⟩ := List.map_eq_cons_iff.mp h.symm
        cases hhead
        have hfound := found_of_findingAt hfinding
        by_cases hempty : f.lexeme.text = ""
        · -- The same finding again would end in a failure, and there is none.
          have hq := hfound.eq_of_empty hp hempty
          rw [hq] at hfinding
          have hendless := endless_of_stay hfinding (by simp [hafter]) text (rounds + 1) last
          rw [hrun] at hendless
          simp at hendless
        · obtain ⟨r, hscans⟩ := ih htail.symm hfound.captures
          exact ⟨r, Scans.found hfound hempty hscans⟩

end Scanner

namespace Language

open Scanner

/-- The findings of a language in a text, when none of them is a failure. -/
theorem scans_of_findings {l : Language} {text : String} {fs : List Finding}
    (h : l.findings text = fs.map .ok) :
    ∃ (sc : Scanner) (q : Position),
      sc.Named l.terminals ∧ sc.Scans { cursor := .ofText text.toList } fs q := by
  unfold findings at h
  split at h
  · rename_i hempty
    -- No scanner is made for the empty text; one without branches finds as little in it.
    refine ⟨⟨[], [], [],
        (l.terminals.filter fun t => mayHoldNewline t.pattern.regexp).map (·.name)⟩,
      { cursor := .ofText text.toList }, ⟨?_, ?_, contains_multiline _⟩, ?_⟩
    · intro b hb
      cases hb
    · intro k hk
      cases hk
    · rw [show fs = [] by simpa using h.symm, hempty]
      exact Scans.done rfl
  · split at h
    · exact absurd h failure_ne_findings
    · split at h
      · rename_i sc hsc
        obtain ⟨q, hscans⟩ := scans_of_findFrom h rfl
        exact ⟨sc, q, named_ofTerminals hsc, hscans⟩
      · exact absurd h failure_ne_findings

end Language

end GrammarBench.Grammar
