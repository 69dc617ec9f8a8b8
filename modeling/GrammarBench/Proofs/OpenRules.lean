import GrammarBench.Proofs.DefinitionLines

/-!
# The lines of rules

A rule that is defined in the open stands on a line of its own. Where a line starts at an end of a line that
the grammar itself sees, and is read as a definition, it is the line of such a rule and is read under its name.

* `Source.eq_of_head`, `Source.open_of_line`: what is read off the head of an item.
* `Source.Inert`: the part of a line in front of an item.
* `Source.pairwise_row`: the lines of the rules that a text defines, each below the one before.
-/

namespace GrammarBench.Grammar.Source

variable {x y : Lexeme} {xs ys zs : List Lexeme} {before rest n : List Char} {o : Option Lexeme} {g : List Lexeme}
  {segments : List (List Lexeme × Option Lexeme)}

theorem pieces_cons (x : Lexeme) (xs : List Lexeme) : pieces (x :: xs) = x.text.toList ++ pieces xs :=
  List.flatMap_cons

theorem pieces_append (xs ys : List Lexeme) : pieces (xs ++ ys) = pieces xs ++ pieces ys := List.flatMap_append

theorem newlines_of_gaps {s : List Char} (h : ∀ c ∈ s, isGap c = true) : Text.newlines s = 0 := by
  rw [Text.newlines_eq_zero]
  intro hmem
  have hgap := h _ hmem
  revert hgap
  decide

/-- The newlines behind a newline count from the start of the next line. -/
theorem newlines_behind (w a b : List Char) :
    Text.newlines (w ++ (a ++ '\n' :: b)) = Text.newlines (w ++ a ++ ['\n']) + Text.newlines b := by
  rw [← Text.newlines_append]
  simp

/-! ## First characters of lexemes -/

/-- The terminals that a line may be read as a definition from, and those of a priority and a colon. -/
def openers : List String := ["RULE", "OP", "RULE_MODIFIERS", "_COLON", "_DOT", "_DOTDOT"]

theorem startersOf_subset : headChars.all (fun c => (startersOf c).all fun n =>
    openers.contains n || n = "WS" || n = "COMMENT") = true := by decide +kernel

/-- All lexemes but comments and blanks start with another character. -/
theorem Shape.head_not_mem (h : Shape x rest) (hx : x.terminal ∉ openers) (hblank : x.terminal ≠ "WS")
    (hcomment : x.terminal ≠ "COMMENT") : ∀ c ∈ x.text.toList.head?, c ∉ headChars := by
  intro c hc hmem
  have hstart := List.all_eq_true.mp (List.all_eq_true.mp startersOf_subset c hmem) _
    (h.first c hc (List.mem_cons_of_mem _ hmem))
  simp [hx, hblank, hcomment] at hstart

/-- Nothing in a definition can be made of lexemes of other terminals, whatever stands behind them. -/
theorem Shape.inert_append (h : Shape x rest) (hx : x.terminal ∉ openers) {s : List Char}
    (hs : x.terminal = "WS" → Inert s) : Inert (x.text.toList ++ s) := by
  by_cases hblank : x.terminal = "WS"
  · exact (inert_of_gaps (h.blank hblank)).append (hs hblank)
  · by_cases hcomment : x.terminal = "COMMENT"
    · obtain ⟨w, c, q, htext, hw, hc, -⟩ := h.guarded (Or.inl hcomment)
      have hmem : c ∉ headChars := by
        simp only [List.mem_cons, List.not_mem_nil, or_false] at hc
        rcases hc with rfl | rfl | rfl <;> decide
      rw [htext, List.append_assoc, List.cons_append]
      exact (inert_of_blank hw).append (inert_cons hmem _)
    · cases htext : x.text.toList with
      | nil => exact absurd htext h.ne
      | cons c t => exact inert_cons (h.head_not_mem hx hblank hcomment c (by rw [htext]; rfl)) _

theorem Shape.inert (h : Shape x rest) (hx : x.terminal ∉ openers) : Inert x.text.toList := by
  have happend := h.inert_append hx (s := []) fun _ => inert_of_gaps (by simp)
  rwa [List.append_nil] at happend

/-! ## Ignored lexemes -/

theorem isIgnored_iff : isIgnored x = true ↔ x.terminal = "WS" ∨ x.terminal = "COMMENT" ∨ x.terminal = "BACKSLASH" := by
  unfold isIgnored ignored
  rw [List.contains_iff_mem]
  simp

theorem not_mem_openers_of_ignored (h : isIgnored x = true) : x.terminal ∉ openers := by
  rcases isIgnored_iff.mp h with h | h | h <;> rw [h] <;> decide

/-- A name, or what follows a modifier, does not start as an ignored lexeme does. -/
theorem Shape.not_ignored (h : Shape x rest) {c : Char} (hc : c ∈ x.text.toList.head?)
    (hname : c = '_' ∨ isSmall c = true) : isIgnored x = false := by
  have hstarters : (startersOf c).all (["RULE", "TERMINAL"].contains ·) = true ∧ c ∈ '_' :: headChars := by
    rcases hname with rfl | hsmall
    · exact ⟨rfl, List.mem_cons_self⟩
    · have hgap : ¬ isGap c = true := by
        intro hgap
        rcases Bool.or_eq_true_iff.mp hgap with h | h <;> rw [of_decide_eq_true h] at hsmall <;>
          revert hsmall <;> decide
      refine ⟨?_, List.mem_cons_of_mem _ (mem_headChars_of_small hsmall)⟩
      rw [startersOf, if_neg hgap, if_pos hsmall]
      rfl
  have hstart := List.all_eq_true.mp hstarters.1 _ (h.first c hc hstarters.2)
  rw [Bool.eq_false_iff]
  intro hignored
  rcases isIgnored_iff.mp hignored with h | h | h <;> rw [h] at hstart <;> revert hstart <;> decide

/-- No colon stands next behind a name whose parameters come first. -/
theorem inert_of_brace (hl : Laid before xs) (hy : y.terminal = "_LBRACE")
    (hfirst : (xs.filter fun x => !isIgnored x).head? = some y) :
    Inert (pieces xs) ∧ (pieces xs).head? ≠ some '.' := by
  induction xs generalizing before with
  | nil => cases hfirst
  | cons z zs ih =>
      cases hl with
      | cons hshape _ _ hrest =>
          have hz : z.terminal ∉ openers := by
            cases hignored : isIgnored z with
            | true => exact not_mem_openers_of_ignored hignored
            | false =>
                rw [List.filter_cons_of_pos (by simp [hignored])] at hfirst
                obtain rfl := Option.some.inj hfirst
                rw [hy]
                decide
          rw [pieces_cons]
          refine ⟨hshape.inert_append hz fun hblank => ?_, ?_⟩
          · rw [List.filter_cons_of_neg (by simp [isIgnored_iff, hblank])] at hfirst
            exact (ih hrest hfirst).1
          · intro hdot
            have hhead : z.text.toList.head? = some '.' := by
              cases htext : z.text.toList with
              | nil => exact absurd htext hshape.ne
              | cons c t => rwa [htext] at hdot
            have hstart := hshape.first '.' hhead (by decide)
            exact hz ((show ∀ n ∈ startersOf '.', n ∈ openers by decide) _ hstart)

/-! ## The head of an item -/

/-- The lexemes that the items of a text are made of. -/
abbrev unignored (xs : List Lexeme) : List Lexeme := xs.filter fun x => !isIgnored x

theorem eq_cons_of_head? {g tail : List Lexeme} (hfilter : unignored xs = x :: g ++ tail) (hhead : xs.head? = some x) :
    ∃ zs, xs = x :: zs ∧ unignored zs = g ++ tail := by
  cases xs with
  | nil => cases hhead
  | cons z zs =>
      obtain rfl := Option.some.inj hhead
      refine ⟨zs, rfl, ?_⟩
      cases hignored : isIgnored z with
      | false =>
          rw [unignored, List.filter_cons_of_pos (by simp [hignored]), List.cons_append] at hfilter
          exact (List.cons.inj hfilter).2
      | true =>
          have hmem : z ∈ unignored (z :: zs) := by rw [hfilter]; simp
          have hkept := (List.mem_filter.mp hmem).2
          rw [hignored] at hkept
          cases hkept

/-- What follows a modifier follows it at once. -/
theorem next_of_modifiers {tail : List Lexeme} (hl : Laid before (y :: ys)) (hy : y.terminal = "RULE_MODIFIERS")
    (hfilter : unignored ys = x :: tail) : ys.head? = some x := by
  cases hl with
  | cons hshape _ _ hrest =>
      obtain ⟨-, c, hc, hname⟩ := hshape.modifiers hy
      cases hrest with
      | nil => cases hc
      | @cons _ z zs hz _ _ _ =>
          have hhead : c ∈ z.text.toList.head? := by
            cases htext : z.text.toList with
            | nil => exact absurd htext hz.ne
            | cons d t => rwa [pieces_cons, htext] at hc
          rw [unignored, List.filter_cons_of_pos (by simp [hz.not_ignored hhead hname])] at hfilter
          rw [(List.cons.inj hfilter).1]
          rfl

variable {mods params prio body tail : List Lexeme} {name colon nl : Lexeme}

/-- The name of a rule stands at once behind its modifiers. -/
theorem split_of_rule (hl : Laid before xs) (hr : IsRule g mods name params prio colon body nl)
    (hfilter : unignored xs = g ++ tail) (hhead : xs.head? = g.head?) :
    ∃ zs tail', xs = mods ++ name :: zs ∧ unignored zs = params ++ tail' := by
  rw [hr.whole] at hfilter hhead
  have hmods := hr.mods
  cases mods with
  | nil =>
      obtain ⟨zs, rfl, hzs⟩ := eq_cons_of_head? hfilter hhead
      exact ⟨zs, _, rfl, by rw [hzs, List.append_assoc]⟩
  | cons m mods =>
      obtain ⟨hm, rfl⟩ : m.terminal = "RULE_MODIFIERS" ∧ mods = [] := by simpa using hmods
      obtain ⟨zs, rfl, hzs⟩ := eq_cons_of_head? hfilter hhead
      have hnext := next_of_modifiers hl hm hzs
      obtain ⟨ws, rfl, hws⟩ := eq_cons_of_head? hzs hnext
      exact ⟨ws, _, rfl, by rw [hws, List.append_assoc]⟩

/-- A line that starts with a name is read under the name, if at all, and has no parameters then. -/
theorem eq_of_name (hl : Laid before (name :: zs)) (hname : name.terminal = "RULE") (hparams : Params params)
    (hfilter : unignored zs = params ++ tail) (h : ruleOfLine? (pieces (name :: zs)) = some n) :
    name.text.toList = n ∧ openRule name params = some name := by
  cases hl with
  | cons hshape _ _ hrest =>
      obtain ⟨hchars, hbehind⟩ := hshape.name hname
      rw [pieces_cons] at h
      obtain ⟨rfl, hsmall, hcolon⟩ := ruleOfLine?_name hchars hbehind hshape.ne h
      refine ⟨rfl, ?_⟩
      have hunderscore : name.text.startsWith "_" = false := by
        rw [Bool.eq_false_iff]
        intro hstarts
        have hprefix : ['_'] <+: name.text.toList := by simpa using hstarts
        obtain ⟨t, ht⟩ := hprefix
        rw [← ht] at hsmall
        cases hsmall
      cases params with
      | nil =>
          unfold openRule
          rw [hunderscore]
          rfl
      | cons p ps =>
          obtain ⟨hinert, hdot⟩ := inert_of_brace hrest (hparams.first p rfl) (by rw [← unignored, hfilter]; rfl)
          have hpriority : afterPriority (pieces zs) = pieces zs := by
            cases hzs : pieces zs with
            | nil => rfl
            | cons c t => exact afterPriority_of_ne (fun hc => hdot (by rw [hzs, hc]; rfl)) t
          rw [hpriority] at hcolon
          exact absurd (by decide) (hinert ':' hcolon)

/-- An item that is no rule of its own starts with a terminal of another kind. -/
theorem IsItem.rule_or_other (h : IsItem g o) :
    (∃ mods name params prio colon body nl, IsRule g mods name params prio colon body nl ∧
        o = openRule name params) ∨
      o = none ∧ ∃ x ∈ g.head?,
        x.terminal ∈ ["_OVERRIDE", "_EXTEND", "TERMINAL", "_IGNORE", "_IMPORT", "_DECLARE", "_NL"] := by
  have hchange {lead xs : List Lexeme} (hlead : lead.map (·.terminal) ∈ [[], ["_OVERRIDE"], ["_EXTEND"]])
      (hne : lead ≠ []) : ∃ x ∈ (lead ++ xs).head?,
        x.terminal ∈ ["_OVERRIDE", "_EXTEND", "TERMINAL", "_IGNORE", "_IMPORT", "_DECLARE", "_NL"] := by
    cases lead with
    | nil => exact absurd rfl hne
    | cons l lead =>
        refine ⟨l, rfl, ?_⟩
        simp only [List.map_cons, List.mem_cons, List.cons.injEq, List.not_mem_nil, or_false, reduceCtorEq,
          false_or] at hlead
        rcases hlead with h | h <;> simp [h.1]
  cases h with
  | @rule lead g mods params prio body name colon nl hlead hr =>
      by_cases hnil : lead = []
      · subst hnil
        exact Or.inl ⟨mods, name, params, prio, colon, body, nl, hr, if_pos rfl⟩
      · exact Or.inr ⟨if_neg hnil, hchange hlead hnil⟩
  | @term lead pre body colon nl hlead hpre =>
      refine Or.inr ⟨rfl, ?_⟩
      by_cases hnil : lead = []
      · subst hnil
        cases pre with
        | nil => simp at hpre
        | cons x pre =>
            refine ⟨x, rfl, ?_⟩
            simp only [List.map_cons, List.mem_cons, List.cons.injEq, List.not_mem_nil, or_false] at hpre
            rcases hpre with h | h <;> simp [h.1]
      · exact hchange hlead hnil
  | @other lead init nl hlead =>
      refine Or.inr ⟨rfl, ?_⟩
      cases lead with
      | nil => simp at hlead
      | cons l lead =>
          refine ⟨l, rfl, ?_⟩
          simp only [List.map_cons, List.mem_cons, List.cons.injEq, List.not_mem_nil, or_false] at hlead
          rcases hlead with h | h | h <;> simp [h.1]
  | @blank nl hnl => exact Or.inr ⟨rfl, nl, rfl, by simp [hnl]⟩

/-- Where an item starts, it is read under the name that it defines in the open, if at all. -/
theorem eq_of_head (hl : Laid before xs) (hg : IsItem g o) (hfilter : unignored xs = g ++ tail)
    (hhead : xs.head? = g.head?) (h : ruleOfLine? (pieces xs) = some n) : ∃ x ∈ o, x.text.toList = n := by
  rcases hg.rule_or_other with ⟨mods, name, params, prio, colon, body, nl, hr, rfl⟩ | ⟨-, x, hx, hterminal⟩
  · obtain ⟨zs, tail', rfl, hzs⟩ := split_of_rule hl hr hfilter hhead
    have hmods := hr.mods
    cases mods with
    | nil =>
        obtain ⟨hn, hopen⟩ := eq_of_name hl hr.name hr.params hzs h
        exact ⟨name, hopen, hn⟩
    | cons m mods =>
        obtain ⟨hm, rfl⟩ : m.terminal = "RULE_MODIFIERS" ∧ mods = [] := by simpa using hmods
        cases hl with
        | cons hshape _ _ hrest =>
            -- Behind two modifiers in a row no name is read.
            have hsingle : ruleOfLine? (pieces (name :: zs)) = some n := by
              have hmarks := (hshape.modifiers hm).1
              rw [List.cons_append, pieces_cons] at h
              simp only [List.mem_cons, List.not_mem_nil, or_false] at hmarks
              rcases hmarks with hmark | hmark | hmark | hmark <;> rw [hmark] at h
              · exact (ruleOfLine?_modifier (Or.inr rfl) h).2
              · cases (ruleOfLine?_modifier (Or.inr rfl) h).1
              · exact (ruleOfLine?_modifier (Or.inl rfl) h).2
              · cases (ruleOfLine?_modifier (Or.inl rfl) h).1
            obtain ⟨hn, hopen⟩ := eq_of_name hrest hr.name hr.params hzs hsingle
            exact ⟨name, hopen, hn⟩
  · cases hl with
    | nil => rw [← hhead] at hx; cases hx
    | @cons _ y ys hshape _ _ _ =>
        obtain rfl : y = x := by
          rw [← hhead] at hx
          exact Option.some.inj hx
        have hdead : y.terminal ∉ openers ∧ y.terminal ≠ "WS" := by
          simp only [List.mem_cons, List.not_mem_nil, or_false] at hterminal
          rcases hterminal with h | h | h | h | h | h | h <;> rw [h] <;> decide
        rw [pieces_cons, (hshape.inert_append hdead.1 fun heq => absurd heq hdead.2).ruleOfLine?_eq] at h
        cases h

/-- The name of a rule that is defined in the open stands on the line on which its item starts. -/
theorem name_on_line {x : Lexeme} (hl : Laid before xs) (hg : IsItem g (some x)) (hfilter : unignored xs = g ++ tail)
    (hhead : xs.head? = g.head?) : x.row = Text.newlines before := by
  rcases hg.rule_or_other with ⟨mods, name, params, prio, colon, body, nl, hr, hopen⟩ | ⟨hnone, -⟩
  · obtain ⟨zs, tail', rfl, -⟩ := split_of_rule hl hr hfilter hhead
    obtain rfl := eq_of_openRule hopen.symm
    have hmods := hr.mods
    cases mods with
    | nil =>
        cases hl with
        | cons _ hrow _ _ => exact hrow
    | cons m mods =>
        obtain ⟨hm, rfl⟩ : m.terminal = "RULE_MODIFIERS" ∧ mods = [] := by simpa using hmods
        cases hl with
        | cons hshape _ _ hrest =>
            cases hrest with
            | cons _ hrow _ _ =>
                have hnewlines : Text.newlines m.text.toList = 0 := by
                  rw [Text.newlines_eq_zero]
                  intro hmem
                  have hender := hshape.newline hmem
                  rw [hm] at hender
                  revert hender
                  decide
                rw [hrow, Text.newlines_append, hnewlines, Nat.add_zero]
  · cases hnone

/-- A line that starts with ignored lexemes in front of some items: if it is read as a definition, then the first
item defines a rule in the open, on this line and under this name. -/
theorem open_of_line (hl : Laid before xs) (hx : Items (unignored xs) segments)
    (h : ruleOfLine? (pieces xs) = some n) :
    ∃ x ∈ segments.filterMap (·.2), x.text.toList = n ∧ x.row = Text.newlines before := by
  induction xs generalizing before with
  | nil => cases h
  | cons y ys ih =>
      cases hignored : isIgnored y with
      | true =>
          cases hl with
          | cons hshape _ _ hrest =>
              rw [pieces_cons] at h
              obtain ⟨hgaps, hread⟩ := (hshape.inert (not_mem_openers_of_ignored hignored)).read h
              rw [unignored, List.filter_cons_of_neg (by simp [hignored])] at hx
              obtain ⟨x, hmem, htext, hrow⟩ := ih hrest hx hread
              exact ⟨x, hmem, htext, by rw [hrow, Text.newlines_append, newlines_of_gaps hgaps, Nat.add_zero]⟩
      | false =>
          have hwhole := hx.whole
          have hitems := hx.items
          cases segments with
          | nil =>
              rw [unignored, List.filter_cons_of_pos (by simp [hignored])] at hwhole
              cases hwhole
          | cons s segments =>
              obtain ⟨g, o⟩ := s
              have hg : IsItem g o := hitems (g, o) List.mem_cons_self
              rw [List.flatMap_cons] at hwhole
              have hhead : (y :: ys).head? = g.head? := by
                cases g with
                | nil => exact absurd rfl hg.ne_nil
                | cons z g =>
                    rw [unignored, List.filter_cons_of_pos (by simp [hignored]), List.cons_append] at hwhole
                    rw [(List.cons.inj hwhole).1]
                    rfl
              obtain ⟨x, hx, htext⟩ := eq_of_head hl hg hwhole hhead h
              obtain rfl : o = some x := hx
              exact ⟨x, by simp, htext, name_on_line hl hg hwhole hhead⟩

/-! ## Ends of items -/

theorem ne_newLine_of_inside {body : List Lexeme} (h : ∀ x ∈ body, .terminal x.terminal ∈ insideSymbols) :
    ∀ x ∈ body, x.terminal ≠ "_NL" := by
  intro x hx heq
  have hmem := h x hx
  rw [heq] at hmem
  revert hmem
  decide +kernel

theorem ne_newLine_of_names {xs : List Lexeme} {names : List (List String)} (h : xs.map (·.terminal) ∈ names)
    (hall : names.all (fun l => !l.contains "_NL") = true) : ∀ x ∈ xs, x.terminal ≠ "_NL" := by
  intro x hx heq
  have hnone := List.all_eq_true.mp hall _ h
  rw [Bool.not_eq_true', Bool.eq_false_iff] at hnone
  exact hnone (List.contains_iff_mem.mpr (heq ▸ List.mem_map_of_mem hx))

theorem Params.ne_newLine {params : List Lexeme} (h : Params params) : ∀ x ∈ params, x.terminal ≠ "_NL" := by
  intro x hx heq
  have hmem := h.among x hx
  rw [heq] at hmem
  revert hmem
  decide

/-- Items end with a new line, and have no other one; the name that they define stands in front of it. -/
theorem IsItem.ends (h : IsItem g o) : ∃ init nl, g = init ++ [nl] ∧ nl.terminal = "_NL" ∧
    (∀ x ∈ init, x.terminal ≠ "_NL") ∧ ∀ x ∈ o, x ∈ init := by
  cases h with
  | @rule lead g mods params prio body name colon nl hlead hr =>
      refine ⟨lead ++ (mods ++ name :: (params ++ (prio ++ colon :: body))), nl, by simp [hr.whole], hr.nl, ?_, ?_⟩
      · have hname : name.terminal ≠ "_NL" := by rw [hr.name]; decide
        have hcolon : colon.terminal ≠ "_NL" := by rw [hr.colon]; decide
        intro x hx
        simp only [List.mem_append, List.mem_cons] at hx
        rcases hx with hx | hx | rfl | hx | hx | rfl | hx
        · exact ne_newLine_of_names hlead (by decide) x hx
        · exact ne_newLine_of_names hr.mods (by decide) x hx
        · exact hname
        · exact hr.params.ne_newLine x hx
        · exact ne_newLine_of_names hr.prio (by decide) x hx
        · exact hcolon
        · exact ne_newLine_of_inside hr.body x hx
      · intro x hx
        split at hx
        · obtain rfl := eq_of_openRule hx
          simp
        · cases hx
  | @term lead pre body colon nl hlead hpre hcolon hbody hnl =>
      refine ⟨lead ++ (pre ++ colon :: body), nl, by simp, hnl, fun x hx => ?_, fun x hx => by cases hx⟩
      have hcolon' : colon.terminal ≠ "_NL" := by rw [hcolon]; decide
      simp only [List.mem_append, List.mem_cons] at hx
      rcases hx with hx | hx | rfl | hx
      · exact ne_newLine_of_names hlead (by decide) x hx
      · exact ne_newLine_of_names hpre (by decide) x hx
      · exact hcolon'
      · exact ne_newLine_of_inside hbody x hx
  | @other lead init nl hlead hinit hnl =>
      refine ⟨lead ++ init, nl, by simp, hnl, fun x hx => ?_, fun x hx => by cases hx⟩
      rcases List.mem_append.mp hx with hx | hx
      · exact ne_newLine_of_names hlead (by decide) x hx
      · exact ne_newLine_of_inside hinit x hx
  | @blank nl hnl => exact ⟨[], nl, rfl, hnl, by simp, fun x hx => by cases hx⟩

/-- Behind a new line, items start anew. -/
theorem Items.behind {a b : List Lexeme} (h : Items (a ++ y :: b) segments) (hy : y.terminal = "_NL") :
    ∃ s₁ s₂, segments = s₁ ++ s₂ ∧ Items b s₂ := by
  obtain ⟨hwhole, hitems⟩ := h
  induction segments generalizing a with
  | nil => simp at hwhole
  | cons s segments ih =>
      obtain ⟨g, o⟩ := s
      obtain ⟨hg, hrest⟩ := List.forall_mem_cons.mp hitems
      obtain ⟨init, nl, rfl, hnl, hinit, -⟩ := IsItem.ends hg
      rw [List.flatMap_cons, List.append_assoc] at hwhole
      -- The new line is the one that ends the first item, or stands behind it.
      rcases List.append_eq_append_iff.mp hwhole with ⟨c, rfl, hc⟩ | ⟨c, rfl, hc⟩
      · cases c with
        | nil =>
            obtain ⟨-, rfl⟩ := List.cons.inj hc
            exact ⟨[(a ++ [] ++ [nl], o)], segments, rfl, rfl, hrest⟩
        | cons z c =>
            obtain ⟨rfl, -⟩ := List.cons.inj hc
            exact absurd hy (hinit y (by simp))
      · cases c with
        | nil =>
            obtain ⟨-, rfl⟩ := List.cons.inj hc
            exact ⟨[(init ++ [nl], o)], segments, rfl, rfl, hrest⟩
        | cons z c =>
            obtain ⟨-, hc⟩ := List.cons.inj hc
            obtain ⟨s₁, s₂, rfl, hs₂⟩ := ih hc.symm hrest
            exact ⟨(init ++ [nl], o) :: s₁, s₂, rfl, hs₂⟩

/-! ## Lines that are read -/

/-- A line starts inside a regular expression, or is the continuation of the line before it. -/
def StartsInside (text : String) (row : Nat) : Prop :=
  ∃ x ∈ lexemes text, x.terminal ∈ ["REGEXP", "BACKSLASH"] ∧ x.row < row ∧ row ≤ x.lastRow

/-- A newline among the characters of lexemes is one of a lexeme. -/
theorem exists_lexeme_of_newline {p s : List Char} (h : pieces xs = p ++ '\n' :: s) :
    ∃ ys y zs a b, xs = ys ++ y :: zs ∧ y.text.toList = a ++ '\n' :: b ∧ p = pieces ys ++ a ∧
      s = b ++ pieces zs := by
  induction xs generalizing p with
  | nil => simp [pieces] at h
  | cons x xs ih =>
      rw [pieces_cons] at h
      rcases List.append_eq_append_iff.mp h with ⟨c, rfl, hc⟩ | ⟨c, htext, hc⟩
      · obtain ⟨ys, y, zs, a, b, rfl, htext, rfl, hs⟩ := ih hc
        exact ⟨x :: ys, y, zs, a, b, rfl, htext, by rw [pieces_cons, List.append_assoc], hs⟩
      · cases c with
        | nil =>
            obtain ⟨ys, y, zs, a, b, rfl, htext', ha, hs⟩ := ih (p := []) hc.symm
            refine ⟨x :: ys, y, zs, a, b, rfl, htext', ?_, hs⟩
            rw [List.append_nil] at htext
            rw [pieces_cons, List.append_assoc, ← ha, List.append_nil, htext]
        | cons c t =>
            obtain ⟨rfl, hs⟩ := List.cons.inj hc
            exact ⟨[], x, xs, p, t, rfl, htext, rfl, hs⟩

/-- Behind the last newline of a comment, or of a new line with a bar, something of it is left. -/
theorem Shape.inert_behind (h : Shape x rest) (hx : x.terminal = "COMMENT" ∨ x.terminal = "_NL_OR")
    {a b : List Char} (htext : x.text.toList = a ++ '\n' :: b) (r : List Char) : Inert (b ++ r) := by
  obtain ⟨w, c, q, htext', hw, hc, hq⟩ := h.guarded hx
  have hguard : c ∉ headChars ∧ c ≠ '\n' := by
    simp only [List.mem_cons, List.not_mem_nil, or_false] at hc
    rcases hc with rfl | rfl | rfl <;> decide
  rw [htext'] at htext
  rcases List.append_eq_append_iff.mp htext with ⟨d, rfl, hd⟩ | ⟨d, rfl, hd⟩
  · cases d with
    | nil => exact absurd (List.cons.inj hd).1 hguard.2
    | cons e d =>
        obtain ⟨-, rfl⟩ := List.cons.inj hd
        exact absurd (by simp) hq
  · cases d with
    | nil => exact absurd (List.cons.inj hd).1.symm hguard.2
    | cons e d =>
        obtain ⟨-, rfl⟩ := List.cons.inj hd
        show Inert (d ++ c :: q ++ r)
        rw [List.append_assoc, List.cons_append]
        exact (inert_of_blank fun f hf => hw f (by simp [hf])).append (inert_cons hguard.1 _)

/-- The line behind a newline inside of a lexeme starts inside of the lexeme. -/
theorem startsInside_of_newline {text : String} {a b : List Char} (hy : y ∈ lexemes text)
    (hterminal : y.terminal ∈ ["REGEXP", "BACKSLASH"]) (hrow : y.row = Text.newlines before)
    (hlast : y.lastRow = Text.newlines (before ++ y.text.toList)) (htext : y.text.toList = a ++ '\n' :: b) :
    StartsInside text (Text.newlines (before ++ a ++ ['\n'])) := by
  refine ⟨y, hy, hterminal, ?_, ?_⟩
  · rw [hrow, Text.newlines_append, Text.newlines_append]
    exact Nat.lt_succ_of_le (Nat.le_add_right _ _)
  · rw [hlast, htext, newlines_behind]
    exact Nat.le_add_right _ _

/-- The line behind a newline at an end of a line that the grammar sees: if it is read as a definition, the next
item defines a rule in the open there. -/
theorem open_behind_newLine {a b : List Char} (hshape : Shape y (pieces zs)) (hy : y.terminal = "_NL")
    (htext : y.text.toList = a ++ '\n' :: b) (hl : Laid (before ++ y.text.toList) zs)
    (hitems : Items (unignored zs) segments) (h : ruleOfLine? (b ++ pieces zs) = some n) :
    ∃ x ∈ segments.filterMap (·.2), x.row = Text.newlines (before ++ a ++ ['\n']) ∧ x.text.toList = n := by
  obtain ⟨-, hblank⟩ := hshape.lineEnd hy
  have hinert : Inert b := inert_of_blank fun c hc => hblank c (by rw [htext]; simp [hc])
  obtain ⟨hgaps, hread⟩ := hinert.read h
  obtain ⟨x, hx, hn, hrow⟩ := open_of_line hl hitems hread
  exact ⟨x, hx, by rw [hrow, htext, newlines_behind, newlines_of_gaps hgaps, Nat.add_zero], hn⟩

/-- A line that is read as a definition is the line of a rule that is defined in the open, and is read under
its name, or it does not start where the grammar sees the end of a line. -/
theorem open_or_inside {text : String} {row : Nat} (hwhole : pieces (lexemes text) = text.toList ++ ['\n'])
    (hl : Laid [] (lexemes text)) (hitems : Items (unignored (lexemes text)) segments)
    (h : ruleOnLine? text row = some n) :
    (∃ x ∈ segments.filterMap (·.2), x.row = row ∧ x.text.toList = n) ∨ StartsInside text row := by
  obtain ⟨before, behind, hsplit, hstarts, rfl, hread⟩ := exists_line h
  rw [← hwhole] at hsplit
  rcases hstarts with rfl | ⟨q, rfl⟩
  · rw [List.nil_append] at hsplit
    rw [← hsplit] at hread
    obtain ⟨x, hx, htext, hrow⟩ := open_of_line hl hitems hread
    exact Or.inl ⟨x, hx, hrow, htext⟩
  · rw [List.append_assoc] at hsplit
    obtain ⟨ys, y, zs, a, b, hxs, htext, rfl, rfl⟩ := exists_lexeme_of_newline hsplit
    have hy : y ∈ lexemes text := by rw [hxs]; simp
    have hdrop : Laid (pieces ys) (y :: zs) := by
      rw [hxs] at hl
      exact hl.drop
    cases hdrop with
    | cons hshape hrow hlast hrest =>
        have hender := hshape.newline (by rw [htext]; simp)
        simp only [lineEnders, List.mem_cons, List.not_mem_nil, or_false] at hender
        rcases hender with hterminal | hterminal | hterminal | hterminal | hterminal
        · exact Or.inr (startsInside_of_newline hy (by simp [hterminal]) hrow hlast htext)
        · rw [(hshape.inert_behind (Or.inl hterminal) htext _).ruleOfLine?_eq] at hread
          cases hread
        · rw [(hshape.inert_behind (Or.inr hterminal) htext _).ruleOfLine?_eq] at hread
          cases hread
        · rw [hxs, unignored, List.filter_append,
            List.filter_cons_of_pos (by simp [isIgnored, ignored, hterminal])] at hitems
          obtain ⟨s₁, s₂, rfl, hs₂⟩ := hitems.behind hterminal
          obtain ⟨x, hx, hline, hn⟩ := open_behind_newLine hshape hterminal htext hrest hs₂ hread
          exact Or.inl ⟨x, by rw [List.filterMap_append]; exact List.mem_append_right _ hx, hline, hn⟩
        · exact Or.inr (startsInside_of_newline hy (by simp [hterminal]) hrow hlast htext)

/-! ## The part of a line in front of an item -/

theorem mem_of_mem_afterLastNewline {s : List Char} {c : Char} (h : c ∈ Text.afterLastNewline s) : c ∈ s :=
  List.mem_reverse.mp ((List.takeWhile_sublist _).mem (List.mem_reverse.mp h))

/-- In front of an item, its line has white space and ignored lexemes only. -/
theorem inert_afterLastNewline (hl : Laid before (xs ++ ys))
    (h : ∀ x ∈ (unignored xs).getLast?, x.terminal = "_NL") : Inert (Text.afterLastNewline (pieces xs)) := by
  induction xs using List.reverseRecOn generalizing ys with
  | nil => exact inert_of_gaps (by simp [pieces, Text.afterLastNewline])
  | append_singleton xs x ih =>
      rw [List.append_assoc] at hl
      have hdrop := hl.drop
      cases hdrop with
      | cons hshape _ _ _ =>
          rw [pieces_append, pieces_cons, show pieces [] = [] from rfl, List.append_nil]
          cases hignored : isIgnored x with
          | true =>
              have hunignored : unignored (xs ++ [x]) = unignored xs := by
                rw [unignored, List.filter_append, List.filter_cons_of_neg (by simp [hignored]), List.filter_nil,
                  List.append_nil]
              rw [hunignored] at h
              have hbefore := ih hl h
              by_cases hnewline : Text.newlines x.text.toList = 0
              · rw [Text.afterLastNewline_append hnewline]
                exact hbefore.append (hshape.inert (not_mem_openers_of_ignored hignored))
              · rw [Text.afterLastNewline_append_of_newline hnewline]
                rcases isIgnored_iff.mp hignored with hx | hx | hx
                · refine inert_of_gaps fun c hc => hshape.blank hx c (mem_of_mem_afterLastNewline hc)
                · obtain ⟨a, htext, hstarts, hnone⟩ := Text.exists_afterLastNewline x.text.toList
                  rcases hstarts with rfl | ⟨t, rfl⟩
                  · rw [List.nil_append] at htext
                    exact absurd (htext ▸ hnone) hnewline
                  · rw [List.append_assoc, List.singleton_append] at htext
                    have hbehind := hshape.inert_behind (Or.inl hx) htext []
                    rwa [List.append_nil] at hbehind
                · obtain ⟨w, htext⟩ := hshape.continued hx
                  rw [htext, Text.afterLastNewline_append_of_newline (by decide)]
                  exact inert_of_gaps (by simp [Text.afterLastNewline])
          | false =>
              have hx : x.terminal = "_NL" := by
                refine h x ?_
                rw [unignored, List.filter_append, List.filter_cons_of_pos (by simp [hignored]), List.filter_nil,
                  List.getLast?_concat]
                rfl
              obtain ⟨hnewline, hblank⟩ := hshape.lineEnd hx
              rw [Text.afterLastNewline_append_of_newline (by rw [Ne, Text.newlines_eq_zero]; simpa using hnewline)]
              exact inert_of_blank fun c hc => hblank c (mem_of_mem_afterLastNewline hc)

/-- Items end with a new line. -/
theorem last_of_items (h : ∀ s ∈ segments, IsItem s.1 s.2) :
    ∀ x ∈ (segments.flatMap (·.1)).getLast?, x.terminal = "_NL" := by
  intro x hx
  cases segments using List.reverseRecOn with
  | nil => cases hx
  | append_singleton segments s =>
      obtain ⟨init, nl, hinit, hnl, -⟩ := IsItem.ends (h s (by simp))
      rw [List.flatMap_append, List.flatMap_cons, List.flatMap_nil, List.append_nil, hinit, ← List.append_assoc,
        List.getLast?_concat] at hx
      rw [← Option.some.inj hx, hnl]

/-- The line of a rule that is defined in the open is read under its name, if at all. -/
theorem eq_of_open {text : String} (hwhole : pieces (lexemes text) = text.toList ++ ['\n'])
    (hl : Laid [] (lexemes text)) (hitems : Items (unignored (lexemes text)) segments)
    (hx : x ∈ segments.filterMap (·.2)) (h : ruleOnLine? text x.row = some n) : x.text.toList = n := by
  obtain ⟨⟨g, _⟩, hmem, rfl⟩ := List.mem_filterMap.mp hx
  obtain ⟨s₁, s₂, rfl⟩ := List.append_of_mem hmem
  have hg : IsItem g (some x) := hitems.items _ hmem
  have hsplit := hitems.whole
  rw [List.flatMap_append, List.flatMap_cons] at hsplit
  obtain ⟨ys, zs, hxs, hys, hzs⟩ := List.filter_eq_append_iff.mp hsplit
  obtain ⟨z, g', rfl⟩ := List.exists_cons_of_ne_nil hg.ne_nil
  obtain ⟨skipped, zs', rfl, hskipped, hz, hzs'⟩ := List.filter_eq_cons_iff.mp hzs
  -- The item starts behind what is ignored in front of it.
  have hxs' : lexemes text = (ys ++ skipped) ++ z :: zs' := by rw [hxs, List.append_assoc]
  have hbefore : unignored (ys ++ skipped) = s₁.flatMap (·.1) := by
    rw [unignored, List.filter_append, hys, List.filter_eq_nil_iff.mpr hskipped, List.append_nil]
  have hfilter : unignored (z :: zs') = z :: g' ++ s₂.flatMap (·.1) :=
    (List.filter_cons_of_pos (p := fun x => !isIgnored x) hz).trans (congrArg (z :: ·) hzs')
  rw [hxs'] at hl hwhole
  have hinert : Inert (Text.afterLastNewline (pieces (ys ++ skipped))) := by
    refine inert_afterLastNewline hl fun y hy => ?_
    rw [hbefore] at hy
    exact last_of_items (fun s hs => hitems.items s (List.mem_append_left _ hs)) y hy
  have hrow := name_on_line hl.drop hg hfilter rfl
  obtain ⟨start, hstart, hstarts, hnone⟩ := Text.exists_afterLastNewline (pieces (ys ++ skipped))
  rw [pieces_append, hstart, List.append_assoc] at hwhole
  rw [hrow, List.nil_append, hstart, Text.newlines_append, hnone, Nat.add_zero,
    ruleOnLine?_eq hwhole.symm hstarts] at h
  obtain ⟨x', hx', htext⟩ := eq_of_head hl.drop hg hfilter rfl (hinert.read h).2
  obtain rfl := Option.some.inj hx'
  exact htext

/-! ## The order of the lines -/

theorem Laid.newlines_le_row (h : Laid before xs) : ∀ x ∈ xs, Text.newlines before ≤ x.row := by
  induction h with
  | nil => simp
  | cons _ hrow _ _ ih =>
      refine List.forall_mem_cons.mpr ⟨hrow.ge, fun x hx => ?_⟩
      have hle := ih x hx
      rw [Text.newlines_append] at hle
      exact Nat.le_trans (Nat.le_add_right _ _) hle

theorem Laid.pairwise (h : Laid before xs) : xs.Pairwise fun x y => x.lastRow ≤ y.row := by
  induction h with
  | nil => exact .nil
  | cons _ _ hlast hrest ih => exact List.pairwise_cons.mpr ⟨fun y hy => hlast ▸ hrest.newlines_le_row y hy, ih⟩

/-- A lexeme ends below its start exactly if it has a newline. -/
theorem Laid.row_le_lastRow (h : Laid before xs) :
    ∀ x ∈ xs, x.row ≤ x.lastRow ∧ (x.terminal = "_NL" → x.row < x.lastRow) := by
  induction h with
  | nil => simp
  | @cons before x xs hshape hrow hlast _ ih =>
      refine List.forall_mem_cons.mpr ⟨?_, ih⟩
      rw [hrow, hlast, Text.newlines_append]
      refine ⟨Nat.le_add_right _ _, fun hx => Nat.lt_add_of_pos_right (Nat.pos_of_ne_zero ?_)⟩
      rw [Ne, Text.newlines_eq_zero]
      simpa using (hshape.lineEnd hx).1

/-- The rules that are defined in the open stand on different lines, in their order. -/
theorem pairwise_row (hl : Laid before xs) (hitems : Items (unignored xs) segments) :
    (segments.filterMap (·.2)).Pairwise fun x y => x.row < y.row := by
  have hmono : (unignored xs).Pairwise fun x y => x.lastRow ≤ y.row := hl.pairwise.filter _
  have hrows : ∀ x ∈ unignored xs, x.row ≤ x.lastRow ∧ (x.terminal = "_NL" → x.row < x.lastRow) :=
    fun x hx => hl.row_le_lastRow x (List.mem_filter.mp hx).1
  rw [hitems.whole] at hmono hrows
  obtain ⟨hwithin, hbetween⟩ := List.pairwise_flatMap.mp hmono
  rw [List.pairwise_filterMap]
  refine hbetween.imp_of_mem fun {s s'} hs hs' hlater x hx y hy => ?_
  obtain ⟨init, nl, hinit, hnl, -, hname⟩ := IsItem.ends (hitems.items s hs)
  obtain ⟨init', nl', hinit', -, -, hname'⟩ := IsItem.ends (hitems.items s' hs')
  have hxmem := hname x hx
  have hnlmem : nl ∈ s.1 := by rw [hinit]; simp
  have hpair := hwithin s hs
  rw [hinit, List.pairwise_append] at hpair
  have hxrow := (hrows x (List.mem_flatMap.mpr ⟨s, hs, by rw [hinit]; simp [hxmem]⟩)).1
  have hxnl := hpair.2.2 x hxmem nl (List.mem_singleton_self nl)
  have hnlrow := (hrows nl (List.mem_flatMap.mpr ⟨s, hs, hnlmem⟩)).2 hnl
  have hnly := hlater nl hnlmem y (by rw [hinit']; simp [hname' y hy])
  omega

end GrammarBench.Grammar.Source
