import GrammarBench.Grammar.Machine
import GrammarBench.Proofs.Outcome

/-!
# Tables that read what they should

A table reads no more than its productions make, if whatever path leads to a state in which it reduces ends
with the symbols of the production. That is a matter of finitely many edges, so it can be computed for a
table; the paths themselves are as long as they like.

* `Makes`: the lexemes and trees that productions make of symbols.
* `Automaton.Sound`: the condition on a table.
* `Stack.Along`: a stack that has been made along the edges of a table.
* `Along.feed_taken`, `Along.feed_finished`: feeding keeps to the edges, and what is read is made of the
  start rule.
-/

namespace GrammarBench.Grammar

/-! ## Derivations -/

/-- What productions make of symbols: a lexeme of a terminal, and for a rule what one of its productions makes
of its own symbols. -/
inductive Makes (ps : List Production) : List Symbol → List Lexeme → List Tree → Prop
  | nil : Makes ps [] [] []
  | lexeme {ss : List Symbol} {xs : List Lexeme} {ts : List Tree} (x : Lexeme) :
      Makes ps ss xs ts → Makes ps (.terminal x.terminal :: ss) (x :: xs) (.lexeme x :: ts)
  | rule {p : Production} {ss : List Symbol} {xs ys : List Lexeme} {us ts : List Tree} :
      p ∈ ps → Makes ps p.symbols xs us → Makes ps ss ys ts →
      Makes ps (.rule p.origin :: ss) (xs ++ ys) (p.tree us :: ts)

variable {ps : List Production} {ss ss' : List Symbol} {xs ys : List Lexeme} {ts us : List Tree}

theorem Makes.append (h : Makes ps ss xs ts) (h' : Makes ps ss' ys us) :
    Makes ps (ss ++ ss') (xs ++ ys) (ts ++ us) := by
  induction h with
  | nil => exact h'
  | lexeme x _ ih => exact .lexeme x ih
  | rule hp hmade _ _ ih =>
      rw [List.append_assoc]
      exact .rule hp hmade ih

theorem Makes.length_eq (h : Makes ps ss xs ts) : ts.length = ss.length := by
  induction h with
  | nil => rfl
  | lexeme x _ ih => simp [ih]
  | rule _ _ _ _ ih => simp [ih]

/-! ## Tables -/

namespace Automaton

/-- A way from one state to another under the name of a symbol. -/
structure Link where
  source : Nat
  name : String
  target : Nat
  deriving DecidableEq

variable (a : Automaton)

/-- Every way that the table has. -/
def links : List Link :=
  a.rows.toList.zipIdx.flatMap fun (row, m) => row.filterMap fun (name, action) =>
    match action with
    | .shift n => some ⟨m, name, n⟩
    | .reduce _ => none

/-- The states from which a way leads to a state. -/
def sources (n : Nat) : List Nat := (a.links.filter (·.target = n)).map (·.source)

/-- Every way to any of some states has the last of some names, every way to the states before them the one
before it, and so on; the names stand latest first, and there are ways to all those states but the
given one. -/
def endsWith (start : Nat) : List String → List Nat → Bool
  | [], _ => true
  | name :: names, states =>
    states.all (fun n => n ≠ start && (a.links.filter (·.target = n)).all (·.name = name)) &&
      endsWith start names (states.flatMap a.sources)

def isRule (name : String) : Bool := a.productions.toList.any (·.origin = name)

/-- A table in which every path to a reduction ends with the symbols of the production, and every path to the
last state of a start rule is a single step. -/
structure Sound (start goal : Nat) (rule : String) : Prop where
  entered : ∀ e ∈ a.links, e.target ≠ start
  reduced : ∀ r ∈ a.rows.toList.zipIdx, ∀ e ∈ r.1, ∀ production, e.2 = .reduce production →
    production < a.productions.size ∧
      a.endsWith start ((a.productions.getD production default).symbols.map Symbol.name).reverse [r.2]
  final : ∀ e ∈ a.links, e.target = goal → e.source = start ∧ e.name = rule
  kinds : ∀ p ∈ a.productions.toList, ∀ s ∈ p.symbols, s.isTerminal = !a.isRule s.name
  known : a.isRule rule = true

/-- The condition of a sound table, computed. -/
def isSound (start goal : Nat) (rule : String) : Bool :=
  a.links.all (·.target ≠ start) &&
  a.rows.toList.zipIdx.all (fun (row, n) => row.all fun (_, action) =>
    match action with
    | .shift _ => true
    | .reduce production => production < a.productions.size &&
        a.endsWith start ((a.productions.getD production default).symbols.map Symbol.name).reverse [n]) &&
  a.links.all (fun e => e.target ≠ goal || (e.source = start && e.name = rule)) &&
  a.productions.toList.all (fun p => p.symbols.all fun s => s.isTerminal = !a.isRule s.name) && a.isRule rule

variable {a} {start goal : Nat} {rule : String}

theorem sound_of_isSound (h : a.isSound start goal rule = true) : a.Sound start goal rule := by
  unfold isSound at h
  simp only [Bool.and_eq_true, List.all_eq_true, decide_eq_true_eq, Bool.or_eq_true] at h
  obtain ⟨⟨⟨⟨hentered, hreduced⟩, hfinal⟩, hkinds⟩, hknown⟩ := h
  refine ⟨hentered, fun r hr e he production hproduction => ?_, fun e he htarget => ?_, hkinds, hknown⟩
  · have hrow := hreduced r hr e he
    rw [hproduction] at hrow
    simpa using hrow
  · exact (hfinal e he).resolve_left fun hne => hne htarget

/-- A symbol of the kind that its name has in the table. -/
def Fits (a : Automaton) (s : Symbol) : Prop := s.isTerminal = !a.isRule s.name

theorem Fits.eq_of_name {s s' : Symbol} (h : a.Fits s) (h' : a.Fits s') (hname : s.name = s'.name) :
    s = s' := by
  unfold Fits at h h'
  rw [hname, ← h'] at h
  cases s <;> cases s' <;> simp_all [Symbol.isTerminal, Symbol.name]

/-- Symbols of fitting kinds are told by their names. -/
theorem prefix_of_names {l ss : List Symbol} (hl : ∀ s ∈ l, a.Fits s) (hss : ∀ s ∈ ss, a.Fits s)
    (h : l.map Symbol.name <+: ss.map Symbol.name) : l <+: ss := by
  induction l generalizing ss with
  | nil => exact List.nil_prefix
  | cons s l ih =>
      cases ss with
      | nil => simp at h
      | cons s' ss =>
          rw [List.map_cons, List.map_cons, List.cons_prefix_cons] at h
          rw [List.forall_mem_cons] at hl hss
          exact List.cons_prefix_cons.mpr ⟨hl.1.eq_of_name hss.1 h.1, ih hl.2 hss.2 h.2⟩

theorem isRule_of_mem {p : Production} (h : p ∈ a.productions.toList) : a.isRule p.origin = true :=
  List.any_eq_true.mpr ⟨p, h, by simp⟩

theorem mem_links {m n : Nat} {name : String} (h : (a.rows.getD m []).lookup name = some (.shift n)) :
    (⟨m, name, n⟩ : Link) ∈ a.links := by
  obtain ⟨before, behind, hrow, -⟩ := List.lookup_eq_some_iff.mp h
  have hm : m < a.rows.size := by
    by_contra hle
    rw [Array.getD_eq_getD_getElem?, Array.getElem?_eq_none (by omega)] at hrow
    simp at hrow
  refine List.mem_flatMap.mpr ⟨(a.rows[m], m), ?_, List.mem_filterMap.mpr ⟨(name, .shift n), ?_, rfl⟩⟩
  · rw [List.mem_zipIdx_iff_getElem?]
    simp [hm]
  · rw [Array.getD_eq_getD_getElem?, Array.getElem?_eq_getElem hm, Option.getD_some] at hrow
    rw [hrow]
    simp

end Automaton

/-! ## Stacks -/

namespace Stack

variable {a : Automaton} {start goal : Nat} {rule : String}

/-- States and trees that have been put on a stack one by one, along the ways of a table, with the symbols
passed and the lexemes read; all but the lexemes stand latest first. -/
inductive Along (a : Automaton) (start : Nat) :
    List Nat → List Tree → List Symbol → List Lexeme → Prop
  | bottom : Along a start [start] [] [] []
  | push {m n : Nat} {states : List Nat} {trees : List Tree} {ss : List Symbol} {xs ys : List Lexeme}
      {s : Symbol} {t : Tree} :
      Along a start (m :: states) trees ss xs → (⟨m, s.name, n⟩ : Automaton.Link) ∈ a.links → a.Fits s →
      Makes a.productions.toList [s] ys [t] → Along a start (n :: m :: states) (t :: trees) (s :: ss) (xs ++ ys)

namespace Along

variable {states : List Nat} {trees : List Tree} {n : Nat}

theorem ne_nil (h : Along a start states trees ss xs) : states ≠ [] := by
  cases h <;> simp

/-- A path that must end with some names does so. -/
theorem names_prefix {names : List String} {among : List Nat}
    (h : Along a start (n :: states) trees ss xs) (hn : n ∈ among)
    (hends : a.endsWith start names among = true) : names <+: ss.map Symbol.name := by
  induction names generalizing n states trees ss xs among with
  | nil => exact List.nil_prefix
  | cons name names ih =>
      unfold Automaton.endsWith at hends
      rw [Bool.and_eq_true, List.all_eq_true] at hends
      obtain ⟨hall, hrest⟩ := hends
      have hthis := hall n hn
      simp only [Bool.and_eq_true, decide_eq_true_eq, List.all_eq_true, List.mem_filter] at hthis
      cases h with
      | bottom => exact absurd rfl hthis.1
      | @push m n states trees ss xs ys s t hbelow hlink _ _ =>
          have hname : s.name = name := hthis.2 _ ⟨hlink, rfl⟩
          have hsource : m ∈ among.flatMap a.sources :=
            List.mem_flatMap.mpr ⟨n, hn, List.mem_map.mpr ⟨_, List.mem_filter.mpr ⟨hlink, by simp⟩, rfl⟩⟩
          rw [List.map_cons, hname]
          exact List.cons_prefix_cons.mpr ⟨rfl, ih hbelow hsource hrest⟩

/-- What lies above some depth is made of the symbols passed since. -/
theorem drop (h : Along a start states trees (ss ++ ss') xs) :
    ∃ ys zs, xs = ys ++ zs ∧ Along a start (states.drop ss.length) (trees.drop ss.length) ss' ys ∧
      Makes a.productions.toList ss.reverse zs (trees.take ss.length).reverse := by
  induction ss generalizing states trees xs with
  | nil => exact ⟨xs, [], (List.append_nil xs).symm, h, .nil⟩
  | cons s ss ih =>
      cases h with
      | @push m n states trees _ xs zs' _ t hbelow _ _ hmade =>
          obtain ⟨ys, zs, rfl, hdrop, htake⟩ := ih hbelow
          refine ⟨ys, zs ++ zs', List.append_assoc _ _ _, hdrop, ?_⟩
          rw [List.reverse_cons, List.length_cons, List.take_succ_cons, List.reverse_cons]
          exact htake.append hmade

/-- The symbols on the stack are of the kinds that their names have. -/
theorem fits (h : Along a start states trees ss xs) : ∀ s ∈ ss, a.Fits s := by
  induction h with
  | bottom => exact fun s hs => nomatch hs
  | push _ _ hs _ ih => exact List.forall_mem_cons.mpr ⟨hs, ih⟩

end Along

/-- A stack that has been made along the ways of a table, with the lexemes read. -/
def Reads (a : Automaton) (start : Nat) (s : Stack) (xs : List Lexeme) : Prop :=
  ∃ ss, Along a start s.states s.trees ss xs

/-- A production that the table reduces by is on the stack. -/
theorem Along.reduce_symbols (ha : a.Sound start goal rule) {states : List Nat} {trees : List Tree}
    {n production : Nat} {terminal : String} (h : Along a start (n :: states) trees ss xs)
    (haction : (a.rows.getD n []).lookup terminal = some (.reduce production)) :
    a.productions.getD production default ∈ a.productions.toList ∧
      ∃ ss', ss = (a.productions.getD production default).symbols.reverse ++ ss' := by
  obtain ⟨before, behind, hrow, -⟩ := List.lookup_eq_some_iff.mp haction
  have hn : n < a.rows.size := by
    by_contra hle
    rw [Array.getD_eq_getD_getElem?, Array.getElem?_eq_none (by omega)] at hrow
    simp at hrow
  have hmem : (a.rows.getD n [], n) ∈ a.rows.toList.zipIdx := by
    rw [List.mem_zipIdx_iff_getElem?]
    simp [Array.getD_eq_getD_getElem?, hn]
  obtain ⟨hproduction, hends⟩ := ha.reduced _ hmem (terminal, .reduce production)
    (by rw [hrow]; simp) production rfl
  generalize hp : a.productions.getD production default = p at hends
  have hpmem : p ∈ a.productions.toList := by
    rw [← hp, Array.getD_eq_getD_getElem?, Array.getElem?_eq_getElem hproduction, Option.getD_some]
    exact Array.getElem_mem_toList hproduction
  refine ⟨hpmem, ?_⟩
  have hprefix := h.names_prefix (List.mem_singleton_self n) hends
  rw [← List.map_reverse] at hprefix
  obtain ⟨ss', rfl⟩ := Automaton.prefix_of_names
    (fun s hs => ha.kinds p hpmem s (List.mem_reverse.mp hs)) h.fits hprefix
  exact ⟨ss', rfl⟩

/-- Reducing keeps to the ways of the table. -/
theorem Reads.reduce (ha : a.Sound start goal rule) {s s' : Stack} {n production : Nat}
    {states : List Nat} {terminal : String} (h : s.Reads a start xs) (hstates : s.states = n :: states)
    (haction : (a.rows.getD n []).lookup terminal = some (.reduce production))
    (hreduce : s.reduce a production = some s') : s'.Reads a start xs := by
  obtain ⟨ss, halong⟩ := h
  rw [hstates] at halong
  obtain ⟨hp, ss', rfl⟩ := halong.reduce_symbols ha haction
  generalize hproduction : a.productions.getD production default = p at hp halong
  obtain ⟨ys, zs, rfl, hdrop, htake⟩ := halong.drop
  have hlength : p.symbols.reverse.length = p.items.length := by
    rw [List.length_reverse]
    exact List.length_map _
  rw [hlength, ← hstates] at hdrop
  rw [hlength, List.reverse_reverse] at htake
  unfold Stack.reduce at hreduce
  rw [hproduction] at hreduce
  dsimp only at hreduce
  cases hbelow : s.states.drop p.items.length with
  | nil => exact absurd hbelow hdrop.ne_nil
  | cons m rest =>
      rw [hbelow] at hdrop hreduce
      split at hreduce
      · rename_i k hgoto
        cases hreduce
        refine ⟨.rule p.origin :: ss', .push hdrop (Automaton.mem_links hgoto) ?_ ?_⟩
        · unfold Automaton.Fits
          rw [show (Symbol.rule p.origin).name = p.origin from rfl, Automaton.isRule_of_mem hp]
          rfl
        · have hmade := Makes.rule hp htake .nil
          rwa [List.append_nil] at hmade
      · cases hreduce

/-- In the last state of a start rule, the stack holds its tree and nothing else. -/
theorem Reads.finish (ha : a.Sound start goal rule) {s : Stack} {t : Tree} (h : s.Reads a start xs)
    (hgoal : s.states.head? = some goal)
    (ht : (match s.trees with
      | t :: _ => Fed.finished t
      | [] => .endless) = .finished t) : Makes a.productions.toList [.rule rule] xs [t] := by
  obtain ⟨ss, halong⟩ := h
  obtain ⟨states, trees⟩ := s
  cases halong with
  | bottom => cases ht
  | @push m n states trees ss xs ys sym u hbelow hlink hfits hmade =>
      obtain rfl : n = goal := Option.some.inj hgoal
      obtain rfl : u = t := Fed.finished.inj ht
      obtain ⟨hstart, hname⟩ := ha.final _ hlink rfl
      cases hbelow with
      | bottom =>
          have hrule : a.Fits (.rule rule) := by
            unfold Automaton.Fits
            rw [show (Symbol.rule rule).name = rule from rfl, ha.known]
            rfl
          rw [← hfits.eq_of_name hrule hname]
          exact hmade
      | push _ hlink' _ _ => exact absurd hstart (ha.entered _ hlink')

/-- Shifting reads one more lexeme. -/
theorem Reads.shift {x : Lexeme} (hx : a.isRule x.terminal = false) {s : Stack} {n k : Nat} {states : List Nat}
    (h : s.Reads a start xs) (hstates : s.states = n :: states)
    (haction : (a.rows.getD n []).lookup x.terminal = some (.shift k)) :
    Reads a start ⟨k :: s.states, .lexeme x :: s.trees⟩ (xs ++ [x]) := by
  obtain ⟨ss, halong⟩ := h
  rw [hstates] at halong
  refine ⟨.terminal x.terminal :: ss, ?_⟩
  dsimp only
  rw [hstates]
  refine .push halong (Automaton.mem_links haction) ?_ (.lexeme x .nil)
  unfold Automaton.Fits
  rw [show (Symbol.terminal x.terminal).name = x.terminal from rfl, hx]
  rfl

/-- What feeding makes of a stack: one more lexeme is read, or the start rule has been made of all of
them. -/
theorem Reads.feed (ha : a.Sound start goal rule) {x : Lexeme} (hx : a.isRule x.terminal = false)
    {s : Stack} (h : s.Reads a start xs) (rounds : Nat) :
    (∀ s', s.feed a (some goal) x.terminal (.lexeme x) rounds = .taken s' → s'.Reads a start (xs ++ [x])) ∧
      ∀ t, s.feed a (some goal) x.terminal (.lexeme x) rounds = .finished t →
        Makes a.productions.toList [.rule rule] xs [t] := by
  induction rounds generalizing s with
  | zero => exact ⟨fun s' hs => (nomatch hs), fun t ht => (nomatch ht)⟩
  | succ rounds ih =>
      cases hstates : s.states with
      | nil =>
          obtain ⟨ss, halong⟩ := h
          exact absurd hstates halong.ne_nil
      | cons n states =>
          rw [Stack.feed]
          have hrow : s.row a = a.rows.getD n [] := by
            unfold Stack.row
            rw [hstates]
            rfl
          rw [hrow]
          cases haction : (a.rows.getD n []).lookup x.terminal with
          | none => exact ⟨fun s' hs => (nomatch hs), fun t ht => (nomatch ht)⟩
          | some action =>
              cases action with
              | shift k =>
                  refine ⟨fun s' hs => ?_, fun t ht => nomatch ht⟩
                  cases hs
                  exact h.shift hx hstates haction
              | reduce production =>
                  dsimp only
                  cases hreduce : s.reduce a production with
                  | none => exact ⟨fun s' hs => (nomatch hs), fun t ht => (nomatch ht)⟩
                  | some s₁ =>
                      have hreads := h.reduce ha hstates haction hreduce
                      dsimp only
                      split
                      · rename_i hgoal
                        rw [Bool.and_eq_true, decide_eq_true_eq, decide_eq_true_eq] at hgoal
                        refine ⟨fun s' hs => ?_, fun t ht => ?_⟩
                        · split at hs <;> cases hs
                        · exact hreads.finish ha hgoal.2 ht
                      · exact ih hreads

end Stack

end GrammarBench.Grammar
