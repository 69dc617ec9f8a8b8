import Mathlib.Data.List.Nodup
import GrammarBench.Proofs.GrammarClasses
import GrammarBench.Proofs.OpenRules

/-!
# The rules found in a grammar text

The rules of a grammar text are found line by line, by a form that lines have. For a text whose book can be
made this finds rules that the text defines in the open, in their order, each once, as long as no line inside
a regular expression and no continued line has that form; and it finds all of them exactly if each stands on
a line of its own in that form.

* `DefinesOn`, `Quiet`: lines in the plain form of a definition, and texts in which no other lines have it.
* `Book.Enters`: what a statement does to the names of a book.
* `ruleNames_eq_filter`: the names that are found.
* `ruleNames_sublist_iff`: they are all names exactly if each is plain.
-/

namespace GrammarBench.Grammar

/-! ## The names of a book -/

namespace Book

variable {b b' : Book} {keepAll : Bool} {s : Statement} {n : String}

theorem has_insert {name : String} {d : Definition} (h : b'.definitions = Ordered.insert name d b.definitions)
    (n : String) : b'.has n = (decide (n = name) || b.has n) := by
  unfold has find?
  rw [h]
  by_cases hn : n = name
  · rw [hn, Ordered.find?_insert_self, decide_eq_true rfl, Bool.true_or]
    rfl
  · rw [Ordered.find?_insert_ne hn, decide_eq_false hn, Bool.false_or]

theorem define_ok {override : Bool} {name : String} {d : Definition} (h : b.define override name d = .ok b') :
    (override = false → b.has name = false) ∧
      b' = { b with definitions := Ordered.insert name d b.definitions } := by
  unfold define at h
  dsimp only at h
  split at h
  · cases h
  · rename_i hnew
    split at h
    · cases h
    · split at h
      · cases h
      · cases h
        exact ⟨fun hoverride => by simpa [hoverride] using hnew, rfl⟩

theorem extend_ok {name : String} {d : Definition} (h : b.extend name d = .ok b') :
    ∃ d', b' = { b with definitions := Ordered.insert name d' b.definitions } := by
  unfold extend at h
  dsimp only at h
  split at h
  · cases h
  · split at h
    · cases h
    · split at h
      · cases h
      · split at h
        · cases h
          exact ⟨_, rfl⟩
        · cases h

theorem ignore_eq (b : Book) (body : Phrase) :
    (b.ignore body).definitions = b.definitions ∨
      ∃ name d, (b.ignore body).definitions = Ordered.insert name d b.definitions := by
  unfold ignore
  split
  · exact Or.inl rfl
  · exact Or.inr ⟨_, _, rfl⟩

/-- What a statement does to the names of a book: it keeps them all, and what it defines is new. -/
structure Enters (b : Book) (s : Statement) (b' : Book) : Prop where
  kept : ∀ n, b.has n = true → b'.has n = true
  new : ∀ c, s = .define c → b.has c.name = false ∧ b'.has c.name = true

theorem enters_of_insert {name : String} {d : Definition} (h : b'.definitions = Ordered.insert name d b.definitions)
    (hs : ∀ c, s ≠ .define c) : Enters b s b' :=
  ⟨fun n hn => by rw [has_insert h, hn, Bool.or_true], fun c hc => absurd hc (hs c)⟩

theorem enters_of_perform (h : perform keepAll none b s = .ok b') : Enters b s b' := by
  cases s with
  | define c =>
      obtain ⟨hnew, rfl⟩ := define_ok h
      refine ⟨fun n hn => by rw [has_insert rfl, hn, Bool.or_true], ?_⟩
      intro c' hc'
      cases hc'
      exact ⟨hnew rfl, by rw [has_insert rfl]; simp [Renaming.apply]⟩
  | override c =>
      obtain ⟨-, rfl⟩ := define_ok h
      exact enters_of_insert rfl fun c hc => by cases hc
  | extend c =>
      obtain ⟨d, rfl⟩ := extend_ok h
      exact enters_of_insert rfl fun c hc => by cases hc
  | ignore body =>
      cases h
      rcases ignore_eq b body with heq | ⟨name, d, heq⟩
      · refine ⟨fun n hn => ?_, fun c hc => by cases hc⟩
        have hhas : (b.ignore body).has n = b.has n := by
          unfold has find?
          rw [heq]
        exact hhas.trans hn
      · exact enters_of_insert heq fun c hc => by cases hc
  | declare symbols =>
      refine ⟨fun n hn => ?_, fun c hc => by cases hc⟩
      have hfold : symbols.foldlM (fun b s => b.define false s.name (declared keepAll s)) b = .ok b' := h
      clear h
      induction symbols generalizing b with
      | nil =>
          cases hfold
          exact hn
      | cons sym symbols ih =>
          rw [List.foldlM_cons] at hfold
          obtain ⟨b₁, hdefine, hrest⟩ := Outcome.bind_ok hfold
          obtain ⟨-, rfl⟩ := define_ok hdefine
          exact ih (by rw [has_insert rfl, hn, Bool.or_true]) hrest

/-- The name that a statement defines. -/
def definedName? : Except Failure Statement → Option String
  | .ok (.define c) => some c.name
  | _ => none

theorem definedName?_eq_some {s : Statement} (h : definedName? (.ok s) = some n) : ∃ c, s = .define c ∧ c.name = n := by
  cases s with
  | define c => exact ⟨c, rfl, Option.some.inj h⟩
  | override c => cases h
  | extend c => cases h
  | ignore body => cases h
  | declare symbols => cases h

/-- Statements that can be carried out one after the other define different names, and the book has them all. -/
theorem nodup_of_foldlM {ss : List (Except Failure Statement)}
    (h : ss.foldlM (fun b s => do perform keepAll none b (← s)) b = .ok b') :
    (ss.filterMap definedName?).Nodup ∧ (∀ n ∈ ss.filterMap definedName?, b.has n = false ∧ b'.has n = true) ∧
      (∀ n, b.has n = true → b'.has n = true) ∧ ∀ s ∈ ss, ∃ s', s = .ok s' := by
  induction ss generalizing b with
  | nil =>
      cases h
      exact ⟨List.nodup_nil, by simp, fun n hn => hn, by simp⟩
  | cons s ss ih =>
      rw [List.foldlM_cons] at h
      obtain ⟨b₁, hstep, hrest⟩ := Outcome.bind_ok h
      obtain ⟨s', rfl, hperform⟩ := Outcome.bind_ok hstep
      obtain ⟨hkept, hnew⟩ := enters_of_perform hperform
      obtain ⟨hnodup, hnames, hall, hok⟩ := ih hrest
      have hrest' : ∀ n ∈ ss.filterMap definedName?, b.has n = false ∧ b'.has n = true := by
        intro n hn
        obtain ⟨hfresh, hin⟩ := hnames n hn
        refine ⟨?_, hin⟩
        rw [Bool.eq_false_iff] at hfresh ⊢
        exact fun hb => hfresh (hkept n hb)
      refine ⟨?_, ?_, fun n hn => hall n (hkept n hn), List.forall_mem_cons.mpr ⟨⟨s', rfl⟩, hok⟩⟩
      · cases hname : definedName? (.ok s') with
        | none => rwa [List.filterMap_cons_none hname]
        | some name =>
            rw [List.filterMap_cons_some hname]
            obtain ⟨c, rfl, rfl⟩ := definedName?_eq_some hname
            refine List.nodup_cons.mpr ⟨fun hmem => ?_, hnodup⟩
            exact absurd (hnew c rfl).2 (Bool.eq_false_iff.mp (hnames c.name hmem).1)
      · cases hname : definedName? (.ok s') with
        | none => rwa [List.filterMap_cons_none hname]
        | some name =>
            rw [List.filterMap_cons_some hname]
            obtain ⟨c, rfl, rfl⟩ := definedName?_eq_some hname
            exact List.forall_mem_cons.mpr ⟨⟨(hnew c rfl).1, hall _ (hnew c rfl).2⟩, hrest'⟩

/-- Definitions that are changed under their names stand under the same names. -/
theorem isSome_find?_map {change : String × Definition → String × Definition} (hchange : ∀ e, (change e).1 = e.1)
    (definitions : List (String × Definition)) (n : String) :
    (Ordered.find? n (definitions.map change)).isSome = (Ordered.find? n definitions).isSome := by
  unfold Ordered.find?
  induction definitions with
  | nil => rfl
  | cons e definitions ih =>
      rw [List.map_cons, List.lookup_cons, List.lookup_cons, hchange e]
      cases n == e.1 with
      | true => rfl
      | false => exact ih

/-- Putting terminals in changes no name. -/
theorem has_of_resolve (h : b.resolve = .ok b') (n : String) : b'.has n = b.has n := by
  obtain ⟨-, -, h⟩ := Outcome.bind_ok h
  dsimp only at h
  split at h
  · cases h
  · cases h
    exact isSome_find?_map (fun e => by split <;> rfl) b.definitions n

/-- The statements of a text whose book can be made: each is well formed, no two define the same name, and the book
has all these names. -/
theorem statements_of_ofText {shelf : Shelf} {text name : String} {t : Tree}
    (h : ofText shelf keepAll text name = .ok b) (ht : Source.parse text name = .ok t) :
    ((Statement.ofTree t).filterMap definedName?).Nodup ∧
      (∀ n ∈ (Statement.ofTree t).filterMap definedName?, b.has n = true) ∧
      ∀ s ∈ Statement.ofTree t, ∃ s', s = .ok s' := by
  obtain ⟨b₁, hload, h⟩ := Outcome.bind_ok h
  obtain ⟨-, -, h⟩ := Outcome.bind_ok h
  cases h
  unfold importLimit load at hload
  obtain ⟨t', ht', hload⟩ := Outcome.bind_ok hload
  obtain rfl : t = t' := Except.ok.inj (ht.symm.trans ht')
  obtain ⟨imports, -, hload⟩ := Outcome.bind_ok hload
  obtain ⟨entries, -, hload⟩ := Outcome.bind_ok hload
  obtain ⟨imported, -, hload⟩ := Outcome.bind_ok hload
  obtain ⟨own, hown, hresolve⟩ := Outcome.bind_ok hload
  obtain ⟨hnodup, hnames, -, hok⟩ := nodup_of_foldlM hown
  exact ⟨hnodup, fun n hn => (has_of_resolve hresolve n).trans (hnames n hn).2, hok⟩

end Book

/-! ## Rules defined in the open -/

open GrammarBench.Tree

theorem Statement.openName?_eq_some {s : Tree} {x : Lexeme} (h : openName? s = some x) :
    ∃ mods params prio body, s = .rule "rule" [mods, .lexeme x, params, prio, body] := by
  unfold openName? at h
  split at h
  · split at h
    · cases h
      exact ⟨_, _, _, _, rfl⟩
    · cases h
  · cases h

theorem Statement.definedName?_clause {mods params prio body : Tree} {x : Lexeme}
    (h : ∃ s, (clause (.rule "rule" [mods, .lexeme x, params, prio, body])).map define = .ok s) :
    Book.definedName? ((clause (.rule "rule" [mods, .lexeme x, params, prio, body])).map define) = some x.text := by
  have hclause : clause (.rule "rule" [mods, .lexeme x, params, prio, body]) =
      ruleClause mods (.lexeme x) params prio body := rfl
  rw [hclause] at h ⊢
  unfold ruleClause at h ⊢
  dsimp only at h ⊢
  split at h
  · obtain ⟨s, hs⟩ := h
    cases hs
  · rw [if_neg (by assumption)]
    rfl

/-- The rules that a text defines in the open are among those that its statements define. -/
theorem openNames_sublist {t : Tree} (h : ∀ s ∈ Statement.ofTree t, ∃ s', s = .ok s') :
    ((openNames t).map (·.text)).Sublist ((Statement.ofTree t).filterMap Book.definedName?) := by
  unfold openNames Statement.ofTree at *
  generalize Statement.childrenOf t = ss at *
  induction ss with
  | nil => exact List.Sublist.refl []
  | cons s ss ih =>
      cases hname : Statement.openName? s with
      | none =>
          rw [List.filterMap_cons_none hname]
          rw [List.filterMap_cons] at h ⊢
          split at h
          · exact ih h
          · exact (ih fun s hs => h s (List.mem_cons_of_mem _ hs)).trans
              (List.Sublist.filterMap _ (List.sublist_cons_self _ _))
      | some x =>
          obtain ⟨mods, params, prio, body, rfl⟩ := Statement.openName?_eq_some hname
          rw [List.filterMap_cons_some hname, List.map_cons]
          rw [List.filterMap_cons] at h ⊢
          obtain ⟨hclause, hrest⟩ := List.forall_mem_cons.mp h
          have hname := Statement.definedName?_clause hclause
          exact (List.filterMap_cons_some hname ▸ (ih hrest).cons_cons _)

/-! ## Names read line by line -/

section addNew

variable {α : Type} [DecidableEq α] {a : α} {found xs ys : List α}

theorem addNew_append : addNew found (xs ++ ys) = addNew (addNew found xs) ys := by
  induction xs generalizing found with
  | nil => rfl
  | cons x xs ih => exact ih

theorem mem_addNew : a ∈ addNew found xs ↔ a ∈ found ∨ a ∈ xs := by
  induction xs generalizing found with
  | nil => simp [addNew]
  | cons x xs ih =>
      rw [addNew, ih, List.mem_cons]
      split
      · rename_i hx
        constructor
        · exact Or.imp_right Or.inr
        · rintro (h | rfl | h)
          exacts [Or.inl h, Or.inl hx, Or.inr h]
      · rw [List.mem_append, List.mem_singleton, or_assoc]

end addNew

/-- The names read on the first lines of a text. -/
def namesBefore (text : String) (row : Nat) : List String :=
  addNew [] ((((Text.splitNewlines text.toList).take row).filterMap ruleOfLine?).map String.ofList)

theorem namesBefore_succ (text : String) (row : Nat) : namesBefore text (row + 1) =
    addNew (namesBefore text row) ((ruleOnLine? text row).toList.map String.ofList) := by
  unfold namesBefore ruleOnLine?
  rw [List.take_add_one, List.filterMap_append, List.map_append, addNew_append]
  cases (Text.splitNewlines text.toList)[row]? with
  | none => rfl
  | some line =>
      rw [Option.bind_some, Option.toList_some, List.filterMap_cons, List.filterMap_nil]
      cases ruleOfLine? line <;> rfl

theorem mem_namesBefore {text : String} {row : Nat} {n : String} :
    n ∈ namesBefore text row ↔ ∃ earlier < row, ruleOnLine? text earlier = some n.toList := by
  induction row with
  | zero => simp [namesBefore, addNew]
  | succ row ih =>
      rw [namesBefore_succ, mem_addNew, ih]
      simp only [List.mem_map, Option.mem_toList]
      constructor
      · rintro (⟨earlier, hlt, hread⟩ | ⟨s, hread, rfl⟩)
        · exact ⟨earlier, Nat.lt_succ_of_lt hlt, hread⟩
        · exact ⟨row, Nat.lt_succ_self row, by rw [hread, String.toList_ofList]⟩
      · rintro ⟨earlier, hlt, hread⟩
        rcases Nat.lt_succ_iff_lt_or_eq.mp hlt with hlt | rfl
        · exact Or.inl ⟨earlier, hlt, hread⟩
        · exact Or.inr ⟨n.toList, hread, String.ofList_toList⟩

/-- What stands on one line among things that stand on lines in their order. -/
theorem filter_before_succ {os : List Lexeme} {keep : Lexeme → Bool} {x : Lexeme}
    (hsorted : os.Pairwise fun x y => x.row < y.row) (hx : x ∈ os) (hkeep : keep x = true) :
    (os.filter fun y => decide (y.row < x.row + 1) && keep y) =
      (os.filter fun y => decide (y.row < x.row) && keep y) ++ [x] := by
  obtain ⟨s, t, rfl⟩ := List.append_of_mem hx
  obtain ⟨-, hbehind, hbefore⟩ := List.pairwise_append.mp hsorted
  have hbefore : ∀ y ∈ s, y.row < x.row := fun y hy => hbefore y hy x List.mem_cons_self
  have hbehind : ∀ y ∈ t, x.row < y.row := (List.pairwise_cons.mp hbehind).1
  have hs : (s.filter fun y => decide (y.row < x.row + 1) && keep y) =
      s.filter fun y => decide (y.row < x.row) && keep y := by
    refine List.filter_congr fun y hy => ?_
    rw [decide_eq_true (hbefore y hy), decide_eq_true (Nat.lt_succ_of_lt (hbefore y hy))]
  have ht (bound : Nat) (hbound : bound ≤ x.row + 1) :
      (t.filter fun y => decide (y.row < bound) && keep y) = [] := by
    refine List.filter_eq_nil_iff.mpr fun y hy => ?_
    have hlate := hbehind y hy
    rw [decide_eq_false (by omega)]
    exact Bool.false_ne_true
  rw [List.filter_append, List.filter_append, hs, List.filter_cons_of_pos (by simp [hkeep]),
    List.filter_cons_of_neg (by simp), ht _ (Nat.le_refl _), ht _ (Nat.le_succ _), List.append_nil]

/-- Nothing that is kept stands on the line. -/
theorem filter_before_skip {os : List Lexeme} {keep : Lexeme → Bool} {row : Nat}
    (h : ∀ x ∈ os, x.row = row → keep x = false) :
    (os.filter fun x => decide (x.row < row + 1) && keep x) = os.filter fun x => decide (x.row < row) && keep x := by
  refine List.filter_congr fun x hx => ?_
  by_cases hrow : x.row = row
  · rw [h x hx hrow, Bool.and_false, Bool.and_false]
  · rw [decide_eq_decide.mpr (by omega : x.row < row + 1 ↔ x.row < row)]

section Found

variable {text : String} {os : List Lexeme}

/-- The names that are read on the first lines, if every line that is read as a definition is the one of a rule
defined in the open, under its name, or is read as an earlier line is. -/
theorem namesBefore_eq_filter (hsorted : os.Pairwise fun x y => x.row < y.row) (hnodup : (os.map (·.text)).Nodup)
    (hopen : ∀ x ∈ os, ∀ n, ruleOnLine? text x.row = some n → x.text.toList = n)
    (hquiet : ∀ row n, ruleOnLine? text row = some n →
      (∃ x ∈ os, x.row = row) ∨ ∃ earlier < row, ruleOnLine? text earlier = some n) (row : Nat) :
    namesBefore text row =
      (os.filter fun x => decide (x.row < row) && (ruleOnLine? text x.row).isSome).map (·.text) := by
  induction row with
  | zero => simp [namesBefore, addNew]
  | succ row ih =>
      rw [namesBefore_succ, ih]
      by_cases hline : ∃ x ∈ os, x.row = row ∧ (ruleOnLine? text row).isSome
      · -- The name is that of the rule on the line, and new.
        obtain ⟨x, hx, rfl, hsome⟩ := hline
        obtain ⟨n, hn⟩ := Option.isSome_iff_exists.mp hsome
        obtain rfl := hopen x hx n hn
        have hfresh : x.text ∉
            (os.filter fun y => decide (y.row < x.row) && (ruleOnLine? text y.row).isSome).map (·.text) := by
          intro hmem
          obtain ⟨y, hy, htext⟩ := List.mem_map.mp hmem
          obtain ⟨hy, hrow⟩ := List.mem_filter.mp hy
          obtain rfl := List.inj_on_of_nodup_map hnodup hy hx htext
          simp at hrow
        rw [filter_before_succ hsorted hx hsome, hn, List.map_append]
        simp [addNew, hfresh]
      · -- What is read on the line, if anything, has been read before.
        rw [filter_before_skip fun x hx hrow => Bool.eq_false_iff.mpr fun hsome => hline ⟨x, hx, hrow, hrow ▸ hsome⟩]
        cases hread : ruleOnLine? text row with
        | none => rfl
        | some n =>
            rcases hquiet row n hread with ⟨x, hx, rfl⟩ | ⟨earlier, hlt, hearlier⟩
            · exact absurd ⟨x, hx, rfl, by rw [hread]; rfl⟩ hline
            · have hmem : String.ofList n ∈ namesBefore text row :=
                mem_namesBefore.mpr ⟨earlier, hlt, by rw [hearlier, String.toList_ofList]⟩
              rw [ih] at hmem
              simp [addNew, hmem]

/-- The names that are found under the same conditions. -/
theorem ruleNames_eq_filter (hsorted : os.Pairwise fun x y => x.row < y.row) (hnodup : (os.map (·.text)).Nodup)
    (hopen : ∀ x ∈ os, ∀ n, ruleOnLine? text x.row = some n → x.text.toList = n)
    (hquiet : ∀ row n, ruleOnLine? text row = some n →
      (∃ x ∈ os, x.row = row) ∨ ∃ earlier < row, ruleOnLine? text earlier = some n) :
    ruleNames text = (os.filter fun x => (ruleOnLine? text x.row).isSome).map (·.text) := by
  have hwhole := namesBefore_eq_filter hsorted hnodup hopen hquiet (Text.splitNewlines text.toList).length
  unfold namesBefore at hwhole
  rw [List.take_length] at hwhole
  refine hwhole.trans (congrArg _ (List.filter_congr fun x hx => ?_))
  cases hread : ruleOnLine? text x.row with
  | none => exact Bool.and_false _
  | some n =>
      unfold ruleOnLine? at hread
      obtain ⟨line, hline, -⟩ := Option.bind_eq_some_iff.mp hread
      rw [decide_eq_true (List.getElem?_eq_some_iff.mp hline).1]
      rfl

end Found

/-! ## Lines in the plain form -/

/-- A line of a text has the plain form of a definition of a name; lines count from zero. -/
def DefinesOn (text : String) (row : Nat) (n : String) : Prop :=
  ∃ line, (Text.splitNewlines text.toList)[row]? = some line ∧ PlainForm n.toList line

variable {text : String} {row : Nat} {n : String} {t : Tree}

theorem ruleOnLine?_eq_some_iff : ruleOnLine? text row = some n.toList ↔ DefinesOn text row n := by
  unfold ruleOnLine? DefinesOn
  rw [Option.bind_eq_some_iff]
  exact exists_congr fun line => and_congr_right fun _ => ruleOfLine?_eq_some_iff

instance : Decidable (DefinesOn text row n) := decidable_of_iff _ ruleOnLine?_eq_some_iff

instance : Decidable (Source.StartsInside text row) :=
  inferInstanceAs (Decidable (∃ x ∈ Source.lexemes text, _ ∧ _ ∧ _))

/-- Only lines of rules that the text defines in the open have the plain form of a definition. A line inside a
regular expression and a continued line may have it for a name that an earlier line has it for. -/
def Quiet (text : String) (t : Tree) : Prop :=
  ∀ row, Source.StartsInside text row → (∀ x ∈ openNames t, x.row ≠ row) →
    ∀ n, DefinesOn text row n → ∃ earlier < row, DefinesOn text earlier n

theorem DefinesOn.row_lt (h : DefinesOn text row n) : row < (Text.splitNewlines text.toList).length := by
  obtain ⟨line, hline, -⟩ := h
  exact (List.getElem?_eq_some_iff.mp hline).1

/-- Whether a text is quiet is seen from what its lines are read as. -/
theorem quiet_iff : Quiet text t ↔ ((List.range (Text.splitNewlines text.toList).length).all fun row =>
    !decide (Source.StartsInside text row) || (openNames t).any (fun x => x.row == row) ||
      (ruleOnLine? text row).all fun n => (List.range row).any fun earlier => ruleOnLine? text earlier == some n)
    = true := by
  unfold Quiet
  simp only [List.all_eq_true, List.mem_range, Bool.or_eq_true, Bool.not_eq_true', decide_eq_false_iff_not,
    List.any_eq_true, beq_iff_eq, Option.all_eq_true]
  constructor
  · intro h row hrow
    by_cases hinside : Source.StartsInside text row
    · by_cases hopen : ∃ x ∈ openNames t, x.row = row
      · exact Or.inl (Or.inr hopen)
      · refine Or.inr fun s hs => ?_
        obtain ⟨earlier, hlt, hearlier⟩ := h row hinside (fun x hx hrow => hopen ⟨x, hx, hrow⟩) (String.ofList s)
          (ruleOnLine?_eq_some_iff.mp (by rw [hs, String.toList_ofList]))
        rw [← ruleOnLine?_eq_some_iff, String.toList_ofList] at hearlier
        exact ⟨earlier, hlt, hearlier⟩
    · exact Or.inl (Or.inl hinside)
  · intro h row hinside hopen n hn
    rcases h row hn.row_lt with (hnone | ⟨x, hx, hrow⟩) | hall
    · exact absurd hinside hnone
    · exact absurd hrow (hopen x hx)
    · obtain ⟨earlier, hlt, hearlier⟩ := hall _ (ruleOnLine?_eq_some_iff.mpr hn)
      exact ⟨earlier, hlt, ruleOnLine?_eq_some_iff.mp hearlier⟩

instance : Decidable (Quiet text t) := decidable_of_iff' _ quiet_iff

/-- The rules that are found in a text whose book can be made: none but those that it defines in the open, in their
order and each once, and all of them exactly if each stands on its line in the plain form. -/
theorem ruleNames_sublist_iff {shelf : Shelf} {keepAll : Bool} {name : String} {b : Book}
    (haccepted : Book.ofText shelf keepAll text name = .ok b) (hread : Source.parse text name = .ok t)
    (hquiet : Quiet text t) :
    (ruleNames text).Sublist ((openNames t).map (·.text)) ∧ (ruleNames text).Nodup ∧
      (∀ n ∈ ruleNames text, b.has n = true) ∧
      (ruleNames text = (openNames t).map (·.text) ↔ ∀ x ∈ openNames t, DefinesOn text x.row x.text) ∧
      ∀ {id : Nat} {label home : String} {options : List (String × Value)} {shelf' : Shelf} {g : GrammarClasses},
        GrammarClasses.build id label text home options shelf' = .ok g → g.parser.ruleNames = .ok (ruleNames text) := by
  obtain ⟨hwhole, hlaid, segments, hitems, hopens⟩ := Source.laid_of_parse hread
  obtain ⟨hnodup, hnames, hok⟩ := Book.statements_of_ofText haccepted hread
  have hstatements := openNames_sublist hok
  have hfound := @ruleNames_eq_filter text (openNames t)
    (by rw [hopens]; exact Source.pairwise_row hlaid hitems) (hnodup.sublist hstatements)
    (fun x hx n hn => Source.eq_of_open hwhole hlaid hitems (hopens ▸ hx) hn)
    (fun row n hn => by
      rcases Source.open_or_inside hwhole hlaid hitems hn with ⟨x, hx, hrow, -⟩ | hinside
      · exact Or.inl ⟨x, hopens ▸ hx, hrow⟩
      · by_cases hopen : ∃ x ∈ openNames t, x.row = row
        · exact Or.inl hopen
        · obtain ⟨earlier, hlt, hearlier⟩ := hquiet row hinside (fun x hx hrow => hopen ⟨x, hx, hrow⟩)
            (String.ofList n) (ruleOnLine?_eq_some_iff.mp (by rw [hn, String.toList_ofList]))
          rw [← ruleOnLine?_eq_some_iff, String.toList_ofList] at hearlier
          exact Or.inr ⟨earlier, hlt, hearlier⟩)
  have hsub : (ruleNames text).Sublist ((openNames t).map (·.text)) := by
    rw [hfound]
    exact List.filter_sublist.map _
  refine ⟨hsub, (hnodup.sublist hstatements).sublist hsub,
    fun n hn => hnames n (hstatements.mem (hsub.mem hn)), ?_, ?_⟩
  · rw [hfound]
    constructor
    · intro heq x hx
      have hlength := congrArg List.length heq
      rw [List.length_map, List.length_map, List.length_filter_eq_length_iff] at hlength
      obtain ⟨n, hn⟩ := Option.isSome_iff_exists.mp (hlength x hx)
      obtain rfl := Source.eq_of_open hwhole hlaid hitems (hopens ▸ hx) hn
      exact ruleOnLine?_eq_some_iff.mp hn
    · intro hall
      rw [List.filter_eq_self.mpr]
      intro x hx
      rw [ruleOnLine?_eq_some_iff.mpr (hall x hx)]
      rfl
  · intro id label home options shelf' g hbuild
    obtain ⟨hmade, hrules⟩ := GrammarClasses.made_of_build hbuild
    rw [GrammarClasses.parser_ruleNames hmade, hrules]

/-! ## Texts in other forms -/

def noFiles : Shelf := { files := fun _ => none, directories := [] }

/-- Two plain rules; a line of a regular expression has the plain form as well, for the name of the first. -/
def pairText : String := "start: pair\n!pair.2: /x\nstart: y/x\n"

/-- A rule under both modifiers. -/
def markedText : String := "?!start: \"a\"\n"

/-- A rule, with a regular expression of which one line has the plain form. -/
def brokenText : String := "start: /x\npair: y/x\n"

/-- A text whose book can be made defines rules in the open on some lines, and is quiet or not. -/
def opensAs (text : String) (opens : List (String × Nat)) (quiet : Bool) :
    Except Failure Book → Except Failure Tree → Bool
  | .ok _, .ok t => (openNames t).map (fun x => (x.text, x.row)) == opens && decide (Quiet text t) == quiet
  | _, _ => false

theorem exists_of_opensAs {opens : List (String × Nat)} {quiet : Bool} {accepted : Except Failure Book}
    {tree : Except Failure Tree} (h : opensAs text opens quiet accepted tree = true) :
    ∃ b t, accepted = .ok b ∧ tree = .ok t ∧ (openNames t).map (fun x => (x.text, x.row)) = opens ∧
      decide (Quiet text t) = quiet := by
  cases accepted with
  | error f => cases h
  | ok b =>
      cases tree with
      | error f => cases h
      | ok t =>
          obtain ⟨hopens, hquiet⟩ := Bool.and_eq_true_iff.mp h
          exact ⟨b, t, rfl, rfl, eq_of_beq hopens, eq_of_beq hquiet⟩

theorem exists_of_toBool {α : Type} {e : Except Failure α} (h : e.toBool = true) : ∃ a, e = .ok a := by
  cases e with
  | error f => cases h
  | ok a => exact ⟨a, rfl⟩

/-- What is read in a text on its own. -/
def opensAlone (text : String) (opens : List (String × Nat)) (quiet : Bool) : Bool :=
  opensAs text opens quiet (Book.ofText noFiles false text "<string>") (Source.parse text "<string>")

/-- What is built of a text on its own. -/
def buildsAlone (text : String) : Bool := (Language.build noFiles text ["start"] []).toBool

/-- All texts are read at once, as the machine that reads them is worked out once then. -/
theorem reads_texts : (opensAlone pairText [("start", 0), ("pair", 1)] true &&
    opensAlone markedText [("start", 0)] true && buildsAlone markedText &&
    opensAlone brokenText [("start", 0)] false && buildsAlone brokenText &&
    !(GrammarClasses.build Layer.firstFree "g" brokenText "m" [] noFiles).toBool) = true := by
  decide +kernel

/-- Both rules are found, once each, though a line of a regular expression has the plain form. -/
theorem ruleNames_sublist_iff_pair :
    ∃ b t, Book.ofText noFiles false pairText "<string>" = .ok b ∧ Source.parse pairText "<string>" = .ok t ∧
      Quiet pairText t ∧ (openNames t).map (·.text) = ["start", "pair"] ∧
      ruleNames pairText = (openNames t).map (·.text) := by
  have hreads := reads_texts
  simp only [Bool.and_eq_true] at hreads
  obtain ⟨⟨⟨⟨⟨hpair, -⟩, -⟩, -⟩, -⟩, -⟩ := hreads
  obtain ⟨b, t, haccepted, hread, hopens, hquiet⟩ := exists_of_opensAs hpair
  have hquiet : Quiet pairText t := of_decide_eq_true hquiet
  obtain ⟨-, -, -, hall, -⟩ := ruleNames_sublist_iff haccepted hread hquiet
  have htexts : (openNames t).map (·.text) = ["start", "pair"] := by
    have hfirst := congrArg (List.map Prod.fst) hopens
    rwa [List.map_map] at hfirst
  refine ⟨b, t, haccepted, hread, hquiet, htexts, hall.mpr fun x hx => ?_⟩
  have hplace : (x.text, x.row) ∈ [("start", 0), ("pair", 1)] := by
    rw [← hopens]
    exact List.mem_map_of_mem hx
  have hplain : ∀ e ∈ [("start", 0), ("pair", 1)], DefinesOn pairText e.2 e.1 := by decide +kernel
  exact hplain _ hplace

/-- A rule under both modifiers is not found; and a line inside a regular expression is found, so that a language
which can be made of the text is refused. -/
theorem missed_markedText :
    (∃ l t, Language.build noFiles markedText ["start"] [] = .ok l ∧ Source.parse markedText "<string>" = .ok t ∧
      (openNames t).map (·.text) = ["start"] ∧ ruleNames markedText = []) ∧
    ∃ l t, Language.build noFiles brokenText ["start"] [] = .ok l ∧ Source.parse brokenText "<string>" = .ok t ∧
      (openNames t).map (·.text) = ["start"] ∧ ruleNames brokenText = ["start", "pair"] ∧
      ∀ g, GrammarClasses.build Layer.firstFree "g" brokenText "m" [] noFiles ≠ .ok g := by
  have hreads := reads_texts
  simp only [Bool.and_eq_true, Bool.not_eq_true'] at hreads
  obtain ⟨⟨⟨⟨⟨-, hmarked⟩, hbuilds⟩, hbroken⟩, hbuilds'⟩, hrefused⟩ := hreads
  constructor
  · obtain ⟨l, hl⟩ := exists_of_toBool hbuilds
    obtain ⟨-, t, -, hread, hopens, -⟩ := exists_of_opensAs hmarked
    have hfirst := congrArg (List.map Prod.fst) hopens
    rw [List.map_map] at hfirst
    exact ⟨l, t, hl, hread, hfirst, by decide +kernel⟩
  · obtain ⟨l, hl⟩ := exists_of_toBool hbuilds'
    obtain ⟨-, t, -, hread, hopens, -⟩ := exists_of_opensAs hbroken
    have hfirst := congrArg (List.map Prod.fst) hopens
    rw [List.map_map] at hfirst
    refine ⟨l, t, hl, hread, hfirst, by decide +kernel, fun g hg => ?_⟩
    rw [hg] at hrefused
    cases hrefused

end GrammarBench.Grammar
