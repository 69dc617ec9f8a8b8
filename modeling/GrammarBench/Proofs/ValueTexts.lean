import GrammarBench.Proofs.Numerals
import GrammarBench.Proofs.Outcome
import GrammarBench.Proofs.QuotedTexts

/-!
# Texts of values

Which texts write which values, told by what stands at the front of a text and what is behind it. The notation is
JSON with words of its own for the numbers that have none there.

* `Reads`, `Document`: a value at the front of a text, and a text that writes a value and nothing else.
* `Ordered.find?_ofList`: of a repeated key the last value counts.
* `Reads.front`, `Reads.behind`: how a value begins, and that it takes at least one character.
* `scan_cases`, `scanItems_succ`, `scanEntries_quote`: what one round of the scan comes to.
* `document_of_parse`: what is parsed is written.
-/

namespace GrammarBench

namespace Ordered

theorem find?_append {α : Type} (key : String) (entries entries' : List (String × α)) :
    find? key (entries ++ entries') = (find? key entries).or (find? key entries') := List.lookup_append

theorem find?_foldl_insert {α : Type} (key : String) (entries m : List (String × α)) :
    find? key (entries.foldl (fun m e => insert e.1 e.2 m) m) = (find? key entries.reverse).or (find? key m) := by
  induction entries generalizing m with
  | nil => rfl
  | cons e entries ih =>
      rw [List.foldl_cons, ih, List.reverse_cons, find?_append, Option.or_assoc]
      congr 1
      by_cases hkey : key = e.1
      · have hlast : find? key [e] = some e.2 := by rw [find?, List.lookup_cons, hkey, beq_self_eq_true]
        rw [hlast, hkey, find?_insert_self]
        rfl
      · have hlast : find? key [e] = none := find?_eq_none fun h => hkey (List.mem_singleton.mp h)
        rw [hlast, find?_insert_ne hkey]
        rfl

/-- Of a repeated key the last value counts. -/
theorem find?_ofList {α : Type} (key : String) (entries : List (String × α)) :
    find? key (ofList entries) = find? key entries.reverse := by
  rw [show ofList entries = entries.foldl (fun m e => insert e.1 e.2 m) [] from rfl, find?_foldl_insert]
  exact Option.or_none

end Ordered

namespace Value

/-! ## White space -/

def isSpace (c : Char) : Bool := c = ' ' || c = '\t' || c = '\n' || c = '\r'

def Space (s : List Char) : Prop := ∀ c ∈ s, isSpace c = true

theorem isSpace_iff {c : Char} : isSpace c = true ↔ c = ' ' ∨ c = '\t' ∨ c = '\n' ∨ c = '\r' := by
  simp [isSpace, or_assoc]

/-! ## The relation -/

/-- The words, with what they stand for. -/
def words : List (String × Value) :=
  [("null", null), ("true", bool true), ("false", bool false), ("NaN", float (0.0 / 0.0)),
    ("Infinity", float (1.0 / 0.0)), ("-Infinity", float (-1.0 / 0.0))]

mutual

/-- A value at the front of a text, and what is behind it. Of a repeated key the last value counts. -/
inductive Reads : List Char → Value → List Char → Prop
  | word {w : String} {v : Value} {r : List Char} : (w, v) ∈ words → Reads (w.toList ++ r) v r
  | number {n : Numeral} {r : List Char} : n.WellFormed → Reads (n.text ++ r) n.value r
  | text {s r : List Char} {t : String} : Quoted s t r → Reads s (.text t) r
  | noItems {space r : List Char} : Space space → Reads ('[' :: (space ++ ']' :: r)) (.list []) r
  | list {space s r : List Char} {vs : List Value} :
      Space space → ReadsItems s vs r → Reads ('[' :: (space ++ s)) (.list vs) r
  | noEntries {space r : List Char} : Space space → Reads ('\x7b' :: (space ++ '\x7d' :: r)) (.dict []) r
  | dict {space s r : List Char} {es : List (String × Value)} :
      Space space → ReadsEntries s es r → Reads ('\x7b' :: (space ++ s)) (.dict (Ordered.ofList es)) r

/-- Values up to the closing bracket, with commas between them. -/
inductive ReadsItems : List Char → List Value → List Char → Prop
  | last {s space r : List Char} {v : Value} :
      Reads s v (space ++ ']' :: r) → Space space → ReadsItems s [v] r
  | more {s space space' s' r : List Char} {v : Value} {vs : List Value} :
      Reads s v (space ++ ',' :: (space' ++ s')) → Space space → Space space' → ReadsItems s' vs r →
        ReadsItems s (v :: vs) r

/-- Keys with values up to the closing brace, with commas between them. -/
inductive ReadsEntries : List Char → List (String × Value) → List Char → Prop
  | last {s space₁ space₂ s₁ space₃ r : List Char} {key : String} {v : Value} :
      Quoted s key (space₁ ++ ':' :: (space₂ ++ s₁)) → Space space₁ → Space space₂ →
        Reads s₁ v (space₃ ++ '\x7d' :: r) → Space space₃ → ReadsEntries s [(key, v)] r
  | more {s space₁ space₂ s₁ space₃ space₄ s' r : List Char} {key : String} {v : Value}
      {es : List (String × Value)} :
      Quoted s key (space₁ ++ ':' :: (space₂ ++ s₁)) → Space space₁ → Space space₂ →
        Reads s₁ v (space₃ ++ ',' :: (space₄ ++ s')) → Space space₃ → Space space₄ → ReadsEntries s' es r →
        ReadsEntries s ((key, v) :: es) r

end

/-- A text that writes a value and nothing else. -/
def Document (text : List Char) (v : Value) : Prop :=
  ∃ before s behind, text = before ++ s ∧ Space before ∧ Reads s v behind ∧ Space behind

/-! ## Fronts and lengths -/

/-- The first characters of values. -/
def opensValue (c : Char) : Bool := c.isDigit || ['"', '[', '\x7b', 'n', 't', 'f', 'N', 'I', '-'].contains c

theorem opensValue_iff {c : Char} : opensValue c = true ↔ c.isDigit = true ∨
    c = '"' ∨ c = '[' ∨ c = '\x7b' ∨ c = 'n' ∨ c = 't' ∨ c = 'f' ∨ c = 'N' ∨ c = 'I' ∨ c = '-' := by
  simp [opensValue]

theorem not_isSpace_of_opensValue {c : Char} (h : opensValue c = true) : isSpace c = false := by
  refine Bool.eq_false_iff.mpr fun hspace => ?_
  rcases isSpace_iff.mp hspace with rfl | rfl | rfl | rfl <;> cases h

/-- The front of a number. -/
theorem Numeral.exists_front {n : Numeral} (hn : n.WellFormed) :
    ∃ c t, n.text = c :: t ∧ (c.isDigit = true ∨ c = '-' ∧ ∃ d t', t = d :: t' ∧ d.isDigit = true) := by
  obtain ⟨d, t, ht, hd⟩ : ∃ d t, n.unsigned = d :: t ∧ d.isDigit = true := by
    rw [Numeral.unsigned]
    rcases hn.whole with hzero | ⟨hne, hdigits, -⟩
    · rw [hzero]
      exact ⟨'0', _, rfl, rfl⟩
    · obtain ⟨d, t, ht⟩ := List.exists_cons_of_ne_nil hne
      rw [ht] at hdigits ⊢
      exact ⟨d, _, rfl, hdigits d List.mem_cons_self⟩
  unfold Numeral.text signText
  rw [ht]
  split
  · exact ⟨'-', d :: t, rfl, Or.inr ⟨rfl, d, t, rfl, hd⟩⟩
  · exact ⟨d, t, rfl, Or.inl hd⟩

/-- What is left of a text behind at least one character. -/
def Behind (r s : List Char) : Prop := r <:+ s ∧ r.length < s.length

theorem behind_cons (c : Char) (r : List Char) : Behind r (c :: r) := ⟨List.suffix_cons c r, Nat.lt_succ_self _⟩

theorem Behind.append {r s : List Char} (h : Behind r s) (p : List Char) : Behind r (p ++ s) := by
  refine ⟨h.1.trans (List.suffix_append p s), ?_⟩
  rw [List.length_append]
  exact Nat.lt_of_lt_of_le h.2 (Nat.le_add_left _ _)

theorem Behind.trans {r s t : List Char} (h : Behind r s) (h' : Behind s t) : Behind r t :=
  ⟨h.1.trans h'.1, Nat.lt_trans h.2 h'.2⟩

theorem Behind.of_append {p r s : List Char} (h : Behind (p ++ r) s) : Behind r s := by
  have hlength := h.2
  rw [List.length_append] at hlength
  exact ⟨(List.suffix_append p r).trans h.1, by omega⟩

/-- The same behind one more character. -/
theorem Behind.step {space r s : List Char} {c : Char} (h : Behind (space ++ c :: r) s) : Behind r s :=
  (behind_cons c r).trans h.of_append

theorem behind_written {p r t : List Char} {c : Char} (h : p = c :: t) : Behind r (p ++ r) := by
  refine ⟨List.suffix_append p r, ?_⟩
  rw [h, List.length_append, List.length_cons]
  omega

theorem Pieces.behind {s r : List Char} {us : List TextUnit} (h : Pieces s us r) : Behind r s := by
  induction h with
  | close => exact behind_cons _ _
  | piece _ _ ih => exact ih.append _

theorem Quoted.behind {s r : List Char} {t : String} (h : Quoted s t r) : Behind r s := by
  cases h with
  | mk hus => exact hus.behind.trans (behind_cons _ _)

theorem Quoted.front {s r : List Char} {t : String} (h : Quoted s t r) : ∃ s', s = '"' :: s' := by
  cases h with
  | mk hus => exact ⟨_, rfl⟩

theorem opensValue_word {e : String × Value} (he : e ∈ words) : ∃ c w, e.1.toList = c :: w ∧ opensValue c = true := by
  simp only [words, List.mem_cons, List.not_mem_nil, or_false] at he
  rcases he with rfl | rfl | rfl | rfl | rfl | rfl
  all_goals exact ⟨_, _, rfl, rfl⟩

theorem opensValue_number {n : Numeral} (hn : n.WellFormed) : ∃ c t, n.text = c :: t ∧ opensValue c = true := by
  obtain ⟨c, t, htext, hfront⟩ := Numeral.exists_front hn
  refine ⟨c, t, htext, opensValue_iff.mpr ?_⟩
  rcases hfront with hdigit | ⟨rfl, -⟩
  · exact Or.inl hdigit
  · simp

theorem Reads.front {s r : List Char} {v : Value} (h : Reads s v r) : ∃ c t, s = c :: t ∧ opensValue c = true := by
  cases h with
  | word hw =>
      obtain ⟨c, w, hword, hc⟩ := opensValue_word hw
      exact ⟨c, w ++ r, by rw [hword]; rfl, hc⟩
  | number hn =>
      obtain ⟨c, t, htext, hc⟩ := opensValue_number hn
      exact ⟨c, t ++ r, by rw [htext]; rfl, hc⟩
  | text ht =>
      obtain ⟨s', rfl⟩ := ht.front
      exact ⟨_, _, rfl, rfl⟩
  | noItems _ => exact ⟨_, _, rfl, rfl⟩
  | list _ _ => exact ⟨_, _, rfl, rfl⟩
  | noEntries _ => exact ⟨_, _, rfl, rfl⟩
  | dict _ _ => exact ⟨_, _, rfl, rfl⟩

theorem ReadsItems.front {s r : List Char} {vs : List Value} (h : ReadsItems s vs r) :
    ∃ c t, s = c :: t ∧ opensValue c = true := by
  cases h with
  | last hv _ => exact hv.front
  | more hv _ _ _ => exact hv.front

theorem ReadsEntries.front {s r : List Char} {es : List (String × Value)} (h : ReadsEntries s es r) :
    ∃ s', s = '"' :: s' := by
  cases h with
  | last hkey _ _ _ _ => exact hkey.front
  | more hkey _ _ _ _ _ _ => exact hkey.front

mutual

/-- A value takes at least one character. -/
theorem Reads.behind {s r : List Char} {v : Value} : Reads s v r → Behind r s
  | .word hw => by
      obtain ⟨c, w, hword, -⟩ := opensValue_word hw
      exact behind_written hword
  | .number hn => by
      obtain ⟨c, t, htext, -⟩ := opensValue_number hn
      exact behind_written htext
  | .text ht => ht.behind
  | .noItems _ => ((behind_cons _ _).append _).trans (behind_cons _ _)
  | .list _ hitems => (hitems.behind.append _).trans (behind_cons _ _)
  | .noEntries _ => ((behind_cons _ _).append _).trans (behind_cons _ _)
  | .dict _ hentries => (hentries.behind.append _).trans (behind_cons _ _)

theorem ReadsItems.behind {s r : List Char} {vs : List Value} : ReadsItems s vs r → Behind r s
  | .last hv _ => hv.behind.step
  | .more hv _ _ hitems => hitems.behind.trans hv.behind.step.of_append

theorem ReadsEntries.behind {s r : List Char} {es : List (String × Value)} : ReadsEntries s es r → Behind r s
  | .last hkey _ _ hv _ => hv.behind.step.trans hkey.behind.step.of_append
  | .more hkey _ _ hv _ _ hentries =>
      (hentries.behind.trans hv.behind.step.of_append).trans hkey.behind.step.of_append

end

/-! ## Rounds -/

/-- What is scanned behind the bracket that opens a list. -/
def listRest (fuel : Nat) (s : Scan) : Except Fault (Value × Scan) :=
  match s.rest with
  | ']' :: _ => .ok (list [], s.skip 1)
  | _ => scanItems fuel s >>= fun x => .ok (list x.1, x.2)

/-- What is scanned behind the brace that opens a map. -/
def dictRest (fuel : Nat) (s : Scan) : Except Fault (Value × Scan) :=
  match s.rest with
  | '\x7d' :: _ => .ok (dict [], s.skip 1)
  | _ => scanEntries fuel s >>= fun x => .ok (dict (Ordered.ofList x.1), x.2)

/-- What is scanned where nothing opens: a word or a number. -/
def scanPlain (s : Scan) : Except Fault (Value × Scan) :=
  match s.word? "null", s.word? "true", s.word? "false" with
  | some s', _, _ => .ok (null, s')
  | _, some s', _ => .ok (bool true, s')
  | _, _, some s' => .ok (bool false, s')
  | _, _, _ =>
    match s.word? "NaN", s.word? "Infinity", s.word? "-Infinity" with
    | some s', _, _ => .ok (float (0.0 / 0.0), s')
    | _, some s', _ => .ok (float (1.0 / 0.0), s')
    | _, _, some s' => .ok (float (-1.0 / 0.0), s')
    | _, _, _ => scanNumber s

/-- What is scanned behind an item. -/
def itemRest (fuel : Nat) (x : Value × Scan) : Except Fault (List Value × Scan) :=
  let s := x.2.space
  match s.rest with
  | ']' :: _ => .ok ([x.1], s.skip 1)
  | ',' :: _ => scanItems fuel (s.skip 1).space >>= fun y => .ok (x.1 :: y.1, y.2)
  | _ => s.fail .noComma

/-- What is scanned behind the value of an entry. -/
def entryRest (fuel : Nat) (key : String) (x : Value × Scan) : Except Fault (List (String × Value) × Scan) :=
  let s := x.2.space
  match s.rest with
  | '\x7d' :: _ => .ok ([(key, x.1)], s.skip 1)
  | ',' :: _ => scanEntries fuel (s.skip 1).space >>= fun y => .ok ((key, x.1) :: y.1, y.2)
  | _ => s.fail .noComma

/-- What is scanned behind the key of an entry. -/
def keyRest (fuel : Nat) (x : String × Scan) : Except Fault (List (String × Value) × Scan) :=
  let s := x.2.space
  match s.rest with
  | ':' :: _ => scan fuel (s.skip 1).space >>= entryRest fuel x.1
  | _ => s.fail .noColon

section

variable (fuel : Nat) (r : List Char) (o : Nat)

theorem scan_quote : scan (fuel + 1) ⟨'"' :: r, o⟩ =
    scanText o (r.length + 1 + 1) ⟨r, o + 1⟩ [] >>= fun x => .ok (.text x.1, x.2) := rfl

theorem scan_bracket : scan (fuel + 1) ⟨'[' :: r, o⟩ = listRest fuel (Scan.space ⟨r, o + 1⟩) := rfl

theorem scan_brace : scan (fuel + 1) ⟨'\x7b' :: r, o⟩ = dictRest fuel (Scan.space ⟨r, o + 1⟩) := rfl

theorem scan_plain {c : Char} (hquote : c ≠ '"') (hbracket : c ≠ '[') (hbrace : c ≠ '\x7b') :
    scan (fuel + 1) ⟨c :: r, o⟩ = scanPlain ⟨c :: r, o⟩ := by
  rw [scan]
  split
  · rename_i h
    exact absurd (List.cons.inj h).1 hquote
  · rename_i h
    exact absurd (List.cons.inj h).1 hbracket
  · rename_i h
    exact absurd (List.cons.inj h).1 hbrace
  · rfl

theorem scan_nil : scan (fuel + 1) ⟨[], o⟩ = scanPlain ⟨[], o⟩ := rfl

theorem scanItems_succ (s : Scan) : scanItems (fuel + 1) s = scan fuel s >>= itemRest fuel := rfl

theorem scanEntries_quote : scanEntries (fuel + 1) ⟨'"' :: r, o⟩ =
    scanText o (r.length + 1 + 1) ⟨r, o + 1⟩ [] >>= keyRest fuel := rfl

theorem scanEntries_other {r : List Char} (h : r.head? ≠ some '"') :
    scanEntries (fuel + 1) ⟨r, o⟩ = .error ⟨.noKey, o⟩ := by
  rw [scanEntries]
  split
  · rename_i hquote
    rw [show r = _ from hquote] at h
    exact absurd rfl h
  · rfl

/-- What a round comes to, by what opens at the front. -/
theorem scan_cases (s : Scan) :
    (∃ r, s.rest = '"' :: r ∧ scan (fuel + 1) s =
      scanText s.offset (r.length + 1 + 1) ⟨r, s.offset + 1⟩ [] >>= fun x => .ok (.text x.1, x.2)) ∨
    (∃ r, s.rest = '[' :: r ∧ scan (fuel + 1) s = listRest fuel (Scan.space ⟨r, s.offset + 1⟩)) ∨
    (∃ r, s.rest = '\x7b' :: r ∧ scan (fuel + 1) s = dictRest fuel (Scan.space ⟨r, s.offset + 1⟩)) ∨
    scan (fuel + 1) s = scanPlain s := by
  obtain ⟨rest, o⟩ := s
  cases rest with
  | nil => exact Or.inr (Or.inr (Or.inr (scan_nil fuel o)))
  | cons c r =>
      by_cases hquote : c = '"'
      · rw [hquote]
        exact Or.inl ⟨r, rfl, scan_quote fuel r o⟩
      by_cases hbracket : c = '['
      · rw [hbracket]
        exact Or.inr (Or.inl ⟨r, rfl, scan_bracket fuel r o⟩)
      by_cases hbrace : c = '\x7b'
      · rw [hbrace]
        exact Or.inr (Or.inr (Or.inl ⟨r, rfl, scan_brace fuel r o⟩))
      exact Or.inr (Or.inr (Or.inr (scan_plain fuel r o hquote hbracket hbrace)))

end

/-! ## What is scanned -/

theorem space_rest (s : Scan) : ∃ space, Space space ∧ s.rest = space ++ s.space.rest :=
  ⟨_, fun _ hc => List.mem_takeWhile_imp hc, List.prefix_append_drop (List.takeWhile_prefix _)⟩

theorem rest_of_word? {s s' : Scan} {w : String} (h : s.word? w = some s') : s.rest = w.toList ++ s'.rest := by
  unfold Scan.word? at h
  split at h
  · rename_i hprefix
    cases h
    show s.rest = w.toList ++ s.rest.drop w.length
    rw [← String.length_toList]
    exact List.prefix_append_drop (List.isPrefixOf_iff_prefix.mp hprefix)
  · cases h

/-- What is left behind white space and one more character. -/
theorem rest_of_space {s : Scan} {c : Char} {tail : List Char} (h : s.space.rest = c :: tail) :
    ∃ space, Space space ∧ s.rest = space ++ c :: (s.space.skip 1).rest := by
  obtain ⟨space, hspace, hrest⟩ := space_rest s
  refine ⟨space, hspace, ?_⟩
  show s.rest = space ++ c :: s.space.rest.drop 1
  rw [hrest, h]
  rfl

/-- What is scanned as a word or a number is one. -/
theorem reads_of_scanPlain {s s' : Scan} {v : Value} (h : scanPlain s = .ok (v, s')) : Reads s.rest v s'.rest := by
  have hword {w : String} {u : Value} {s₁ : Scan} (hw : s.word? w = some s₁) (hmem : (w, u) ∈ words)
      (h : Except.ok (u, s₁) = (Except.ok (v, s') : Except Fault (Value × Scan))) : Reads s.rest v s'.rest := by
    cases h
    rw [rest_of_word? hw]
    exact .word hmem
  unfold scanPlain at h
  split at h
  · exact hword ‹_› (by simp [words]) h
  · exact hword ‹_› (by simp [words]) h
  · exact hword ‹_› (by simp [words]) h
  split at h
  · exact hword ‹_› (by simp [words]) h
  · exact hword ‹_› (by simp [words]) h
  · exact hword ‹_› (by simp [words]) h
  obtain ⟨rest, o⟩ := s
  obtain ⟨n, hn, rfl, rfl⟩ := numeral_of_scanNumber h
  exact .number hn

section

variable {fuel : Nat}
  (hvalue : ∀ s v s', scan fuel s = .ok (v, s') → Reads s.rest v s'.rest)
  (hitems : ∀ s vs s', scanItems fuel s = .ok (vs, s') → ReadsItems s.rest vs s'.rest)
  (hentries : ∀ s es s', scanEntries fuel s = .ok (es, s') → ReadsEntries s.rest es s'.rest)

include hitems in
theorem reads_of_listRest {r : List Char} {o : Nat} {v : Value} {s : Scan}
    (h : listRest fuel (Scan.space ⟨r, o⟩) = .ok (v, s)) : Reads ('[' :: r) v s.rest := by
  unfold listRest at h
  split at h
  · rename_i hclose
    cases h
    obtain ⟨space, hspace, hr⟩ := rest_of_space hclose
    have hreads := Reads.noItems (r := ((Scan.space ⟨r, o⟩).skip 1).rest) hspace
    rwa [← hr] at hreads
  · obtain ⟨⟨vs, s₁⟩, hscan, h⟩ := Outcome.bind_ok h
    cases h
    obtain ⟨space, hspace, hr⟩ := space_rest ⟨r, o⟩
    rw [show r = _ from hr]
    exact .list hspace (hitems _ _ _ hscan)

include hentries in
theorem reads_of_dictRest {r : List Char} {o : Nat} {v : Value} {s : Scan}
    (h : dictRest fuel (Scan.space ⟨r, o⟩) = .ok (v, s)) : Reads ('\x7b' :: r) v s.rest := by
  unfold dictRest at h
  split at h
  · rename_i hclose
    cases h
    obtain ⟨space, hspace, hr⟩ := rest_of_space hclose
    have hreads := Reads.noEntries (r := ((Scan.space ⟨r, o⟩).skip 1).rest) hspace
    rwa [← hr] at hreads
  · obtain ⟨⟨es, s₁⟩, hscan, h⟩ := Outcome.bind_ok h
    cases h
    obtain ⟨space, hspace, hr⟩ := space_rest ⟨r, o⟩
    rw [show r = _ from hr]
    exact .dict hspace (hentries _ _ _ hscan)

include hitems hentries in
theorem reads_of_scan_succ {s s' : Scan} {v : Value} (h : scan (fuel + 1) s = .ok (v, s')) :
    Reads s.rest v s'.rest := by
  rcases scan_cases fuel s with ⟨r, hr, hscan⟩ | ⟨r, hr, hscan⟩ | ⟨r, hr, hscan⟩ | hscan
  · rw [hscan] at h
    obtain ⟨⟨t, s₁⟩, htext, h⟩ := Outcome.bind_ok h
    cases h
    rw [hr]
    exact .text (quoted_of_scanText htext)
  · rw [hr]
    exact reads_of_listRest hitems (hscan.symm.trans h)
  · rw [hr]
    exact reads_of_dictRest hentries (hscan.symm.trans h)
  · exact reads_of_scanPlain (hscan.symm.trans h)

include hitems in
theorem reads_of_itemRest {t : List Char} {v : Value} {s s' : Scan} {vs : List Value} (hreads : Reads t v s.rest)
    (h : itemRest fuel (v, s) = .ok (vs, s')) : ReadsItems t vs s'.rest := by
  unfold itemRest at h
  dsimp only at h
  split at h
  · rename_i hclose
    cases h
    obtain ⟨space, hspace, hrest⟩ := rest_of_space hclose
    rw [hrest] at hreads
    exact .last hreads hspace
  · rename_i hcomma
    obtain ⟨⟨vs', s₂⟩, hscan, h⟩ := Outcome.bind_ok h
    cases h
    obtain ⟨space, hspace, hrest⟩ := rest_of_space hcomma
    obtain ⟨space', hspace', hrest'⟩ := space_rest (s.space.skip 1)
    rw [hrest, hrest'] at hreads
    exact .more hreads hspace hspace' (hitems _ _ _ hscan)
  · cases h

include hvalue hitems in
theorem reads_of_scanItems_succ {s s' : Scan} {vs : List Value} (h : scanItems (fuel + 1) s = .ok (vs, s')) :
    ReadsItems s.rest vs s'.rest := by
  rw [scanItems_succ] at h
  obtain ⟨⟨v, s₁⟩, hscan, h⟩ := Outcome.bind_ok h
  exact reads_of_itemRest hitems (hvalue _ _ _ hscan) h

include hentries in
theorem reads_of_entryRest {t space₁ space₂ t₁ : List Char} {key : String} {v : Value} {s s' : Scan}
    {es : List (String × Value)} (hkey : Quoted t key (space₁ ++ ':' :: (space₂ ++ t₁))) (hspace₁ : Space space₁)
    (hspace₂ : Space space₂) (hreads : Reads t₁ v s.rest) (h : entryRest fuel key (v, s) = .ok (es, s')) :
    ReadsEntries t es s'.rest := by
  unfold entryRest at h
  dsimp only at h
  split at h
  · rename_i hclose
    cases h
    obtain ⟨space₃, hspace₃, hrest₃⟩ := rest_of_space hclose
    rw [hrest₃] at hreads
    exact .last hkey hspace₁ hspace₂ hreads hspace₃
  · rename_i hcomma
    obtain ⟨⟨es', s₃⟩, hscan, h⟩ := Outcome.bind_ok h
    cases h
    obtain ⟨space₃, hspace₃, hrest₃⟩ := rest_of_space hcomma
    obtain ⟨space₄, hspace₄, hrest₄⟩ := space_rest (s.space.skip 1)
    rw [hrest₃, hrest₄] at hreads
    exact .more hkey hspace₁ hspace₂ hreads hspace₃ hspace₄ (hentries _ _ _ hscan)
  · cases h

include hvalue hentries in
theorem reads_of_keyRest {t : List Char} {key : String} {s s' : Scan} {es : List (String × Value)}
    (hkey : Quoted t key s.rest) (h : keyRest fuel (key, s) = .ok (es, s')) : ReadsEntries t es s'.rest := by
  unfold keyRest at h
  dsimp only at h
  split at h
  · rename_i hcolon
    obtain ⟨⟨v, s₁⟩, hscan, h⟩ := Outcome.bind_ok h
    obtain ⟨space₁, hspace₁, hrest₁⟩ := rest_of_space hcolon
    obtain ⟨space₂, hspace₂, hrest₂⟩ := space_rest (s.space.skip 1)
    rw [hrest₁, hrest₂] at hkey
    exact reads_of_entryRest hentries hkey hspace₁ hspace₂ (hvalue _ _ _ hscan) h
  · cases h

include hvalue hentries in
theorem reads_of_scanEntries_succ {s s' : Scan} {es : List (String × Value)}
    (h : scanEntries (fuel + 1) s = .ok (es, s')) : ReadsEntries s.rest es s'.rest := by
  obtain ⟨rest, o⟩ := s
  by_cases hquote : rest.head? = some '"'
  · obtain ⟨r, rfl⟩ := List.head?_eq_some_iff.mp hquote
    rw [scanEntries_quote] at h
    obtain ⟨⟨key, s₁⟩, htext, h⟩ := Outcome.bind_ok h
    exact reads_of_keyRest hvalue hentries (quoted_of_scanText htext) h
  · rw [scanEntries_other fuel o hquote] at h
    cases h

end

/-- What is scanned is at the front. -/
theorem reads_of_scans (fuel : Nat) :
    (∀ s v s', scan fuel s = .ok (v, s') → Reads s.rest v s'.rest) ∧
      (∀ s vs s', scanItems fuel s = .ok (vs, s') → ReadsItems s.rest vs s'.rest) ∧
      ∀ s es s', scanEntries fuel s = .ok (es, s') → ReadsEntries s.rest es s'.rest := by
  induction fuel with
  | zero => exact ⟨fun _ _ _ h => (nomatch h), fun _ _ _ h => (nomatch h), fun _ _ _ h => (nomatch h)⟩
  | succ fuel ih =>
      obtain ⟨hvalue, hitems, hentries⟩ := ih
      exact ⟨fun _ _ _ h => reads_of_scan_succ hitems hentries h,
        fun _ _ _ h => reads_of_scanItems_succ hvalue hitems h,
        fun _ _ _ h => reads_of_scanEntries_succ hvalue hentries h⟩

/-- What is parsed is written. -/
theorem document_of_parse {text : List Char} {v : Value} (h : parse text = .ok v) : Document text v := by
  unfold parse at h
  split at h
  · cases h
  · obtain ⟨⟨u, s⟩, hscan, h⟩ := Outcome.bind_ok h
    dsimp only at h
    split at h
    · rename_i hempty
      cases h
      obtain ⟨before, hbefore, htext⟩ := space_rest ⟨text, 0⟩
      obtain ⟨behind, hbehind, hrest⟩ := space_rest s
      have hreads := (reads_of_scans _).1 _ _ _ hscan
      rw [hrest, List.isEmpty_iff.mp hempty, List.append_nil] at hreads
      exact ⟨before, _, behind, htext, hbefore, hreads, hbehind⟩
    · cases h

end Value

end GrammarBench
