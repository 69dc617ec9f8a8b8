import GrammarBench.Proofs.ValueTexts

/-!
# Reading values

Every text that writes a value is parsed as that value, but for integers of too many digits.

* `Gives`: a scan that comes to a result, or to an integer of too many digits.
* `Reads.gives`: what stands at the front of a text is scanned.
* `document_iff_of_parse`, `not_document_of_parse`: what a text writes that is parsed, or that has a fault.
* `longRun_of_parse`: a text with an integer of too many digits has that many digits in a row.
* `parse_eq_ok`: what is parsed is what is written.
-/

namespace GrammarBench.Value

/-! ## One round -/

/-- What may stand behind a value. -/
def EndsValue (r : List Char) : Prop := ∀ c ∈ r.head?, isSpace c = true ∨ c = ',' ∨ c = ']' ∨ c = '\x7d'

theorem EndsValue.endsNumber {r : List Char} (h : EndsValue r) : EndsNumber r := by
  intro c hc
  rcases h c hc with hspace | rfl | rfl | rfl
  · rcases isSpace_iff.mp hspace with rfl | rfl | rfl | rfl <;> decide
  all_goals decide

theorem EndsValue.of_space {space : List Char} (hspace : Space space) {r : List Char} (hr : EndsValue r) :
    EndsValue (space ++ r) := by
  cases space with
  | nil => exact hr
  | cons c space =>
      intro d hd
      rw [← Option.some.inj hd]
      exact Or.inl (hspace c List.mem_cons_self)

theorem space_append {space r : List Char} (hspace : Space space) (hr : ∀ c ∈ r.head?, isSpace c = false) (o : Nat) :
    ∃ o', Scan.space ⟨space ++ r, o⟩ = ⟨r, o'⟩ := by
  have htake : (space ++ r).takeWhile isSpace = space := by
    rw [List.takeWhile_append_of_pos hspace]
    cases r with
    | nil => rw [List.takeWhile_nil, List.append_nil]
    | cons c r => rw [List.takeWhile_cons_of_neg (by rw [hr c rfl]; decide), List.append_nil]
  refine ⟨o + space.length, ?_⟩
  show Scan.mk ((space ++ r).drop ((space ++ r).takeWhile isSpace).length)
    (o + ((space ++ r).takeWhile isSpace).length) = _
  rw [htake, List.drop_left]

/-- A scan comes to a result and what is behind it, or to an integer of too many digits. -/
def Gives {α : Type} (x : Except Fault (α × Scan)) (a : α) (r : List Char) : Prop :=
  (∃ o, x = .ok (a, ⟨r, o⟩)) ∨ ∃ n o, x = .error ⟨.tooManyDigits n, o⟩

theorem Gives.bind {α β : Type} {x : Except Fault (α × Scan)} {f : α × Scan → Except Fault (β × Scan)} {a : α} {b : β}
    {r r' : List Char} (hx : Gives x a r) (hf : ∀ o, Gives (f (a, ⟨r, o⟩)) b r') : Gives (x >>= f) b r' := by
  obtain ⟨o, rfl⟩ | ⟨n, o, rfl⟩ := hx
  · exact hf o
  · exact Or.inr ⟨n, o, rfl⟩

theorem gives_ok {α : Type} (a : α) (r : List Char) (o : Nat) : Gives (.ok (a, ⟨r, o⟩)) a r := Or.inl ⟨o, rfl⟩

section

variable {fuel : Nat} {s r : List Char}

theorem scan_word {w : String} {v : Value} (hw : (w, v) ∈ words) (o : Nat) :
    scan (fuel + 1) ⟨w.toList ++ r, o⟩ = .ok (v, ⟨r, o + w.length⟩) := by
  simp only [words, List.mem_cons, Prod.mk.injEq, List.not_mem_nil, or_false] at hw
  rcases hw with ⟨rfl, rfl⟩ | ⟨rfl, rfl⟩ | ⟨rfl, rfl⟩ | ⟨rfl, rfl⟩ | ⟨rfl, rfl⟩ | ⟨rfl, rfl⟩
  all_goals rfl

theorem scan_quoted {t : String} (h : Quoted s t r) (o : Nat) : Gives (scan (fuel + 1) ⟨s, o⟩) (text t) r := by
  cases h with
  | @mk body _ us hus =>
      obtain ⟨o', htext⟩ := scanText_of_quoted (.mk hus) o (o + 1) (Nat.le_succ body.length)
      refine Or.inl ⟨o', ?_⟩
      rw [scan_quote, htext]
      rfl

/-- No number begins as a word does. -/
theorem words_front {e : String × Value} (he : e ∈ words) :
    ∃ c w, e.1.toList = c :: w ∧ c.isDigit = false ∧ (c = '-' → ∃ w', w = 'I' :: w') := by
  simp only [words, List.mem_cons, List.not_mem_nil, or_false] at he
  rcases he with rfl | rfl | rfl | rfl | rfl | rfl
  · exact ⟨'n', _, rfl, rfl, fun h => by cases h⟩
  · exact ⟨'t', _, rfl, rfl, fun h => by cases h⟩
  · exact ⟨'f', _, rfl, rfl, fun h => by cases h⟩
  · exact ⟨'N', _, rfl, rfl, fun h => by cases h⟩
  · exact ⟨'I', _, rfl, rfl, fun h => by cases h⟩
  · exact ⟨'-', _, rfl, rfl, fun _ => ⟨_, rfl⟩⟩

/-- Where no word begins, a number is scanned. -/
theorem scanPlain_eq (hwords : ∀ e ∈ words, ¬ e.1.toList <+: s) (o : Nat) : scanPlain ⟨s, o⟩ = scanNumber ⟨s, o⟩ := by
  have hnone : ∀ e ∈ words, Scan.word? ⟨s, o⟩ e.1 = none := fun e he =>
    if_neg fun h => hwords e he (List.isPrefixOf_iff_prefix.mp h)
  simp only [words, List.forall_mem_cons] at hnone
  obtain ⟨hnull, htrue, hfalse, hnan, hinfinity, hminus, -⟩ := hnone
  unfold scanPlain
  rw [hnull, htrue, hfalse]
  dsimp only
  rw [hnan, hinfinity, hminus]

theorem scan_number {n : Numeral} (hn : n.WellFormed) (hr : EndsNumber r) (o : Nat) :
    Gives (scan (fuel + 1) ⟨n.text ++ r, o⟩) n.value r := by
  obtain ⟨c, t, htext, hfront⟩ := Numeral.exists_front hn
  have hwords : ∀ e ∈ words, ¬ e.1.toList <+: c :: (t ++ r) := by
    intro e he hprefix
    obtain ⟨d, w, hw, hdigit, hminus⟩ := words_front he
    rw [hw, List.cons_prefix_cons] at hprefix
    obtain ⟨rfl, hprefix⟩ := hprefix
    rcases hfront with hc | ⟨hc, d', t', rfl, hd'⟩
    · rw [hdigit] at hc
      cases hc
    · obtain ⟨w', rfl⟩ := hminus hc
      rw [List.cons_append, List.cons_prefix_cons] at hprefix
      rw [← hprefix.1] at hd'
      cases hd'
  have hscan : scan (fuel + 1) ⟨n.text ++ r, o⟩ = scanNumber ⟨n.text ++ r, o⟩ := by
    rw [htext, List.cons_append]
    have hne (d : Char) (hd : d.isDigit = false) (hminus : d ≠ '-') : c ≠ d := by
      rintro rfl
      rcases hfront with hc | ⟨hc, -⟩
      · rw [hd] at hc
        cases hc
      · exact hminus hc
    rw [scan_plain fuel (t ++ r) o (hne '"' rfl (by decide)) (hne '[' rfl (by decide)) (hne '\x7b' rfl (by decide))]
    exact scanPlain_eq hwords o
  obtain ⟨o', hnumber⟩ := scanNumber_text hn hr o
  rw [hscan, hnumber]
  split
  · exact Or.inr ⟨_, o, rfl⟩
  · exact gives_ok _ _ _

/-- A character that is no white space stays in front. -/
theorem space_cons {space : List Char} (hspace : Space space) {c : Char} (hc : isSpace c = false) (o : Nat) :
    ∃ o', Scan.space ⟨space ++ c :: r, o⟩ = ⟨c :: r, o'⟩ :=
  space_append hspace (fun d hd => by rwa [← Option.some.inj hd]) o

theorem scan_noItems {space : List Char} (hspace : Space space) (o : Nat) :
    Gives (scan (fuel + 1) ⟨'[' :: (space ++ ']' :: r), o⟩) (list []) r := by
  obtain ⟨o', hrest⟩ := space_cons (r := r) hspace (c := ']') rfl (o + 1)
  rw [scan_bracket, hrest]
  exact gives_ok _ r (o' + 1)

theorem scan_noEntries {space : List Char} (hspace : Space space) (o : Nat) :
    Gives (scan (fuel + 1) ⟨'\x7b' :: (space ++ '\x7d' :: r), o⟩) (dict []) r := by
  obtain ⟨o', hrest⟩ := space_cons (r := r) hspace (c := '\x7d') rfl (o + 1)
  rw [scan_brace, hrest]
  exact gives_ok _ r (o' + 1)

theorem scan_items {space : List Char} {c : Char} {vs : List Value} (hspace : Space space) (hc : opensValue c = true)
    (hitems : ∀ o, Gives (scanItems fuel ⟨c :: s, o⟩) vs r) (o : Nat) :
    Gives (scan (fuel + 1) ⟨'[' :: (space ++ c :: s), o⟩) (list vs) r := by
  obtain ⟨o', hrest⟩ := space_cons (r := s) hspace (not_isSpace_of_opensValue hc) (o + 1)
  rw [scan_bracket, hrest]
  unfold listRest
  split
  · rename_i h
    rw [(List.cons.inj h).1] at hc
    cases hc
  · exact (hitems o').bind fun o => gives_ok _ r o

theorem scan_entries {space : List Char} {es : List (String × Value)} (hspace : Space space)
    (hentries : ∀ o, Gives (scanEntries fuel ⟨'"' :: s, o⟩) es r) (o : Nat) :
    Gives (scan (fuel + 1) ⟨'\x7b' :: (space ++ '"' :: s), o⟩) (dict (Ordered.ofList es)) r := by
  obtain ⟨o', hrest⟩ := space_cons (r := s) hspace (c := '"') rfl (o + 1)
  rw [scan_brace, hrest]
  exact (hentries o').bind fun o => gives_ok _ r o

theorem scanItems_last {space : List Char} {v : Value} (hspace : Space space) {o : Nat}
    (hvalue : Gives (scan fuel ⟨s, o⟩) v (space ++ ']' :: r)) : Gives (scanItems (fuel + 1) ⟨s, o⟩) [v] r := by
  rw [scanItems_succ]
  refine hvalue.bind fun o' => ?_
  obtain ⟨o'', hrest⟩ := space_cons (r := r) hspace (c := ']') rfl o'
  unfold itemRest
  dsimp only
  rw [hrest]
  exact gives_ok _ r (o'' + 1)

theorem scanItems_more {space space' s' : List Char} {c : Char} {v : Value} {vs : List Value} (hspace : Space space)
    (hspace' : Space space') (hc : opensValue c = true) {o : Nat}
    (hvalue : Gives (scan fuel ⟨s, o⟩) v (space ++ ',' :: (space' ++ c :: s')))
    (hitems : ∀ o, Gives (scanItems fuel ⟨c :: s', o⟩) vs r) : Gives (scanItems (fuel + 1) ⟨s, o⟩) (v :: vs) r := by
  rw [scanItems_succ]
  refine hvalue.bind fun o' => ?_
  unfold itemRest
  obtain ⟨o₁, hrest⟩ := space_cons (r := space' ++ c :: s') hspace (c := ',') rfl o'
  obtain ⟨o₂, hrest'⟩ := space_cons (r := s') hspace' (not_isSpace_of_opensValue hc) (o₁ + 1)
  dsimp only
  rw [hrest]
  dsimp only [Scan.skip, List.drop]
  rw [hrest']
  exact (hitems o₂).bind fun o => gives_ok _ r o

theorem scanEntries_key {key : String} {space₁ space₂ t : List Char} {c : Char}
    (hkey : Quoted s key (space₁ ++ ':' :: (space₂ ++ c :: t))) (hspace₁ : Space space₁) (hspace₂ : Space space₂)
    (hc : opensValue c = true) (o : Nat) :
    ∃ o', scanEntries (fuel + 1) ⟨s, o⟩ = scan fuel ⟨c :: t, o'⟩ >>= entryRest fuel key := by
  cases hkey with
  | @mk body _ us hus =>
      obtain ⟨o₁, htext⟩ := scanText_of_quoted (.mk hus) o (o + 1) (Nat.le_succ body.length)
      obtain ⟨o₂, hrest⟩ := space_cons (r := space₂ ++ c :: t) hspace₁ (c := ':') rfl o₁
      obtain ⟨o₃, hrest'⟩ := space_cons (r := t) hspace₂ (not_isSpace_of_opensValue hc) (o₂ + 1)
      refine ⟨o₃, ?_⟩
      rw [scanEntries_quote, htext]
      show keyRest fuel (_, ⟨space₁ ++ ':' :: (space₂ ++ c :: t), o₁⟩) = _
      unfold keyRest
      dsimp only
      rw [hrest]
      dsimp only [Scan.skip, List.drop]
      rw [hrest']
      rfl

theorem entryRest_last {key : String} {v : Value} {space : List Char} (hspace : Space space) (o : Nat) :
    Gives (entryRest fuel key (v, ⟨space ++ '\x7d' :: r, o⟩)) [(key, v)] r := by
  obtain ⟨o', hrest⟩ := space_cons (r := r) hspace (c := '\x7d') rfl o
  unfold entryRest
  dsimp only
  rw [hrest]
  exact gives_ok _ r (o' + 1)

theorem entryRest_more {key : String} {v : Value} {es : List (String × Value)} {space space' s' : List Char}
    (hspace : Space space) (hspace' : Space space') (hentries : ∀ o, Gives (scanEntries fuel ⟨'"' :: s', o⟩) es r)
    (o : Nat) : Gives (entryRest fuel key (v, ⟨space ++ ',' :: (space' ++ '"' :: s'), o⟩)) ((key, v) :: es) r := by
  obtain ⟨o₁, hrest⟩ := space_cons (r := space' ++ '"' :: s') hspace (c := ',') rfl o
  obtain ⟨o₂, hrest'⟩ := space_cons (r := s') hspace' (c := '"') rfl (o₁ + 1)
  unfold entryRest
  dsimp only
  rw [hrest]
  dsimp only [Scan.skip, List.drop]
  rw [hrest']
  exact (hentries o₂).bind fun o => gives_ok _ r o

end

/-! ## All rounds -/

theorem endsValue_cons {space r : List Char} (hspace : Space space) {c : Char} (hc : c = ',' ∨ c = ']' ∨ c = '\x7d') :
    EndsValue (space ++ c :: r) :=
  EndsValue.of_space hspace fun d hd => by
    rw [← Option.some.inj hd]
    exact Or.inr hc

mutual

/-- A value is scanned when there is fuel for two rounds a character. -/
theorem Reads.gives {s r : List Char} {v : Value} : Reads s v r → EndsValue r →
    ∀ fuel : Nat, 2 * s.length ≤ fuel + 1 → ∀ o, Gives (scan (fuel + 1) ⟨s, o⟩) v r
  | .word hw => fun _ _ _ o => by
      rw [scan_word hw]
      exact gives_ok _ _ _
  | .number hn => fun hr _ _ o => scan_number hn hr.endsNumber o
  | .text ht => fun _ _ _ o => scan_quoted ht o
  | .noItems hspace => fun _ _ _ o => scan_noItems hspace o
  | .list (s := s) hspace hitems => fun _ fuel hfuel o => by
      obtain ⟨c, t, hs, hc⟩ := hitems.front
      obtain ⟨fuel, rfl⟩ : ∃ k, fuel = k + 1 := ⟨fuel - 1, by simp at hfuel; omega⟩
      have hgives (o : Nat) := hitems.gives fuel (by simp at hfuel; omega) o
      rw [hs] at hgives ⊢
      exact scan_items hspace hc hgives o
  | .noEntries hspace => fun _ _ _ o => scan_noEntries hspace o
  | .dict (s := s) hspace hentries => fun _ fuel hfuel o => by
      obtain ⟨t, hs⟩ := hentries.front
      obtain ⟨fuel, rfl⟩ : ∃ k, fuel = k + 1 := ⟨fuel - 1, by simp at hfuel; omega⟩
      have hgives (o : Nat) := hentries.gives fuel (by simp at hfuel; omega) o
      rw [hs] at hgives ⊢
      exact scan_entries hspace hgives o

theorem ReadsItems.gives {s r : List Char} {vs : List Value} : ReadsItems s vs r →
    ∀ fuel : Nat, 2 * s.length ≤ fuel → ∀ o, Gives (scanItems (fuel + 1) ⟨s, o⟩) vs r
  | .last hv hspace => fun fuel hfuel o => by
      have hlength := hv.behind.2
      obtain ⟨fuel, rfl⟩ : ∃ k, fuel = k + 1 := ⟨fuel - 1, by omega⟩
      exact scanItems_last hspace (hv.gives (endsValue_cons hspace (by simp)) fuel hfuel o)
  | .more hv hspace hspace' hitems => fun fuel hfuel o => by
      have hlength := hv.behind.2
      obtain ⟨fuel, rfl⟩ : ∃ k, fuel = k + 1 := ⟨fuel - 1, by omega⟩
      obtain ⟨c, t, hs', hc⟩ := hitems.front
      have hgives (o : Nat) := hitems.gives fuel (by simp at hlength; omega) o
      have hvalue := hv.gives (endsValue_cons hspace (by simp)) fuel hfuel o
      rw [hs'] at hgives hvalue
      exact scanItems_more hspace hspace' hc hvalue hgives

theorem ReadsEntries.gives {s r : List Char} {es : List (String × Value)} : ReadsEntries s es r →
    ∀ fuel : Nat, 2 * s.length ≤ fuel → ∀ o, Gives (scanEntries (fuel + 1) ⟨s, o⟩) es r
  | .last hkey hspace₁ hspace₂ hv hspace₃ => fun fuel hfuel o => by
      have hlength := hkey.behind.2
      simp at hlength
      obtain ⟨fuel, rfl⟩ : ∃ k, fuel = k + 1 := ⟨fuel - 1, by omega⟩
      obtain ⟨c, t, hs₁, hc⟩ := hv.front
      have hvalue (o : Nat) := hv.gives (endsValue_cons hspace₃ (by simp)) fuel (by omega) o
      rw [hs₁] at hkey hvalue
      obtain ⟨o', hscan⟩ := scanEntries_key hkey hspace₁ hspace₂ hc o
      rw [hscan]
      exact (hvalue o').bind fun o => entryRest_last hspace₃ o
  | .more hkey hspace₁ hspace₂ hv hspace₃ hspace₄ hentries => fun fuel hfuel o => by
      have hlength := hkey.behind.2
      have hlength' := hv.behind.2
      simp at hlength hlength'
      obtain ⟨fuel, rfl⟩ : ∃ k, fuel = k + 1 := ⟨fuel - 1, by omega⟩
      obtain ⟨c, t, hs₁, hc⟩ := hv.front
      obtain ⟨t', hs'⟩ := hentries.front
      have hgives (o : Nat) := hentries.gives fuel (by omega) o
      have hvalue (o : Nat) := hv.gives (endsValue_cons hspace₃ (by simp)) fuel (by omega) o
      rw [hs₁] at hkey hvalue
      rw [hs'] at hgives hvalue
      obtain ⟨o', hscan⟩ := scanEntries_key hkey hspace₁ hspace₂ hc o
      rw [hscan]
      exact (hvalue o').bind fun o => entryRest_more hspace₃ hspace₄ hgives o

end

theorem head?_ne_byteOrderMark {before t : List Char} {c : Char} (hbefore : Space before)
    (hc : opensValue c = true) : (before ++ c :: t).head? ≠ some '\ufeff' := by
  cases before with
  | nil =>
      intro h
      rw [Option.some.inj h] at hc
      cases hc
  | cons d before =>
      intro h
      have hd := hbefore d List.mem_cons_self
      rw [Option.some.inj h] at hd
      cases hd

/-- What is written is parsed, unless an integer has too many digits. -/
theorem parse_of_document {text : List Char} {v : Value} (h : Document text v) :
    parse text = .ok v ∨ ∃ n o, parse text = .error ⟨.tooManyDigits n, o⟩ := by
  obtain ⟨before, s, behind, rfl, hbefore, hreads, hbehind⟩ := h
  obtain ⟨c, t, rfl, hc⟩ := hreads.front
  have hends : EndsValue behind := by
    have hnil := EndsValue.of_space hbehind (r := []) fun c hc => nomatch hc
    rwa [List.append_nil] at hnil
  obtain ⟨o, hspace⟩ := space_cons (r := t) hbefore (not_isSpace_of_opensValue hc) 0
  have hfuel : 2 * (c :: t).length ≤ 2 * (before ++ c :: t).length + 1 + 1 := by
    rw [List.length_append]
    omega
  unfold parse
  rw [if_neg (head?_ne_byteOrderMark hbefore hc), hspace]
  obtain ⟨o', hscan⟩ | ⟨n, o', hscan⟩ := hreads.gives hends _ hfuel o
  · left
    obtain ⟨o'', hrest⟩ := space_append (r := []) hbehind (fun c hc => nomatch hc) o'
    rw [List.append_nil] at hrest
    rw [hscan]
    dsimp only [bind, Except.bind]
    rw [hrest]
    rfl
  · right
    rw [hscan]
    exact ⟨n, o', rfl⟩

/-- A text that is parsed writes what it is parsed as, and nothing else. -/
theorem document_iff_of_parse {text : List Char} {v v' : Value} (h : parse text = .ok v) :
    Document text v' ↔ v' = v := by
  constructor
  · intro hdocument
    rcases parse_of_document hdocument with hparse | ⟨n, o, hparse⟩
    · exact Except.ok.inj (hparse.symm.trans h)
    · rw [h] at hparse
      cases hparse
  · rintro rfl
    exact document_of_parse h

/-- A text with any other fault than an integer of too many digits writes nothing. -/
theorem not_document_of_parse {text : List Char} {f : Fault} (h : parse text = .error f)
    (hother : ∀ n, f.defect ≠ .tooManyDigits n) (v : Value) : ¬ Document text v := by
  intro hdocument
  rcases parse_of_document hdocument with hparse | ⟨n, o, hparse⟩
  · rw [h] at hparse
    cases hparse
  · exact hother n (congrArg Fault.defect (Except.error.inj (h.symm.trans hparse)))

/-! ## Integers of too many digits -/

theorem suffix_skip (s : Scan) (n : Nat) : (s.skip n).rest <:+ s.rest := List.drop_suffix n s.rest

theorem suffix_space (s : Scan) : s.space.rest <:+ s.rest := suffix_skip s _

theorem suffix_next (s : Scan) : (s.space.skip 1).space.rest <:+ s.rest :=
  ((suffix_space _).trans (suffix_skip s.space 1)).trans (suffix_space s)

section

variable {fuel n o : Nat}
  (hvalue : ∀ s, scan fuel s = .error ⟨.tooManyDigits n, o⟩ → LongRun s.rest)
  (hitems : ∀ s, scanItems fuel s = .error ⟨.tooManyDigits n, o⟩ → LongRun s.rest)
  (hentries : ∀ s, scanEntries fuel s = .error ⟨.tooManyDigits n, o⟩ → LongRun s.rest)

include hitems in
theorem longRun_of_listRest {s : Scan} (h : listRest fuel s.space = .error ⟨.tooManyDigits n, o⟩) :
    LongRun s.rest := by
  unfold listRest at h
  split at h
  · cases h
  · rcases Outcome.bind_error h with hscan | ⟨x, -, h⟩
    · exact (hitems _ hscan).of_suffix (suffix_space s)
    · cases h

include hentries in
theorem longRun_of_dictRest {s : Scan} (h : dictRest fuel s.space = .error ⟨.tooManyDigits n, o⟩) :
    LongRun s.rest := by
  unfold dictRest at h
  split at h
  · cases h
  · rcases Outcome.bind_error h with hscan | ⟨x, -, h⟩
    · exact (hentries _ hscan).of_suffix (suffix_space s)
    · cases h

theorem longRun_of_scanPlain {s : Scan} (h : scanPlain s = .error ⟨.tooManyDigits n, o⟩) : LongRun s.rest := by
  unfold scanPlain at h
  split at h
  iterate 3 cases h
  split at h
  iterate 3 cases h
  exact longRun_of_scanNumber h

include hitems hentries in
theorem longRun_of_scan_succ {s : Scan} (h : scan (fuel + 1) s = .error ⟨.tooManyDigits n, o⟩) : LongRun s.rest := by
  rcases scan_cases fuel s with ⟨r, hr, hscan⟩ | ⟨r, hr, hscan⟩ | ⟨r, hr, hscan⟩ | hscan
  · rw [hscan] at h
    rcases Outcome.bind_error h with htext | ⟨x, -, h⟩
    · exact absurd htext scanText_ne_tooManyDigits
    · cases h
  · rw [hr]
    exact (longRun_of_listRest hitems (hscan.symm.trans h)).of_suffix (List.suffix_cons _ _)
  · rw [hr]
    exact (longRun_of_dictRest hentries (hscan.symm.trans h)).of_suffix (List.suffix_cons _ _)
  · exact longRun_of_scanPlain (hscan.symm.trans h)

include hvalue hitems in
theorem longRun_of_scanItems_succ {s : Scan} (h : scanItems (fuel + 1) s = .error ⟨.tooManyDigits n, o⟩) :
    LongRun s.rest := by
  rw [scanItems_succ] at h
  rcases Outcome.bind_error h with hscan | ⟨⟨v, s₁⟩, hscan, h⟩
  · exact hvalue s hscan
  · have hsuffix : s₁.rest <:+ s.rest := ((reads_of_scans _).1 _ _ _ hscan).behind.1
    unfold itemRest at h
    dsimp only at h
    split at h
    · cases h
    · rcases Outcome.bind_error h with hscan' | ⟨x, -, h⟩
      · exact (hitems _ hscan').of_suffix ((suffix_next s₁).trans hsuffix)
      · cases h
    · cases h

include hentries in
theorem longRun_of_entryRest {key : String} {x : Value × Scan}
    (h : entryRest fuel key x = .error ⟨.tooManyDigits n, o⟩) : LongRun x.2.rest := by
  unfold entryRest at h
  dsimp only at h
  split at h
  · cases h
  · rcases Outcome.bind_error h with hscan | ⟨y, -, h⟩
    · exact (hentries _ hscan).of_suffix (suffix_next x.2)
    · cases h
  · cases h

include hvalue hentries in
theorem longRun_of_keyRest {x : String × Scan} (h : keyRest fuel x = .error ⟨.tooManyDigits n, o⟩) :
    LongRun x.2.rest := by
  unfold keyRest at h
  dsimp only at h
  split at h
  · refine LongRun.of_suffix ?_ (suffix_next x.2)
    rcases Outcome.bind_error h with hscan | ⟨y, hscan, h⟩
    · exact hvalue _ hscan
    · exact (longRun_of_entryRest hentries h).of_suffix ((reads_of_scans _).1 _ _ _ hscan).behind.1
  · cases h

include hvalue hentries in
theorem longRun_of_scanEntries_succ {s : Scan} (h : scanEntries (fuel + 1) s = .error ⟨.tooManyDigits n, o⟩) :
    LongRun s.rest := by
  obtain ⟨rest, o⟩ := s
  by_cases hquote : rest.head? = some '"'
  · obtain ⟨r, rfl⟩ := List.head?_eq_some_iff.mp hquote
    rw [scanEntries_quote] at h
    rcases Outcome.bind_error h with htext | ⟨x, htext, h⟩
    · exact absurd htext scanText_ne_tooManyDigits
    · exact (longRun_of_keyRest hvalue hentries h).of_suffix (quoted_of_scanText htext).behind.1
  · rw [scanEntries_other fuel o hquote] at h
    cases h

end

theorem longRun_of_scans (fuel n o : Nat) :
    (∀ s, scan fuel s = .error ⟨.tooManyDigits n, o⟩ → LongRun s.rest) ∧
      (∀ s, scanItems fuel s = .error ⟨.tooManyDigits n, o⟩ → LongRun s.rest) ∧
      ∀ s, scanEntries fuel s = .error ⟨.tooManyDigits n, o⟩ → LongRun s.rest := by
  induction fuel with
  | zero => exact ⟨fun _ h => (nomatch h), fun _ h => (nomatch h), fun _ h => (nomatch h)⟩
  | succ fuel ih =>
      obtain ⟨hvalue, hitems, hentries⟩ := ih
      exact ⟨fun _ h => longRun_of_scan_succ hitems hentries h, fun _ h => longRun_of_scanItems_succ hvalue hitems h,
        fun _ h => longRun_of_scanEntries_succ hvalue hentries h⟩

theorem longRun_of_parse {text : List Char} {n o : Nat} (h : parse text = .error ⟨.tooManyDigits n, o⟩) :
    LongRun text := by
  unfold parse at h
  split at h
  · cases h
  · rcases Outcome.bind_error h with hscan | ⟨x, -, h⟩
    · exact ((longRun_of_scans _ n o).1 _ hscan).of_suffix (suffix_space ⟨text, 0⟩)
    · dsimp only at h
      split at h <;> cases h

/-- **Reading values.** A text without more digits in a row than an integer may have gives the value that it
writes, and no other text gives any. -/
theorem parse_eq_ok {text : List Char} (h : ¬ LongRun text) (v : Value) : parse text = .ok v ↔ Document text v := by
  refine ⟨document_of_parse, fun hdocument => ?_⟩
  rcases parse_of_document hdocument with hparse | ⟨n, o, hparse⟩
  · exact hparse
  · exact absurd (longRun_of_parse hparse) h

end GrammarBench.Value
