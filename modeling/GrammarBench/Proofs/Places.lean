import Mathlib.Data.List.Nodup
import GrammarBench.Files
import GrammarBench.Proofs.Paths

/-!
# The places that paths lead to

A path leads part by part from one place of the tree to the next. Its normal form leads to the same place, if the path
leads to one.

* `Files.walk`: the way along the parts of a path.
* `Files.walk_foldl_addPart`: the parts that a normal form keeps lead to the same place.
* `Files.place_normal_below`: the place of an inner path below a directory.
* `Files.Proper`: trees in which every place stands once; what their directories list.
-/

namespace GrammarBench.Files

open GrammarBench.Path

variable {fs : Files} {place place' : List String} {part : String}

/-! ## Ways -/

/-- Goes along some parts from a place. -/
def walk (fs : Files) (place : List String) (ps : List String) : Except PathFault (List String) :=
  ps.foldlM (fun place part => fs.step place part) place

/-- The place at which a path starts. -/
def start (fs : Files) (path : String) : List String := if path.startsWith "/" then [] else fs.working

theorem place_eq_walk {path : String} (h : path ≠ "") : fs.place path = fs.walk (fs.start path) (parts path) :=
  if_neg h

theorem start_append {front : String} (h : front ≠ "") (rest : String) :
    fs.start (front ++ rest) = fs.start front := by
  unfold start
  simp only [startsWith_slash, isRelative_append h]

theorem start_of_rootOf {path : String} : fs.start path = if rootOf path = "" then fs.working else [] := by
  unfold start
  simp only [startsWith_slash, rootOf_eq_empty_iff, ite_not]

theorem walk_append (place : List String) (ps qs : List String) :
    fs.walk place (ps ++ qs) = fs.walk place ps >>= fun place => fs.walk place qs := List.foldlM_append

theorem walk_cons (place : List String) (part : String) (ps : List String) :
    fs.walk place (part :: ps) = fs.step place part >>= fun place => fs.walk place ps := List.foldlM_cons

theorem walk_singleton (place : List String) (part : String) : fs.walk place [part] = fs.step place part := by
  rw [walk_cons]
  cases fs.step place part <;> rfl

/-- A way along two lists of parts is one along the first and then one along the second. -/
theorem walk_append_ok {ps qs : List String} :
    fs.walk place (ps ++ qs) = .ok place' ↔ ∃ q, fs.walk place ps = .ok q ∧ fs.walk q qs = .ok place' := by
  rw [walk_append]
  cases fs.walk place ps with
  | error f => exact ⟨nofun, nofun⟩
  | ok q => exact ⟨fun h => ⟨q, rfl, h⟩, by rintro ⟨_, ⟨⟩, h⟩; exact h⟩

theorem walk_cons_ok {ps : List String} :
    fs.walk place (part :: ps) = .ok place' ↔ ∃ q, fs.step place part = .ok q ∧ fs.walk q ps = .ok place' := by
  rw [← List.singleton_append, walk_append_ok, walk_singleton]

/-! ## Steps -/

/-- Steps are made from directories only. -/
theorem directory_of_step (h : fs.step place part = .ok place') : fs.at? place = some .directory := by
  unfold step at h
  split at h
  · cases h
  · assumption
  · cases h

theorem step_unnamed (hplace : fs.at? place = some .directory) (hpart : part = "" ∨ part = ".") :
    fs.step place part = .ok place := by
  unfold step
  rw [hplace]
  exact if_pos (by simpa using hpart)

theorem eq_of_step_unnamed (h : fs.step place part = .ok place') (hpart : part = "" ∨ part = ".") : place' = place :=
  Except.ok.inj (h.symm.trans (step_unnamed (directory_of_step h) hpart))

theorem step_up (hplace : fs.at? place = some .directory) : fs.step place ".." = .ok place.dropLast := by
  unfold step
  rw [hplace]
  rfl

theorem eq_of_step_name (h : fs.step place part = .ok place') (hpart : IsName part) : place' = place ++ [part] := by
  have hplace := directory_of_step h
  obtain ⟨hempty, hdot, hup, -⟩ := hpart
  unfold step at h
  rw [hplace] at h
  dsimp only at h
  rw [if_neg (by simp [hempty, hdot]), if_neg hup] at h
  split at h
  · cases h
  · split at h
    · exact (Except.ok.inj h).symm
    · cases h

theorem walk_names {ns : List String} (h : fs.walk place ns = .ok place') (hns : ∀ n ∈ ns, IsName n) :
    place' = place ++ ns := by
  induction ns generalizing place with
  | nil => exact (Except.ok.inj h).symm.trans (List.append_nil place).symm
  | cons n rest ih =>
      obtain ⟨q, hstep, hrest⟩ := walk_cons_ok.mp h
      obtain rfl := eq_of_step_name hstep (hns n List.mem_cons_self)
      rw [ih hrest fun m hm => hns m (List.mem_cons_of_mem n hm), List.append_assoc]
      rfl

theorem walk_slashes (hplace : fs.at? place = some .directory) (k : Nat) :
    fs.walk place (List.replicate k "") = .ok place := by
  induction k with
  | zero => rfl
  | succ k ih => exact walk_cons_ok.mpr ⟨place, step_unnamed hplace (Or.inl rfl), ih⟩

theorem eq_of_walk_slashes {k : Nat} (h : fs.walk place (List.replicate k "") = .ok place') : place' = place := by
  induction k generalizing place with
  | zero => exact (Except.ok.inj h).symm
  | succ k ih =>
      obtain ⟨q, hstep, hrest⟩ := walk_cons_ok.mp h
      rw [ih hrest, eq_of_step_unnamed hstep (Or.inl rfl)]

/-! ## Normal forms -/

/-- What is kept of one more part leads where the part does. -/
theorem walk_addPart {origin : List String} {rooted : Bool} {before : List String}
    (hrooted : rooted = true → origin = []) (hsettled : Settled rooted before)
    (hwalk : fs.walk origin before.reverse = .ok place) (hstep : fs.step place part = .ok place') :
    fs.walk origin (addPart rooted before part).reverse = .ok place' := by
  have hconcat : fs.walk origin (part :: before).reverse = .ok place' := by
    rw [List.reverse_cons]
    exact walk_append_ok.mpr ⟨place, hwalk, (walk_singleton place part).trans hstep⟩
  unfold addPart
  split
  · next hunnamed =>
    rw [eq_of_step_unnamed hstep (by simpa using hunnamed)]
    exact hwalk
  · split
    · exact hconcat
    · next hup =>
      obtain rfl := not_not.mp hup
      cases before with
      | nil =>
          cases rooted with
          | false => exact hconcat
          | true =>
              obtain rfl : origin = place := Except.ok.inj hwalk
              obtain rfl := hrooted rfl
              exact (step_up (directory_of_step hstep)).symm.trans hstep
      | cons last rest =>
          dsimp only
          split
          · exact hconcat
          · next hlast =>
            -- The part before is a name, and the way up undoes it.
            obtain ⟨⟨hempty, hdot, hslash⟩, -, -⟩ := hsettled
            rw [List.reverse_cons] at hwalk
            obtain ⟨q, hrest, hname⟩ := walk_append_ok.mp hwalk
            obtain rfl := eq_of_step_name ((walk_singleton q last).symm.trans hname) ⟨hempty, hdot, hlast, hslash⟩
            rw [step_up (directory_of_step hstep), List.dropLast_concat] at hstep
            rw [hrest, ← hstep]

theorem walk_foldl_addPart {origin : List String} {rooted : Bool} {ps before : List String}
    (hrooted : rooted = true → origin = []) (hsettled : Settled rooted before) (hps : ∀ q ∈ ps, '/' ∉ q.toList)
    (hbefore : fs.walk origin before.reverse = .ok place) (hwalk : fs.walk place ps = .ok place') :
    fs.walk origin (ps.foldl (addPart rooted) before).reverse = .ok place' := by
  induction ps generalizing before place with
  | nil => exact hbefore.trans hwalk
  | cons part rest ih =>
      obtain ⟨q, hstep, hrest⟩ := walk_cons_ok.mp hwalk
      have hpart := hps part List.mem_cons_self
      exact ih (hsettled.addPart hpart) (fun q hq => hps q (List.mem_cons_of_mem part hq))
        (walk_addPart hrooted hsettled hbefore hstep) hrest

theorem eq_nil_of_intercalate {ns : List String} (hns : ∀ n ∈ ns, n ≠ "" ∧ '/' ∉ n.toList)
    (h : "/".intercalate ns = "") : ns = [] := by
  by_contra hne
  have hparts : [""] = ns := by
    rw [← parts_intercalate hne fun n hn => (hns n hn).2, h]
    rfl
  exact (hns "" (hparts ▸ List.mem_singleton_self _)).1 rfl

/-- The place of a root and some parts. -/
theorem place_spelled {root : String} {ns : List String} (hroot : IsRoot root)
    (hns : ∀ n ∈ ns, n ≠ "" ∧ '/' ∉ n.toList)
    (hdirectory : fs.at? (if root = "" then fs.working else []) = some .directory) :
    fs.place (spelled root ns) = fs.walk (if root = "" then fs.working else []) ns := by
  unfold spelled
  split
  · next hempty =>
    obtain ⟨rfl, hrest⟩ := String.append_eq_empty_iff.mp hempty
    obtain rfl := eq_nil_of_intercalate hns hrest
    have hstart : fs.start "." = fs.working := if_neg (by decide +kernel)
    rw [place_eq_walk (by decide), hstart]
    exact (walk_singleton fs.working ".").trans (step_unnamed hdirectory (Or.inr rfl))
  · next hne =>
    have hrelative : IsRelative ("/".intercalate ns) := isRelative_intercalate hns
    rw [place_eq_walk hne, start_of_rootOf, rootOf_append (Or.inl hrelative), rootOf_root hroot]
    generalize (if root = "" then fs.working else []) = origin at hdirectory
    have hparts : fs.walk origin (parts ("/".intercalate ns)) = fs.walk origin ns := by
      cases ns with
      | nil => exact (walk_singleton origin "").trans (step_unnamed hdirectory (Or.inl rfl))
      | cons n rest => rw [parts_intercalate (List.cons_ne_nil _ _) fun m hm => (hns m hm).2]
    have hslashes (k : Nat) :
        fs.walk origin (List.replicate k "" ++ parts ("/".intercalate ns)) = fs.walk origin ns := by
      rw [walk_append, walk_slashes hdirectory]
      exact hparts
    rcases hroot with rfl | rfl | rfl
    · exact (congrArg _ (congrArg parts String.empty_append)).trans (hslashes 0)
    · exact (congrArg _ (parts_below "" _)).trans (hslashes 1)
    · exact (congrArg _ (parts_below "/" _)).trans (hslashes 2)

/-- The normal form of an inner path below a directory leads along its names. -/
theorem place_normal_below {front below : String} (hbelow : IsInner below)
    (hfront : fs.walk (fs.start (front ++ "/")) (parts front) = .ok place) :
    fs.place (normal (front ++ "/" ++ below)) = fs.walk place (named below) := by
  have horigin : fs.at? (fs.start (front ++ "/")) = some .directory := by
    obtain ⟨part, rest, hparts⟩ := List.exists_cons_of_ne_nil (parts_ne_nil front)
    rw [hparts] at hfront
    obtain ⟨q, hstep, -⟩ := walk_cons_ok.mp hfront
    exact directory_of_step hstep
  have hslashless : ∀ q ∈ parts front, '/' ∉ q.toList := fun _ hq => slashless_of_mem_parts hq
  have hrooted : decide (rootOf (front ++ "/") ≠ "") = true → fs.start (front ++ "/") = [] := fun h => by
    rw [start_of_rootOf, if_neg (of_decide_eq_true h)]
  have hkept := walk_foldl_addPart hrooted (show Settled _ [] from trivial) hslashless rfl hfront
  have hsettled : Settled (rootOf (front ++ "/") ≠ "")
      ((parts front).foldl (addPart (rootOf (front ++ "/") ≠ "")) []) := Settled.foldl trivial hslashless
  rw [start_of_rootOf] at horigin hkept
  rw [normal_append_inner hbelow, place_spelled (isRoot_rootOf _) ?_ horigin, walk_append, hkept]
  · rfl
  · intro n hn
    rcases List.mem_append.mp hn with hn | hn
    · obtain ⟨hempty, -, hslash⟩ := hsettled.mem n (List.mem_reverse.mp hn)
      exact ⟨hempty, hslash⟩
    · obtain ⟨hempty, -, -, hslash⟩ := hbelow.isName n hn
      exact ⟨hempty, hslash⟩

/-! ## What stands in the tree -/

/-- Every name in the tree can stand in a directory, and every place stands in the list once. -/
structure Proper (fs : Files) : Prop where
  isName : ∀ e ∈ fs.entries, ∀ n ∈ e.1, IsName n
  plain : ∀ e ∈ fs.entries, ∀ n ∈ e.1, '\x00' ∉ n.toList
  nodup : (fs.entries.map (·.1)).Nodup

theorem lookup_eq_some_iff {α β : Type} [BEq α] [LawfulBEq α] {entries : List (α × β)}
    (h : (entries.map (·.1)).Nodup) {key : α} {value : β} :
    entries.lookup key = some value ↔ (key, value) ∈ entries := by
  rw [List.lookup_eq_some_iff]
  constructor
  · rintro ⟨before, behind, rfl, -⟩
    exact List.mem_append_right _ List.mem_cons_self
  · intro hmem
    obtain ⟨before, behind, rfl⟩ := List.append_of_mem hmem
    refine ⟨before, behind, rfl, fun p hp => ?_⟩
    rw [List.map_append, List.nodup_append] at h
    have hne := h.2.2 p.1 (List.mem_map_of_mem hp) key (List.mem_map_of_mem List.mem_cons_self)
    simpa using Ne.symm hne

/-- What a path leads to is what stands at its place. -/
theorem find_of_place {path : String} (h : fs.place path = .ok place) :
    fs.find path = (fs.at? place).elim (.error .missing) .ok := by
  unfold find
  rw [h]
  dsimp only [bind, Except.bind]
  cases fs.at? place <;> rfl

theorem find_of_unplaced {path : String} {f : PathFault} (h : fs.place path = .error f) : fs.find path = .error f := by
  unfold find
  rw [h]
  rfl

/-- What stands right below a place is known there by the last of its names. -/
theorem right_below_iff {place p : List String} {n : String} :
    (if p.dropLast = place && p ≠ place then p.getLast? else none) = some n ↔ p = place ++ [n] := by
  constructor
  · intro h
    split at h
    · next hbelow =>
      obtain ⟨hdrop, -⟩ : p.dropLast = place ∧ p ≠ place := by simpa using hbelow
      obtain ⟨before, rfl⟩ := List.getLast?_eq_some_iff.mp h
      rw [← hdrop, List.dropLast_concat]
    · cases h
  · rintro rfl
    rw [if_pos (by simp), List.getLast?_concat]

theorem mem_names {path n : String} :
    n ∈ fs.names path ↔ ∃ place, fs.place path = .ok place ∧ place ++ [n] ∈ fs.entries.map (·.1) := by
  unfold names
  cases fs.place path with
  | error f => simp
  | ok place =>
      simp only [Except.ok.injEq, exists_eq_left', List.mem_filterMap, List.mem_map]
      exact exists_congr fun e => and_congr_right fun _ => right_below_iff

theorem nodup_names (hfs : fs.Proper) (path : String) : (fs.names path).Nodup := by
  unfold names
  cases fs.place path with
  | error f => exact List.nodup_nil
  | ok place =>
      show (fs.entries.filterMap
        ((fun p => if p.dropLast = place && p ≠ place then p.getLast? else none) ∘ fun e => e.1)).Nodup
      rw [← List.filterMap_map]
      refine hfs.nodup.filterMap fun p q n hp hq => ?_
      rw [right_below_iff.mp hp, right_below_iff.mp hq]

theorem isName_of_mem_names (hfs : fs.Proper) {path n : String} (h : n ∈ fs.names path) : IsName n := by
  obtain ⟨place, -, hkey⟩ := mem_names.mp h
  obtain ⟨e, he, hplace⟩ := List.mem_map.mp hkey
  exact hfs.isName e he n (hplace ▸ List.mem_append_right _ (List.mem_singleton_self n))

theorem mem_keys (hfs : fs.Proper) {place : List String} : place ∈ fs.entries.map (·.1) ↔ (fs.at? place).isSome := by
  rw [Option.isSome_iff_exists, List.mem_map]
  unfold Files.at?
  constructor
  · rintro ⟨⟨_, c⟩, he, rfl⟩
    exact ⟨c, (lookup_eq_some_iff hfs.nodup).mpr he⟩
  · rintro ⟨c, hc⟩
    exact ⟨(place, c), (lookup_eq_some_iff hfs.nodup).mp hc, rfl⟩

/-- A path that leads to something has no null character in its parts. -/
theorem plain_of_walk (hfs : fs.Proper) {place place' : List String} {ps : List String}
    (h : fs.walk place ps = .ok place') : ∀ part ∈ ps, '\x00' ∉ part.toList := by
  induction ps generalizing place with
  | nil => exact nofun
  | cons part rest ih =>
      obtain ⟨q, hstep, hrest⟩ := walk_cons_ok.mp h
      intro part' hpart'
      rcases List.mem_cons.mp hpart' with rfl | hpart'
      · unfold step at hstep
        split at hstep
        · cases hstep
        · split at hstep
          · next hunnamed =>
            have hunnamed : part' = "" ∨ part' = "." := by simpa using hunnamed
            rcases hunnamed with rfl | rfl <;> decide
          · split at hstep
            · next hup => exact hup ▸ by decide
            · split at hstep
              · cases hstep
              · split at hstep
                · next hthere =>
                  obtain ⟨e, he, hplace⟩ := List.mem_map.mp ((mem_keys hfs).mpr hthere)
                  exact hfs.plain e he part' (hplace ▸ List.mem_append_right _ (List.mem_singleton_self part'))
                · cases hstep
        · cases hstep
      · exact ih hrest part' hpart'

theorem plain_of_place (hfs : fs.Proper) {path : String} {place : List String} (h : fs.place path = .ok place) :
    ∀ part ∈ parts path, '\x00' ∉ part.toList := by
  have hne : path ≠ "" := by
    rintro rfl
    cases h
  rw [place_eq_walk hne] at h
  exact plain_of_walk hfs h

end GrammarBench.Files
