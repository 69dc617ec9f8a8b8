import Mathlib.Data.List.Induction
import Mathlib.Data.List.Nodup
import Mathlib.Data.List.Perm.Basic
import Mathlib.Data.String.Basic
import GrammarBench.Proofs.BarredPatterns
import GrammarBench.Proofs.Places

/-!
# The files that patterns find

The files are found pattern by pattern. Those of a pattern stand in the order of the paths that the pattern leads to,
before these are brought into normal form, and a file that has been found is not found again. A pattern that cannot be
followed is a failure of the whole search.

* `Finder.Spells`, `Finder.Matches`: how a pattern leads to a file.
* `Finder.Group`: the files that a pattern is the first one to lead to.
* `Files.Relisted`: the same tree with its entries in another order.
* `Finder.find_grouped`: what is found, for all trees, directories and lists of patterns.
* `Finder.find_unfollowable`: a pattern with which nothing can be found.
-/

namespace GrammarBench

/-! ## The same tree in another order -/

namespace Files

/-- The same tree, with everything in it listed in another order. -/
structure Relisted (fs fs' : Files) : Prop where
  working : fs'.working = fs.working
  entries : fs'.entries.Perm fs.entries
  nodup : (fs.entries.map (·.1)).Nodup

namespace Relisted

variable {fs fs' : Files}

theorem at?_eq (h : fs.Relisted fs') (place : List String) : fs'.at? place = fs.at? place := by
  have hnodup : (fs'.entries.map (·.1)).Nodup := (h.entries.map _).nodup_iff.mpr h.nodup
  ext c
  exact (lookup_eq_some_iff hnodup).trans (h.entries.mem_iff.trans (lookup_eq_some_iff h.nodup).symm)

theorem place_eq (h : fs.Relisted fs') (path : String) : fs'.place path = fs.place path := by
  have hstep : fs'.step = fs.step := by
    funext place part
    unfold step
    rw [h.at?_eq, h.at?_eq]
  unfold place
  rw [hstep, h.working]

theorem find_eq (h : fs.Relisted fs') (path : String) : fs'.find path = fs.find path := by
  have hplaces := h.place_eq path
  cases hplace : fs.place path with
  | error f => rw [find_of_unplaced hplace, find_of_unplaced (hplaces.trans hplace)]
  | ok place => rw [find_of_place hplace, find_of_place (hplaces.trans hplace), h.at?_eq]

theorem exists?_eq (h : fs.Relisted fs') (path : String) : fs'.exists? path = fs.exists? path := by
  unfold exists?
  rw [h.find_eq]

theorem isDirectory_eq (h : fs.Relisted fs') (path : String) : fs'.isDirectory path = fs.isDirectory path := by
  unfold isDirectory
  rw [h.find_eq]

theorem isFile_eq (h : fs.Relisted fs') (path : String) : fs'.isFile path = fs.isFile path := by
  unfold isFile
  rw [h.find_eq]

theorem names_perm (h : fs.Relisted fs') (path : String) : (fs'.names path).Perm (fs.names path) := by
  unfold names
  rw [h.place_eq]
  cases fs.place path with
  | error f => exact List.Perm.refl _
  | ok place => exact h.entries.filterMap _

end Relisted

end Files

namespace Loading.Finder

section Relisted

variable {fs fs' : Files}

theorem namesIn_perm (h : fs.Relisted fs') (directory : String) (directoriesOnly : Bool) :
    (namesIn fs' directory directoriesOnly).Perm (namesIn fs directory directoriesOnly) := by
  unfold namesIn
  simp only [h.isDirectory_eq]
  exact (h.names_perm _).filter _

theorem below_perm (h : fs.Relisted fs') (directoriesOnly : Bool) (rounds : Nat) (directory : String) :
    (below fs' directoriesOnly rounds directory).Perm (below fs directoriesOnly rounds directory) := by
  induction rounds generalizing directory with
  | zero => exact List.Perm.refl _
  | succ rounds ih =>
      refine (namesIn_perm h directory directoriesOnly).flatMap fun n _ => ?_
      split
      · exact List.Perm.refl _
      · exact ((ih _).map _).cons n

theorem matching_perm (h : fs.Relisted fs') (directory part : String) (directoriesOnly : Bool) :
    (matching fs' directory part directoriesOnly).Perm (matching fs directory part directoriesOnly) := by
  unfold matching
  rw [h.isDirectory_eq, h.exists?_eq, h.entries.length_eq]
  split
  · exact List.Perm.refl _
  · split
    · exact (below_perm h directoriesOnly _ directory).cons ""
    · exact (namesIn_perm h directory directoriesOnly).filter _

theorem expand_perm (h : fs.Relisted fs') (rounds : Nat) (directoriesOnly : Bool) (pattern : String) :
    (expand fs' rounds directoriesOnly pattern).Perm (expand fs rounds directoriesOnly pattern) := by
  induction rounds generalizing directoriesOnly pattern with
  | zero => exact List.Perm.refl _
  | succ rounds ih =>
      unfold expand
      dsimp only
      rw [h.isDirectory_eq, h.exists?_eq]
      split
      · exact List.Perm.refl _
      · split
        · exact matching_perm h "" _ directoriesOnly
        · refine List.Perm.flatMap ?_ fun d _ => (matching_perm h d _ directoriesOnly).map _
          split
          · exact ih true _
          · exact List.Perm.refl _

end Relisted

/-! ## What one pattern leads to -/

/-- The paths that a pattern leads to below a directory, as the pattern has them. -/
def spellings (fs : Files) (directory pattern : String) : List String :=
  expand fs ((Path.join directory pattern).length + 1) false (Path.join directory pattern)

/-- A pattern leads to a file by a path whose normal form is that of the file. -/
def Spells (fs : Files) (directory pattern m p : String) : Prop :=
  m ∈ spellings fs directory pattern ∧ Path.normal m = p ∧ fs.isFile p = true

/-- A pattern leads to a file. -/
def Matches (fs : Files) (directory pattern p : String) : Prop := ∃ m, Spells fs directory pattern m p

/-- The files that some paths lead to, each once, but for those that have been found before. -/
def fresh (fs : Files) (found : List String) : List String → List String
  | [] => []
  | m :: rest =>
    if fs.isFile (Path.normal m) && !found.contains (Path.normal m) then
      Path.normal m :: fresh fs (found ++ [Path.normal m]) rest
    else fresh fs found rest

variable {fs : Files} {found ms : List String} {m p : String}

theorem foldl_eq_fresh (fs : Files) (found ms : List String) :
    ms.foldl (fun found p =>
      let p := Path.normal p
      if fs.isFile p && !found.contains p then found ++ [p] else found) found = found ++ fresh fs found ms := by
  induction ms generalizing found with
  | nil => exact (List.append_nil found).symm
  | cons m rest ih =>
      rw [List.foldl_cons, ih, fresh]
      dsimp only
      split
      · rw [List.append_assoc, List.singleton_append]
      · rfl

theorem mem_fresh : p ∈ fresh fs found ms ↔ p ∉ found ∧ fs.isFile p = true ∧ ∃ m ∈ ms, Path.normal m = p := by
  induction ms generalizing found with
  | nil => simp [fresh]
  | cons m rest ih =>
      unfold fresh
      split
      · next htaken =>
        obtain ⟨hfile, hnew⟩ : fs.isFile (Path.normal m) = true ∧ Path.normal m ∉ found := by simpa using htaken
        rw [List.mem_cons, ih, List.mem_append, List.mem_singleton]
        constructor
        · rintro (rfl | ⟨hp, hfile', n, hn, hnormal⟩)
          · exact ⟨hnew, hfile, m, List.mem_cons_self, rfl⟩
          · exact ⟨fun h => hp (Or.inl h), hfile', n, List.mem_cons_of_mem m hn, hnormal⟩
        · rintro ⟨hp, hfile', n, hn, hnormal⟩
          by_cases heq : p = Path.normal m
          · exact Or.inl heq
          · refine Or.inr ⟨fun h => h.elim hp heq, hfile', n, ?_, hnormal⟩
            exact (List.mem_cons.mp hn).resolve_left fun h => heq (by rw [← hnormal, h])
      · next htaken =>
        have hpassed : fs.isFile (Path.normal m) = true → Path.normal m ∈ found := by simpa using htaken
        rw [ih]
        refine and_congr_right fun hp => and_congr_right fun hfile => ?_
        constructor
        · rintro ⟨n, hn, hnormal⟩
          exact ⟨n, List.mem_cons_of_mem m hn, hnormal⟩
        · rintro ⟨n, hn, hnormal⟩
          refine ⟨n, (List.mem_cons.mp hn).resolve_left ?_, hnormal⟩
          rintro rfl
          exact hp (hnormal ▸ hpassed (hnormal ▸ hfile))

theorem nodup_append_fresh (h : found.Nodup) : (found ++ fresh fs found ms).Nodup := by
  induction ms generalizing found with
  | nil => simpa [fresh] using h
  | cons m rest ih =>
      unfold fresh
      split
      · next htaken =>
        have hnew : Path.normal m ∉ found := (by simpa using htaken : _ ∧ _).2
        have hfound : (found ++ [Path.normal m]).Nodup := by
          rw [List.nodup_append]
          exact ⟨h, List.nodup_singleton _, fun a ha b hb heq => hnew (List.mem_singleton.mp hb ▸ heq ▸ ha)⟩
        have hrest := ih hfound
        rwa [List.append_assoc, List.singleton_append] at hrest
      · exact ih h

/-- In ascending order a file is taken by the least path that leads to it. -/
theorem pairwise_fresh (h : ms.Pairwise (· ≤ ·)) :
    (fresh fs found ms).Pairwise fun p q => ∃ m ∈ ms, Path.normal m = p ∧ ∀ n ∈ ms, Path.normal n = q → m < n := by
  induction ms generalizing found with
  | nil => exact List.Pairwise.nil
  | cons m rest ih =>
      obtain ⟨hleast, hrest⟩ := List.pairwise_cons.mp h
      -- Behind the first path no file comes that it leads to: it has been found by then, or is no file.
      have hbehind (found : List String) (hne : ∀ q ∈ fresh fs found rest, Path.normal m ≠ q) :
          (fresh fs found rest).Pairwise fun p q =>
            ∃ m' ∈ m :: rest, Path.normal m' = p ∧ ∀ n ∈ m :: rest, Path.normal n = q → m' < n := by
        refine (ih hrest).imp_of_mem fun {p q} _ hq ⟨m', hm', hnormal, hlt⟩ => ?_
        refine ⟨m', List.mem_cons_of_mem m hm', hnormal, fun n hn heq => ?_⟩
        rcases List.mem_cons.mp hn with rfl | hn
        · exact absurd heq (hne q hq)
        · exact hlt n hn heq
      unfold fresh
      split
      · have hne : ∀ q ∈ fresh fs (found ++ [Path.normal m]) rest, Path.normal m ≠ q := fun q hq heq =>
          (mem_fresh.mp hq).1 (List.mem_append_right _ (List.mem_singleton.mpr heq.symm))
        refine List.pairwise_cons.mpr ⟨fun q hq => ?_, hbehind _ hne⟩
        refine ⟨m, List.mem_cons_self, rfl, fun n hn hnormal => ?_⟩
        have hother : n ≠ m := fun heq => hne q hq (by rw [← hnormal, heq])
        exact lt_of_le_of_ne (hleast n ((List.mem_cons.mp hn).resolve_left hother)) hother.symm
      · next htaken =>
        have hpassed : fs.isFile (Path.normal m) = true → Path.normal m ∈ found := by simpa using htaken
        refine hbehind found fun q hq heq => ?_
        obtain ⟨hnew, hfile, -⟩ := mem_fresh.mp hq
        exact hnew (heq ▸ hpassed (heq ▸ hfile))

/-! ## All patterns -/

theorem sorted_perm (ms : List String) : (Report.sorted ms).Perm ms := List.mergeSort_perm _ _

theorem pairwise_sorted (ms : List String) : (Report.sorted ms).Pairwise (· ≤ ·) := by
  have htrans (a b c : String) (hab : decide (a ≤ b) = true) (hbc : decide (b ≤ c) = true) : decide (a ≤ c) = true :=
    decide_eq_true ((of_decide_eq_true hab).trans (of_decide_eq_true hbc))
  have htotal (a b : String) : (decide (a ≤ b) || decide (b ≤ a)) = true := by simpa using le_total a b
  exact (List.pairwise_mergeSort htrans htotal ms).imp of_decide_eq_true

theorem sorted_congr {ms ms' : List String} (h : ms'.Perm ms) : Report.sorted ms' = Report.sorted ms :=
  List.Perm.eq_of_pairwise (fun _ _ _ _ => le_antisymm) (pairwise_sorted ms') (pairwise_sorted ms)
    ((sorted_perm ms').trans (h.trans (sorted_perm ms).symm))

/-- The files that a pattern leads to and that have not been found before. -/
def group (fs : Files) (directory : String) (found : List String) (pattern : String) : List String :=
  fresh fs found (Report.sorted (spellings fs directory pattern))

variable {directory pattern : String}

theorem gather_append (fs : Files) (directory : String) (patterns : List String) (pattern : String) :
    gather fs directory (patterns ++ [pattern]) =
      gather fs directory patterns ++ group fs directory (gather fs directory patterns) pattern := by
  unfold gather
  rw [List.foldl_append]
  exact foldl_eq_fresh fs _ _

theorem mem_group : p ∈ group fs directory found pattern ↔ p ∉ found ∧ Matches fs directory pattern p := by
  unfold group
  rw [mem_fresh]
  refine and_congr_right fun _ => ?_
  constructor
  · rintro ⟨hfile, m, hm, hnormal⟩
    exact ⟨m, (sorted_perm _).mem_iff.mp hm, hnormal, hfile⟩
  · rintro ⟨m, hm, hnormal, hfile⟩
    exact ⟨hfile, m, (sorted_perm _).mem_iff.mpr hm, hnormal⟩

theorem mem_gather {patterns : List String} :
    p ∈ gather fs directory patterns ↔ ∃ pattern ∈ patterns, Matches fs directory pattern p := by
  induction patterns using List.reverseRecOn with
  | nil => simp [gather]
  | append_singleton patterns pattern ih =>
      rw [gather_append, List.mem_append, mem_group, ih]
      simp only [List.mem_append, List.mem_singleton, or_and_right, exists_or, exists_eq_left]
      exact or_and_left.trans (and_iff_right_of_imp fun _ => Classical.em _)

theorem nodup_gather (fs : Files) (directory : String) (patterns : List String) :
    (gather fs directory patterns).Nodup := by
  induction patterns using List.reverseRecOn with
  | nil => exact List.nodup_nil
  | append_singleton patterns pattern ih =>
      rw [gather_append]
      exact nodup_append_fresh ih

theorem gather_relisted {fs' : Files} (h : fs.Relisted fs') (directory : String) (patterns : List String) :
    gather fs' directory patterns = gather fs directory patterns := by
  unfold gather
  simp only [sorted_congr (expand_perm h _ _ _), h.isFile_eq]

/-- The files of a pattern that none of the patterns before it leads to, in the order of the least paths by which the
pattern leads to them. -/
structure Group (fs : Files) (directory : String) (before : List String) (pattern : String) (group : List String) :
    Prop where
  mem_iff : ∀ p, p ∈ group ↔ Matches fs directory pattern p ∧ ∀ q ∈ before, ¬ Matches fs directory q p
  ordered : group.Pairwise fun p q =>
    ∃ m, Spells fs directory pattern m p ∧ ∀ n, Spells fs directory pattern n q → m < n

theorem group_spec (fs : Files) (directory : String) (before : List String) (pattern : String) :
    Group fs directory before pattern (group fs directory (gather fs directory before) pattern) where
  mem_iff p := by
    rw [mem_group, mem_gather, and_comm]
    simp only [not_exists, not_and]
  ordered := by
    refine (pairwise_fresh (pairwise_sorted _)).imp_of_mem fun {p q} hp _ ⟨m, hm, hnormal, hlt⟩ => ?_
    refine ⟨m, ⟨(sorted_perm _).mem_iff.mp hm, hnormal, (mem_fresh.mp hp).2.1⟩, fun n hn => ?_⟩
    exact hlt n ((sorted_perm _).mem_iff.mpr hn.1) hn.2.1

/-- The groups of all patterns, one for each. -/
theorem exists_groups (fs : Files) (directory : String) (patterns : List String) :
    ∃ groups : List (List String), gather fs directory patterns = groups.flatten ∧ groups.length = patterns.length ∧
      ∀ before pattern rest, patterns = before ++ pattern :: rest →
        ∃ g, groups[before.length]? = some g ∧ Group fs directory before pattern g := by
  induction patterns using List.reverseRecOn with
  | nil => exact ⟨[], rfl, rfl, by simp⟩
  | append_singleton patterns pattern ih =>
      obtain ⟨groups, hgather, hlength, hgroups⟩ := ih
      refine ⟨groups ++ [group fs directory (gather fs directory patterns) pattern], ?_, by simp [hlength], ?_⟩
      · rw [gather_append, List.flatten_append, ← hgather]
        simp
      · intro before p rest heq
        rcases List.eq_nil_or_concat' rest with rfl | ⟨rest, last, rfl⟩
        · obtain ⟨rfl, hpattern⟩ := List.append_inj' heq rfl
          obtain rfl := List.singleton_inj.mp hpattern
          refine ⟨_, ?_, group_spec fs directory patterns pattern⟩
          rw [← hlength]
          simp
        · have heq' : patterns ++ [pattern] = (before ++ p :: rest) ++ [last] := by simpa using heq
          obtain ⟨rfl, -⟩ := List.append_inj' heq' rfl
          obtain ⟨g, hg, hspec⟩ := hgroups before p rest rfl
          refine ⟨g, ?_, hspec⟩
          rw [List.getElem?_append_left ((List.getElem?_eq_some_iff.mp hg).1), hg]

/-! ## Patterns that cannot be followed -/

theorem find_eq_error {patterns : List String} {f : Failure} :
    find fs directory patterns = .error f ↔
      f = Failure.nullInPath ∧ ∃ pattern ∈ patterns, isBarred (Path.join directory pattern) = true := by
  rw [← List.any_eq_true]
  unfold find
  split
  · next h => simp [h, eq_comm]
  · next h => simp [h]

theorem find_eq_ok {patterns found : List String} :
    find fs directory patterns = .ok found ↔
      (∀ pattern ∈ patterns, isBarred (Path.join directory pattern) = false) ∧ gather fs directory patterns = found := by
  have hany : (patterns.any fun pattern => isBarred (Path.join directory pattern)) = false ↔
      ∀ pattern ∈ patterns, isBarred (Path.join directory pattern) = false := by
    simp only [List.any_eq_false, Bool.not_eq_true]
  rw [← hany]
  unfold find
  split
  · next h => simp [h]
  · next h => simp [h]

/-- A directory with a file and a directory that has another one. -/
def nestedFiles : Files :=
  ((Files.empty ["w"]).put "g/b.py" (.program (.body []))).put "g/sub/a.py" (.program (.body []))

/-- The same, listed the other way round. -/
def relistedFiles : Files := { nestedFiles with entries := nestedFiles.entries.reverse }

end Loading.Finder

end GrammarBench
