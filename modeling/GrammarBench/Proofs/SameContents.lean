import GrammarBench.Proofs.FoundFiles

/-!
# Directories with the same contents

What patterns find below a directory depends on what stands in it, if nothing in the path of the directory is taken for
a pattern. Two directories with the same contents are searched side by side.

* `Files.SameContents`: the same stands below two places.
* `Finder.Fronts`: what the paths below a directory start with.
* `Finder.Mirrored`: what is found side by side, up to what the paths start with.
* `Finder.find_sameContents`: the same files are found below both directories.
* `Finder.find_bracketed`: brackets in the path of a directory lead elsewhere.
-/

namespace GrammarBench

/-! ## Two places -/

namespace Files

open GrammarBench.Path

/-- Directories stand at two places, with the same below them. -/
structure SameContents (fs : Files) (p p' : List String) : Prop where
  directory : fs.at? p = some .directory
  contents : ∀ r, fs.at? (p' ++ r) = fs.at? (p ++ r)

namespace SameContents

variable {fs : Files} {p p' : List String}

theorem directory' (h : fs.SameContents p p') : fs.at? p' = some .directory := by
  have hcontents := h.contents []
  rw [List.append_nil, List.append_nil] at hcontents
  exact hcontents.trans h.directory

theorem step (h : fs.SameContents p p') {part : String} (hpart : part ≠ "..") (r : List String) :
    (∃ q, fs.step (p ++ r) part = .ok (p ++ q) ∧ fs.step (p' ++ r) part = .ok (p' ++ q)) ∨
      ∃ f, fs.step (p ++ r) part = .error f ∧ fs.step (p' ++ r) part = .error f := by
  unfold Files.step
  rw [List.append_assoc, List.append_assoc, h.contents r, h.contents (r ++ [part])]
  cases fs.at? (p ++ r) with
  | none => exact Or.inr ⟨_, rfl, rfl⟩
  | some c =>
      cases c with
      | directory =>
          dsimp only
          rw [if_neg hpart, if_neg hpart]
          split
          · exact Or.inl ⟨r, rfl, rfl⟩
          · split
            · exact Or.inr ⟨_, rfl, rfl⟩
            · split
              · exact Or.inl ⟨r ++ [part], rfl, rfl⟩
              · exact Or.inr ⟨_, rfl, rfl⟩
      | bytes data => exact Or.inr ⟨_, rfl, rfl⟩
      | program program => exact Or.inr ⟨_, rfl, rfl⟩

/-- No way down tells the two places apart. -/
theorem walk (h : fs.SameContents p p') {ps : List String} (hps : ".." ∉ ps) (r : List String) :
    (∃ q, fs.walk (p ++ r) ps = .ok (p ++ q) ∧ fs.walk (p' ++ r) ps = .ok (p' ++ q)) ∨
      ∃ f, fs.walk (p ++ r) ps = .error f ∧ fs.walk (p' ++ r) ps = .error f := by
  induction ps generalizing r with
  | nil => exact Or.inl ⟨r, rfl, rfl⟩
  | cons part rest ih =>
      obtain ⟨hpart, hrest⟩ := not_or.mp (List.mem_cons.not.mp hps)
      simp only [walk_cons]
      rcases h.step (Ne.symm hpart) r with ⟨q, hq, hq'⟩ | ⟨f, hf, hf'⟩
      · rw [hq, hq']
        exact ih hrest q
      · rw [hf, hf']
        exact Or.inr ⟨f, rfl, rfl⟩

end SameContents

end Files

namespace Loading.Finder

open GrammarBench.Path Files

variable {fs : Files}

/-! ## What paths below a directory start with -/

/-- With this in front, an inner path leads below the directory with a path. -/
structure Fronts (fs : Files) (d : String) (p : List String) (front : String) : Prop where
  plain : hasGlyph front = false
  walk : fs.walk (fs.start (front ++ "/")) (parts front) = .ok p
  normal : ∀ x, IsInner x → Path.normal (front ++ "/" ++ x) = Path.normal (Path.join d x)

section Fronts

variable {d front : String} {p : List String}

theorem Fronts.place (h : Fronts fs d p front) (x : String) : fs.place (front ++ "/" ++ x) = fs.walk p (parts x) := by
  have hne : front ++ "/" ≠ "" := by simp
  rw [place_eq_walk (by simp), start_append hne, parts_below, walk_append, h.walk]
  rfl

theorem Fronts.place_normal (h : Fronts fs d p front) {x : String} (hx : IsInner x) :
    fs.place (Path.normal (Path.join d x)) = fs.walk p (named x) := by
  rw [← h.normal x hx]
  exact place_normal_below hx h.walk

/-- Nothing in the front is taken for a pattern. -/
theorem Fronts.hasGlyph_below (h : Fronts fs d p front) (x : String) : hasGlyph (front ++ "/" ++ x) = hasGlyph x := by
  have hslash : hasGlyph "/" = false := by decide
  rw [hasGlyph_append, hasGlyph_append, h.plain, hslash, Bool.or_self, Bool.false_or]

/-- The path itself, with a slash where it needs one. -/
theorem exists_fronts (hd : fs.place d = .ok p) (hplain : hasGlyph d = false) :
    ∃ front, Path.join d "" = front ++ "/" ∧ Fronts fs d p front := by
  have hne : d ≠ "" := by
    rintro rfl
    cases hd
  have hnormal (x : String) (hx : IsInner x) :
      Path.normal (Path.join d "" ++ x) = Path.normal (Path.join d x) := by
    rw [← join_eq d hx.relative]
  rw [place_eq_walk hne] at hd
  rcases join_empty hne with ⟨⟨front, hfront⟩, hjoin⟩ | ⟨-, hjoin⟩
  · rw [hjoin, hfront] at hnormal
    rw [hfront, hasGlyph_append, Bool.or_eq_false_iff] at hplain
    rw [hfront, parts_closed, walk_append_ok] at hd
    obtain ⟨q, hq, hslash⟩ := hd
    have heq : p = q := eq_of_step_unnamed ((walk_singleton q "").symm.trans hslash) (Or.inl rfl)
    exact ⟨front, hjoin.trans hfront, hplain.1, heq ▸ hq, hfront ▸ hnormal⟩
  · rw [hjoin] at hnormal
    exact ⟨d, hjoin, hplain, (start_append hne "/").symm ▸ hd, hnormal⟩

/-- Slashes at the end do not matter. -/
theorem Fronts.of_trimmed (h : Fronts fs d p front) (hne : trimmed front ≠ "") : Fronts fs d p (trimmed front) := by
  obtain ⟨k, hk⟩ := eq_trimmed_append front
  obtain ⟨c, hc, hslash⟩ := exists_mem_trimmed hne
  have hroot (rest : String) : rootOf (Path.trimmed front ++ rest) = rootOf (Path.trimmed front) :=
    rootOf_append (Or.inr ⟨c, hc, hslash⟩)
  have hplain := h.plain
  have hwalk := h.walk
  rw [hk, hasGlyph_append, Bool.or_eq_false_iff] at hplain
  rw [hk, String.append_assoc, start_append hne, parts_append_slashes, walk_append_ok] at hwalk
  obtain ⟨q, hq, hslashes⟩ := hwalk
  refine ⟨hplain.1, ?_, fun x hx => ?_⟩
  · rw [start_append hne, hq, eq_of_walk_slashes hslashes]
  · rw [← h.normal x hx, normal_append_inner hx, normal_append_inner hx, hroot]
    have hfront : rootOf (front ++ "/") = rootOf (Path.trimmed front) := by
      conv_lhs => rw [hk, String.append_assoc]
      exact hroot _
    have hparts : parts front = parts (Path.trimmed front) ++ List.replicate k "" := by
      conv_lhs => rw [hk, parts_append_slashes]
    have hempty : ∀ (rooted : Bool) (before : List String),
        (List.replicate k "").foldl (addPart rooted) before = before := fun rooted before => by
      rw [foldl_addPart_downward (by simp)]
      simp
    rw [hfront, hparts, List.foldl_append, hempty]

/-- The first half of a path right below a front: the directory itself. -/
theorem Fronts.exists_half (h : Fronts fs d p front) (hdirectory : fs.at? p = some .directory) :
    ∃ half front', (if trimmed front = "" then front ++ "/" else trimmed front) = half ∧ Fronts fs d p front' ∧
      hasGlyph half = false ∧ half ≠ "" ∧ fs.place half = .ok p ∧
      ∀ y, IsRelative y → Path.join half y = front' ++ "/" ++ y := by
  have hself : fs.walk p (parts "") = .ok p := (walk_singleton p "").trans (step_unnamed hdirectory (Or.inl rfl))
  split
  · refine ⟨_, front, rfl, h, ?_, by simp, ?_, fun y hy => ?_⟩
    · rw [hasGlyph_append, h.plain]
      decide
    · have hplace := h.place ""
      rwa [String.append_empty, hself] at hplace
    · have hjoin := join_append ⟨front, rfl⟩ "" hy
      rwa [String.append_empty, join_nil hy] at hjoin
  · next hne =>
    have htrimmed := h.of_trimmed hne
    refine ⟨_, trimmed front, rfl, htrimmed, htrimmed.plain, hne, ?_, fun y hy => ?_⟩
    · have hwalk := htrimmed.walk
      rw [start_append hne] at hwalk
      rw [place_eq_walk hne, hwalk]
    · rw [join_eq _ hy]
      rcases join_empty hne with ⟨hclosed, -⟩ | ⟨-, hjoin⟩
      · exact absurd hclosed (not_isClosed_trimmed front)
      · rw [hjoin]

end Fronts

/-! ## Searches side by side -/

section Sides

variable {p p' : List String} {a b d d' front front' : String}

/-- Two paths lead to the same place below two others, or nowhere for the same reason. -/
def SamePlace (fs : Files) (p p' : List String) (a b : String) : Prop :=
  (∃ r, fs.place a = .ok (p ++ r) ∧ fs.place b = .ok (p' ++ r)) ∨ ∃ f, fs.place a = .error f ∧ fs.place b = .error f

theorem SamePlace.find (h : SamePlace fs p p' a b) (hsame : fs.SameContents p p') : fs.find b = fs.find a := by
  rcases h with ⟨r, ha, hb⟩ | ⟨f, ha, hb⟩
  · rw [find_of_place ha, find_of_place hb, hsame.contents]
  · rw [find_of_unplaced ha, find_of_unplaced hb]

theorem SamePlace.exists? (h : SamePlace fs p p' a b) (hsame : fs.SameContents p p') : fs.exists? b = fs.exists? a := by
  unfold Files.exists?
  rw [h.find hsame]

theorem SamePlace.isDirectory (h : SamePlace fs p p' a b) (hsame : fs.SameContents p p') :
    fs.isDirectory b = fs.isDirectory a := by
  unfold Files.isDirectory
  rw [h.find hsame]

theorem SamePlace.isFile (h : SamePlace fs p p' a b) (hsame : fs.SameContents p p') : fs.isFile b = fs.isFile a := by
  unfold Files.isFile
  rw [h.find hsame]

theorem SamePlace.names_perm (h : SamePlace fs p p' a b) (hfs : fs.Proper) (hsame : fs.SameContents p p') :
    (fs.names b).Perm (fs.names a) := by
  rw [List.perm_ext_iff_of_nodup (nodup_names hfs b) (nodup_names hfs a)]
  intro n
  simp only [mem_names, mem_keys hfs]
  rcases h with ⟨r, ha, hb⟩ | ⟨f, ha, hb⟩
  · simp only [ha, hb, Except.ok.injEq, exists_eq_left', List.append_assoc, hsame.contents]
  · simp [ha, hb]

/-- Two directories below which every inner path leads to the same place. -/
structure Parallel (fs : Files) (p p' : List String) (a b : String) : Prop where
  here : SamePlace fs p p' a b
  below : ∀ x, IsInner x → SamePlace fs p p' (Path.join a x) (Path.join b x)
  ne_empty : a ≠ "" ∧ b ≠ ""

theorem Parallel.join (h : Parallel fs p p' a b) {x : String} (hx : IsInner x) :
    Parallel fs p p' (Path.join a x) (Path.join b x) where
  here := h.below x hx
  below y hy := by
    have hxy := hx.join hy
    rw [join_join h.ne_empty.1 hx.relative hy.relative hxy.relative,
      join_join h.ne_empty.2 hx.relative hy.relative hxy.relative]
    exact h.below _ hxy
  ne_empty := ⟨join_ne_empty h.ne_empty.1 hx.relative, join_ne_empty h.ne_empty.2 hx.relative⟩

theorem isName_of_mem_namesIn (hfs : fs.Proper) {directoriesOnly : Bool} {n : String}
    (h : n ∈ namesIn fs a directoriesOnly) : IsName n :=
  isName_of_mem_names hfs (List.mem_filter.mp h).1

variable (hfs : fs.Proper) (hsame : fs.SameContents p p')
include hfs

theorem isInner_of_mem_below {directoriesOnly : Bool} {rounds : Nat} {y : String}
    (h : y ∈ below fs directoriesOnly rounds a) : IsInner y := by
  induction rounds generalizing a y with
  | zero => cases h
  | succ rounds ih =>
      obtain ⟨n, hn, hy⟩ := List.mem_flatMap.mp h
      have hname := (isName_of_mem_namesIn hfs hn).isInner
      split at hy
      · cases hy
      · rcases List.mem_cons.mp hy with rfl | hy
        · exact hname
        · obtain ⟨z, hz, rfl⟩ := List.mem_map.mp hy
          exact hname.join (ih hz)

theorem isInner_of_mem_matching {directoriesOnly : Bool} {part y : String} (hpart : IsInner part)
    (h : y ∈ matching fs a part directoriesOnly) : IsInner y := by
  unfold matching at h
  split at h
  · split at h
    · split at h
      · rw [List.mem_singleton.mp h]
        exact isInner_empty
      · cases h
    · split at h
      · rwa [List.mem_singleton.mp h]
      · cases h
  · split at h
    · rcases List.mem_cons.mp h with rfl | h
      · exact isInner_empty
      · exact isInner_of_mem_below hfs h
    · exact (isName_of_mem_namesIn hfs (List.mem_filter.mp h).1).isInner

include hsame

theorem namesIn_sides (h : Parallel fs p p' a b) (directoriesOnly : Bool) :
    (namesIn fs b directoriesOnly).Perm (namesIn fs a directoriesOnly) := by
  unfold namesIn
  dsimp only
  rw [if_neg h.ne_empty.1, if_neg h.ne_empty.2]
  refine (List.Perm.filter _ (h.here.names_perm hfs hsame)).trans (List.Perm.of_eq (List.filter_congr fun n hn => ?_))
  rw [(h.below n (isName_of_mem_names hfs hn).isInner).isDirectory hsame]

theorem below_sides (h : Parallel fs p p' a b) (directoriesOnly : Bool) (rounds : Nat) :
    (below fs directoriesOnly rounds b).Perm (below fs directoriesOnly rounds a) := by
  induction rounds generalizing a b with
  | zero => exact List.Perm.refl _
  | succ rounds ih =>
      refine (namesIn_sides hfs hsame h directoriesOnly).flatMap fun n hn => ?_
      split
      · exact List.Perm.refl _
      · dsimp only
        rw [if_neg h.ne_empty.1, if_neg h.ne_empty.2]
        have hname : IsName n :=
          isName_of_mem_namesIn hfs ((namesIn_sides hfs hsame h directoriesOnly).mem_iff.mp hn)
        exact ((ih (h.join hname.isInner)).map _).cons n

/-- A part of a pattern leads to the same names in both directories. -/
theorem matching_sides (h : Parallel fs p p' a b) {part : String} (hpart : IsInner part) (directoriesOnly : Bool) :
    (matching fs b part directoriesOnly).Perm (matching fs a part directoriesOnly) := by
  unfold matching
  rw [h.here.isDirectory hsame, (h.below part hpart).exists? hsame]
  split
  · exact List.Perm.refl _
  · split
    · exact (below_sides hfs hsame h directoriesOnly _).cons ""
    · exact (namesIn_sides hfs hsame h directoriesOnly).filter _

end Sides

/-! ## What patterns lead to side by side -/

section Mirrored

variable {p p' : List String} {d d' front front' rel part : String}

theorem Fronts.samePlace (h : Fronts fs d p front) (h' : Fronts fs d' p' front') (hsame : fs.SameContents p p')
    {x : String} (hx : IsInner x) : SamePlace fs p p' (front ++ "/" ++ x) (front' ++ "/" ++ x) := by
  unfold SamePlace
  rw [h.place, h'.place]
  have hwalk := hsame.walk hx.downward []
  rwa [List.append_nil, List.append_nil] at hwalk

theorem Fronts.parallel (h : Fronts fs d p front) (h' : Fronts fs d' p' front') (hsame : fs.SameContents p p')
    {x : String} (hx : IsInner x) : Parallel fs p p' (front ++ "/" ++ x) (front' ++ "/" ++ x) where
  here := h.samePlace h' hsame hx
  below y hy := by
    rw [join_append ⟨front, rfl⟩ x hy.relative, join_append ⟨front', rfl⟩ x hy.relative]
    exact h.samePlace h' hsame (hx.join hy)
  ne_empty := ⟨by simp, by simp⟩

/-- Paths that are found side by side: the same inner paths, each behind the front of its own directory. -/
def Mirrored (fs : Files) (d d' : String) (p p' : List String) (found found' : List String) : Prop :=
  ∃ (front front' : String) (xs xs' : List String), Fronts fs d p front ∧ Fronts fs d' p' front' ∧
    found = xs.map (front ++ "/" ++ ·) ∧ found' = xs'.map (front' ++ "/" ++ ·) ∧ xs'.Perm xs ∧ ∀ x ∈ xs, IsInner x

theorem mirrored_matching (hfs : fs.Proper) (hsame : fs.SameContents p p') (hfront : Fronts fs d p front)
    (hfront' : Fronts fs d' p' front') (xs xs' : List String) (g g' : String → String) (hperm : xs'.Perm xs)
    (hinner : ∀ x ∈ xs, IsInner x) (hparallel : ∀ x ∈ xs, Parallel fs p p' (g x) (g' x))
    (hg : ∀ x ∈ xs, ∀ y, IsRelative y → Path.join (g x) y = front ++ "/" ++ Path.join x y)
    (hg' : ∀ x ∈ xs, ∀ y, IsRelative y → Path.join (g' x) y = front' ++ "/" ++ Path.join x y)
    (hpart : IsInner part) (directoriesOnly : Bool) :
    Mirrored fs d d' p p' ((xs.map g).flatMap fun a => (matching fs a part directoriesOnly).map (Path.join a))
      ((xs'.map g').flatMap fun a => (matching fs a part directoriesOnly).map (Path.join a)) := by
  have hspelled {front : String} {xs : List String} {g : String → String}
      (hg : ∀ x ∈ xs, ∀ y, IsRelative y → Path.join (g x) y = front ++ "/" ++ Path.join x y) :
      ((xs.map g).flatMap fun a => (matching fs a part directoriesOnly).map (Path.join a)) =
        (xs.flatMap fun x => (matching fs (g x) part directoriesOnly).map (Path.join x)).map (front ++ "/" ++ ·) := by
    rw [List.flatMap_map, List.map_flatMap]
    refine List.flatMap_congr fun x hx => ?_
    rw [List.map_map]
    exact List.map_congr_left fun y hy => hg x hx y (isInner_of_mem_matching hfs hpart hy).relative
  refine ⟨front, front', _, _, hfront, hfront', hspelled hg,
    hspelled fun x hx => hg' x (hperm.mem_iff.mp hx), ?_, ?_⟩
  · exact hperm.flatMap fun x hx =>
      (matching_sides hfs hsame (hparallel x (hperm.mem_iff.mp hx)) hpart directoriesOnly).map _
  · intro z hz
    obtain ⟨x, hx, hz⟩ := List.mem_flatMap.mp hz
    obtain ⟨y, hy, rfl⟩ := List.mem_map.mp hz
    exact (hinner x hx).join (isInner_of_mem_matching hfs hpart hy)

theorem mirrored_single (hfront : Fronts fs d p front) (hfront' : Fronts fs d' p' front') (hrel : IsInner rel)
    (found : Bool) : Mirrored fs d d' p p' (if found then [front ++ "/" ++ rel] else [])
      (if found then [front' ++ "/" ++ rel] else []) := by
  cases found with
  | false => exact ⟨front, front', [], [], hfront, hfront', rfl, rfl, List.Perm.refl _, nofun⟩
  | true =>
      refine ⟨front, front', [rel], [rel], hfront, hfront', rfl, rfl, List.Perm.refl _, fun x hx => ?_⟩
      rwa [List.mem_singleton.mp hx]

/-- The last part of a pattern, and the two directories that it is looked for in. -/
structure Halves (fs : Files) (d d' : String) (p p' : List String) (front front' rel : String)
    (half half' part x above above' : String) : Prop where
  split : Path.split (front ++ "/" ++ rel) = (half, part)
  split' : Path.split (front' ++ "/" ++ rel) = (half', part)
  part : IsInner part
  inner : IsInner x
  fronts : Fronts fs d p above
  fronts' : Fronts fs d' p' above'
  parallel : Parallel fs p p' half half'
  join : ∀ y, IsRelative y → Path.join half y = above ++ "/" ++ Path.join x y
  join' : ∀ y, IsRelative y → Path.join half' y = above' ++ "/" ++ Path.join x y
  glyph : hasGlyph half = hasGlyph x
  glyph' : hasGlyph half' = hasGlyph x
  /-- Unless the last part stands right below the directories, they are found by a pattern of its own. -/
  further : hasGlyph x = true →
    half = front ++ "/" ++ x ∧ half' = front' ++ "/" ++ x ∧ x.length < rel.length

/-- A part by itself is looked for in the two directories. -/
theorem exists_halves_part (hsame : fs.SameContents p p') (hfront : Fronts fs d p front)
    (hfront' : Fronts fs d' p' front') (hrel : IsInner rel) (hslash : '/' ∉ rel.toList) :
    ∃ half half' above above', Halves fs d d' p p' front front' rel half half' rel "" above above' := by
  obtain ⟨half, above, hhalf, habove, hglyph, hne, hplace, hjoin⟩ := hfront.exists_half hsame.directory
  obtain ⟨half', above', hhalf', habove', hglyph', hne', hplace', hjoin'⟩ := hfront'.exists_half hsame.directory'
  have hempty : hasGlyph "" = false := by decide
  have hhere : SamePlace fs p p' half half' :=
    Or.inl ⟨[], by rw [hplace, List.append_nil], by rw [hplace', List.append_nil]⟩
  have hbelow (x : String) (hx : IsInner x) : SamePlace fs p p' (Path.join half x) (Path.join half' x) := by
    rw [hjoin x hx.relative, hjoin' x hx.relative]
    exact habove.samePlace habove' hsame hx
  exact ⟨half, half', above, above',
    { split := by rw [split_below hslash, hhalf]
      split' := by rw [split_below hslash, hhalf']
      part := hrel
      inner := isInner_empty
      fronts := habove
      fronts' := habove'
      parallel := ⟨hhere, hbelow, hne, hne'⟩
      join := fun y hy => by rw [hjoin y hy, join_nil hy]
      join' := fun y hy => by rw [hjoin' y hy, join_nil hy]
      glyph := hglyph.trans hempty.symm
      glyph' := hglyph'.trans hempty.symm
      further := fun h => absurd (hempty.symm.trans h) nofun }⟩

/-- The last one of several parts is looked for where the parts before it lead. -/
theorem halves_below (hsame : fs.SameContents p p') (hfront : Fronts fs d p front) (hfront' : Fronts fs d' p' front')
    {before last : String} (hrel : IsInner (before ++ "/" ++ last)) (hlast : '/' ∉ last.toList) :
    Halves fs d d' p p' front front' (before ++ "/" ++ last) (front ++ "/" ++ trimmed before)
      (front' ++ "/" ++ trimmed before) last (trimmed before) front front' where
  split := split_below_below front hrel.trimmed.2 hlast
  split' := split_below_below front' hrel.trimmed.2 hlast
  part := hrel.last hlast
  inner := hrel.trimmed.1
  fronts := hfront
  fronts' := hfront'
  parallel := hfront.parallel hfront' hsame hrel.trimmed.1
  join y hy := join_append ⟨front, rfl⟩ _ hy
  join' y hy := join_append ⟨front', rfl⟩ _ hy
  glyph := hfront.hasGlyph_below _
  glyph' := hfront'.hasGlyph_below _
  further _ := by
    refine ⟨rfl, rfl, ?_⟩
    have hlength := length_trimmed_le before
    have hslash : "/".length = 1 := rfl
    rw [String.length_append, String.length_append]
    omega

theorem exists_halves_sides (hsame : fs.SameContents p p') (hfront : Fronts fs d p front)
    (hfront' : Fronts fs d' p' front') (hrel : IsInner rel) :
    ∃ half half' part x above above', Halves fs d d' p p' front front' rel half half' part x above above' := by
  rcases exists_halves rel with hslash | ⟨before, last, rfl, hlast⟩
  · obtain ⟨half, half', above, above', h⟩ := exists_halves_part hsame hfront hfront' hrel hslash
    exact ⟨half, half', rel, "", above, above', h⟩
  · exact ⟨_, _, _, _, _, _, halves_below hsame hfront hfront' hrel hlast⟩

theorem expand_succ (fs : Files) (rounds : Nat) (directoriesOnly : Bool) {pattern directory part : String}
    (hsplit : Path.split pattern = (directory, part)) (hne : directory ≠ "") :
    expand fs (rounds + 1) directoriesOnly pattern =
      if hasGlyph pattern = false then
        if (if part = "" then fs.isDirectory directory else fs.exists? pattern) then [pattern] else []
      else
        (if directory ≠ pattern ∧ hasGlyph directory = true then expand fs rounds true directory
          else [directory]).flatMap fun d => (matching fs d part directoriesOnly).map (Path.join d) := by
  rw [expand, hsplit]
  dsimp only
  by_cases hglyph : hasGlyph pattern = false
  · rw [if_pos (by rw [hglyph]; rfl), if_pos hglyph]
    by_cases hpart : part = ""
    · rw [if_pos hpart, if_pos hpart]
    · rw [if_neg hpart, if_neg hpart]
  · rw [if_neg (by simpa using hglyph), if_neg hglyph, if_neg hne]
    simp only [Bool.and_eq_true, decide_eq_true_eq]

/-- An inner pattern leads to the same below both directories. -/
theorem mirrored_expand (hfs : fs.Proper) (hsame : fs.SameContents p p') (hfront : Fronts fs d p front)
    (hfront' : Fronts fs d' p' front') (hrel : IsInner rel) {rounds rounds' : Nat} (hrounds : rel.length < rounds)
    (hrounds' : rel.length < rounds') (directoriesOnly : Bool) :
    Mirrored fs d d' p p' (expand fs rounds directoriesOnly (front ++ "/" ++ rel))
      (expand fs rounds' directoriesOnly (front' ++ "/" ++ rel)) := by
  -- Every round takes a part off the pattern, so the rounds left are always enough.
  induction rounds generalizing rel rounds' directoriesOnly with
  | zero => exact absurd hrounds (Nat.not_lt_zero _)
  | succ rounds ih =>
      obtain ⟨rounds', rfl⟩ := Nat.exists_eq_add_one_of_ne_zero (Nat.ne_zero_of_lt hrounds')
      obtain ⟨half, half', part, x, above, above', h⟩ := exists_halves_sides hsame hfront hfront' hrel
      rw [expand_succ fs rounds directoriesOnly h.split h.parallel.ne_empty.1,
        expand_succ fs rounds' directoriesOnly h.split' h.parallel.ne_empty.2, hfront.hasGlyph_below,
        hfront'.hasGlyph_below]
      split
      · have hthere : (if part = "" then fs.isDirectory half' else fs.exists? (front' ++ "/" ++ rel)) =
            if part = "" then fs.isDirectory half else fs.exists? (front ++ "/" ++ rel) := by
          rw [h.parallel.here.isDirectory hsame, (hfront.samePlace hfront' hsame hrel).exists? hsame]
        rw [hthere]
        exact mirrored_single hfront hfront' hrel _
      · by_cases hglyph : hasGlyph x = true
        · obtain ⟨rfl, rfl, hlength⟩ := h.further hglyph
          have hshorter {front : String} : front ++ "/" ++ x ≠ front ++ "/" ++ rel := fun heq => by
            have hlengths := congrArg String.length heq
            simp only [String.length_append] at hlengths
            omega
          rw [if_pos ⟨hshorter, (hfront.hasGlyph_below x).trans hglyph⟩,
            if_pos ⟨hshorter, (hfront'.hasGlyph_below x).trans hglyph⟩]
          have henough' : x.length < rounds' := by omega
          obtain ⟨f, f', xs, xs', hf, hf', hfound, hfound', hperm, hinner⟩ := ih h.inner (by omega) henough' true
          rw [hfound, hfound']
          exact mirrored_matching hfs hsame hf hf' xs xs' _ _ hperm hinner
            (fun y hy => hf.parallel hf' hsame (hinner y hy)) (fun y _ z hz => join_append ⟨f, rfl⟩ y hz)
            (fun y _ z hz => join_append ⟨f', rfl⟩ y hz) h.part directoriesOnly
        · rw [if_neg fun hboth => hglyph (h.glyph.symm.trans hboth.2),
            if_neg fun hboth => hglyph (h.glyph'.symm.trans hboth.2)]
          have hsingle {P : String → Prop} (hx : P x) : ∀ y ∈ [x], P y := fun y hy => List.mem_singleton.mp hy ▸ hx
          exact mirrored_matching hfs hsame h.fronts h.fronts' [x] [x] (fun _ => half) (fun _ => half')
            (List.Perm.refl _) (hsingle h.inner) (hsingle h.parallel) (hsingle h.join) (hsingle h.join') h.part
            directoriesOnly

/-! ## What is found on both sides -/

/-- The path of some names below a directory, in normal form. -/
def under (d : String) (names : List String) : String := Path.normal (Path.join d ("/".intercalate names))

/-- A file or a directory stands in both directories, at the same place below them. -/
structure Lies (fs : Files) (d d' : String) (p p' names : List String) : Prop where
  ne_nil : names ≠ []
  place : fs.place (under d names) = .ok (p ++ names)
  place' : fs.place (under d' names) = .ok (p' ++ names)

/-- What is found by an inner path is found under its names. -/
theorem Fronts.normal_eq_under (h : Fronts fs d p front) {x : String} (hx : IsInner x) :
    Path.normal (front ++ "/" ++ x) = under d (named x) := by
  have hnames := hx.isName
  unfold under
  rw [← h.normal _ (isInner_intercalate hnames), normal_append_inner hx,
    normal_append_inner (isInner_intercalate hnames), named_intercalate hnames]

theorem Fronts.place_under (h : Fronts fs d p front) {names : List String} (hnames : ∀ n ∈ names, IsName n) :
    fs.place (under d names) = fs.walk p names := by
  have hinner := isInner_intercalate hnames
  unfold under
  rw [h.place_normal hinner, named_intercalate hnames]

theorem samePlace_under (hsame : fs.SameContents p p') (hfront : Fronts fs d p front)
    (hfront' : Fronts fs d' p' front') {names : List String} (hnames : ∀ n ∈ names, IsName n) :
    SamePlace fs p p' (under d names) (under d' names) := by
  have hup : ".." ∉ names := fun h => (hnames _ h).2.2.1 rfl
  have hwalk := hsame.walk hup []
  unfold SamePlace
  rw [hfront.place_under hnames, hfront'.place_under hnames]
  rwa [List.append_nil, List.append_nil] at hwalk

theorem lies_of_isFile (hsame : fs.SameContents p p') (hfront : Fronts fs d p front)
    (hfront' : Fronts fs d' p' front') {names : List String} (hnames : ∀ n ∈ names, IsName n)
    (hfile : fs.isFile (under d names) = true) : Lies fs d d' p p' names := by
  rcases samePlace_under hsame hfront hfront' hnames with ⟨r, hr, hr'⟩ | ⟨f, hf, -⟩
  · have hwalk := hr
    have hwalk' := hr'
    rw [hfront.place_under hnames] at hwalk
    rw [hfront'.place_under hnames] at hwalk'
    rw [walk_names hwalk hnames] at hr
    rw [walk_names hwalk' hnames] at hr'
    refine ⟨?_, hr, hr'⟩
    rintro rfl
    -- Without a name in front of it the path leads to the directory itself.
    have hfind : fs.find (under d []) = .ok .directory := by
      rw [find_of_place hr, List.append_nil, hsame.directory]
      rfl
    unfold Files.isFile at hfile
    rw [hfind] at hfile
    cases hfile
  · unfold Files.isFile at hfile
    rw [find_of_unplaced hf] at hfile
    cases hfile

theorem Lies.under_mem_iff {found : List (List String)} {names : List String} (h : Lies fs d d' p p' names)
    (hfound : ∀ r ∈ found, Lies fs d d' p p' r) : under d names ∈ found.map (under d) ↔ names ∈ found := by
  constructor
  · intro hmem
    obtain ⟨r, hr, heq⟩ := List.mem_map.mp hmem
    have hplace := (hfound r hr).place
    rw [heq, h.place] at hplace
    exact List.append_cancel_left (Except.ok.inj hplace) ▸ hr
  · exact List.mem_map_of_mem

theorem Lies.symm {names : List String} (h : Lies fs d d' p p' names) : Lies fs d' d p' p names :=
  ⟨h.ne_nil, h.place', h.place⟩

/-- Of the same paths on both sides the same files are taken. -/
theorem exists_fresh (hsame : fs.SameContents p p') (hfront : Fronts fs d p front) (hfront' : Fronts fs d' p' front')
    {xs : List String} (hxs : ∀ x ∈ xs, IsInner x) {found : List (List String)}
    (hfound : ∀ r ∈ found, Lies fs d d' p p' r) :
    ∃ more : List (List String),
      fresh fs (found.map (under d)) (xs.map (front ++ "/" ++ ·)) = more.map (under d) ∧
      fresh fs (found.map (under d')) (xs.map (front' ++ "/" ++ ·)) = more.map (under d') ∧
      ∀ r ∈ more, Lies fs d d' p p' r := by
  induction xs generalizing found with
  | nil => exact ⟨[], rfl, rfl, nofun⟩
  | cons x rest ih =>
      have hx := hxs x List.mem_cons_self
      have hrest : ∀ y ∈ rest, IsInner y := fun y hy => hxs y (List.mem_cons_of_mem x hy)
      have hfile : fs.isFile (under d' (named x)) = fs.isFile (under d (named x)) :=
        (samePlace_under hsame hfront hfront' hx.isName).isFile hsame
      have hnormal := hfront.normal_eq_under hx
      have hnormal' := hfront'.normal_eq_under hx
      simp only [List.map_cons, fresh, hnormal, hnormal', hfile]
      cases hthere : fs.isFile (under d (named x)) with
      | false => exact ih hrest hfound
      | true =>
          have hlies := lies_of_isFile hsame hfront hfront' hx.isName hthere
          have hmem := hlies.under_mem_iff hfound
          have hmem' := hlies.symm.under_mem_iff fun r hr => (hfound r hr).symm
          by_cases hold : named x ∈ found
          · rw [if_neg (by simpa using hmem.mpr hold), if_neg (by simpa using hmem'.mpr hold)]
            exact ih hrest hfound
          · have hfound' : ∀ r ∈ found ++ [named x], Lies fs d d' p p' r := fun r hr =>
              (List.mem_append.mp hr).elim (hfound r) fun h => List.mem_singleton.mp h ▸ hlies
            obtain ⟨more, hmore, hmore', hlie⟩ := ih hrest hfound'
            rw [List.map_append, List.map_singleton] at hmore hmore'
            rw [if_pos (by simpa using hmem.not.mpr hold), if_pos (by simpa using hmem'.not.mpr hold), hmore, hmore']
            refine ⟨named x :: more, rfl, rfl, fun r hr => ?_⟩
            rcases List.mem_cons.mp hr with rfl | hr
            · exact hlies
            · exact hlie r hr

/-- What stands in front of all texts does not change their order. -/
theorem sorted_map_append (front : String) (xs : List String) :
    Report.sorted (xs.map (front ++ ·)) = (Report.sorted xs).map (front ++ ·) := by
  have hlt {a b : String} (h : a < b) : front ++ a < front ++ b := by
    rw [String.lt_iff_toList_lt, String.toList_append, String.toList_append]
    exact List.append_left_lt (String.lt_iff_toList_lt.mp h)
  have hle (a b : String) : decide (a ≤ b) = decide (front ++ a ≤ front ++ b) := by
    rw [decide_eq_decide]
    constructor
    · intro h
      rcases lt_or_eq_of_le h with h | rfl
      · exact (hlt h).le
      · exact le_refl _
    · intro h
      by_contra hnot
      exact absurd h (not_le_of_gt (hlt (lt_of_not_ge hnot)))
  exact (List.map_mergeSort fun a _ b _ => hle a b).symm

theorem exists_group (hfs : fs.Proper) (hsame : fs.SameContents p p') (hd : fs.place d = .ok p)
    (hd' : fs.place d' = .ok p') (hplain : hasGlyph d = false) (hplain' : hasGlyph d' = false) {pattern : String}
    (hpattern : IsInner pattern) {found : List (List String)} (hfound : ∀ r ∈ found, Lies fs d d' p p' r) :
    ∃ more : List (List String), group fs d (found.map (under d)) pattern = more.map (under d) ∧
      group fs d' (found.map (under d')) pattern = more.map (under d') ∧ ∀ r ∈ more, Lies fs d d' p p' r := by
  obtain ⟨front, hjoin, hfront⟩ := exists_fronts hd hplain
  obtain ⟨front', hjoin', hfront'⟩ := exists_fronts hd' hplain'
  have hmirrored : Mirrored fs d d' p p' (spellings fs d pattern) (spellings fs d' pattern) := by
    unfold spellings
    rw [join_eq d hpattern.relative, join_eq d' hpattern.relative, hjoin, hjoin']
    refine mirrored_expand hfs hsame hfront hfront' hpattern ?_ ?_ false
    · rw [String.length_append]
      omega
    · rw [String.length_append]
      omega
  obtain ⟨f, f', xs, xs', hf, hf', hspelled, hspelled', hperm, hinner⟩ := hmirrored
  have hsorted : ∀ x ∈ Report.sorted xs, IsInner x := fun x hx => hinner x ((sorted_perm xs).mem_iff.mp hx)
  obtain ⟨more, hmore, hmore', hlies⟩ := exists_fresh hsame hf hf' hsorted hfound
  unfold group
  rw [hspelled, hspelled', sorted_map_append, sorted_map_append, sorted_congr hperm]
  exact ⟨more, hmore, hmore', hlies⟩

end Mirrored

theorem gather_sameContents {fs : Files} (hfs : fs.Proper) {d d' : String} {p p' : List String}
    (hd : fs.place d = .ok p) (hd' : fs.place d' = .ok p') (hsame : fs.SameContents p p')
    (hplain : hasGlyph d = false) (hplain' : hasGlyph d' = false) {patterns : List String}
    (hpatterns : ∀ pattern ∈ patterns, IsInner pattern) :
    ∃ found : List (List String), gather fs d patterns = found.map (under d) ∧
      gather fs d' patterns = found.map (under d') ∧ ∀ names ∈ found, Lies fs d d' p p' names := by
  induction patterns using List.reverseRecOn with
  | nil => exact ⟨[], rfl, rfl, nofun⟩
  | append_singleton patterns pattern ih =>
      obtain ⟨found, hfound, hfound', hlies⟩ := ih fun q hq => hpatterns q (List.mem_append_left _ hq)
      have hpattern := hpatterns pattern (List.mem_append_right _ (List.mem_singleton_self pattern))
      obtain ⟨more, hmore, hmore', hmoreLies⟩ := exists_group hfs hsame hd hd' hplain hplain' hpattern hlies
      refine ⟨found ++ more, ?_, ?_, fun r hr => (List.mem_append.mp hr).elim (hlies r) (hmoreLies r)⟩
      · rw [gather_append, hfound, hmore, List.map_append]
      · rw [gather_append, hfound', hmore', List.map_append]

/-- Whether a pattern can be followed below a directory that is there is a matter of the pattern. -/
theorem isBarred_join {fs : Files} (hfs : fs.Proper) {d : String} {p : List String} (hd : fs.place d = .ok p)
    (hplain : hasGlyph d = false) {pattern : String} (hpattern : IsInner pattern) :
    isBarred (Path.join d pattern) = isBarred pattern := by
  obtain ⟨front, hjoin, hfront⟩ := exists_fronts hd hplain
  have hnull : hasNull d = false := by
    rw [← any_hasNull, List.any_eq_false]
    exact fun part hpart => by simpa [hasNull] using plain_of_place hfs hd part hpart
  have hslash : hasNull (front ++ "/") = false := by
    have hne : d ≠ "" := by
      rintro rfl
      cases hd
    rw [← hjoin]
    rcases join_empty hne with ⟨-, hd'⟩ | ⟨-, hd'⟩
    · rw [hd', hnull]
    · rw [hd', hasNull_append, hnull]
      decide
  rw [hasNull_append, Bool.or_eq_false_iff] at hslash
  rw [join_eq d hpattern.relative, hjoin, isBarred_below hfront.plain hslash.1]

/-- Three directories with the same contents, one of them with brackets in its name, and a directory whose name the
brackets fit. -/
def twinFiles : Files where
  working := []
  entries :=
    [([], .directory), (["h"], .directory), (["h", "a.py"], .program (.body [])), (["x"], .directory),
      (["x", "k"], .directory), (["x", "k", "a.py"], .program (.body [])), (["g[1]"], .directory),
      (["g[1]", "a.py"], .program (.body [])), (["g1"], .directory), (["g1", "b.py"], .program (.body []))]

theorem proper_twinFiles : twinFiles.Proper := ⟨by decide, by decide, by decide⟩

theorem sameContents_twinFiles {p : List String} (hp : p = ["x", "k"] ∨ p = ["g[1]"]) :
    twinFiles.SameContents ["h"] p := by
  have hcontents (p r : List String) (hp : p = ["h"] ∨ p = ["x", "k"] ∨ p = ["g[1]"]) :
      twinFiles.at? (p ++ r) =
        if r = [] then some .directory else if r = ["a.py"] then some (.program (.body [])) else none := by
    unfold Files.at? twinFiles
    rcases r with _ | ⟨n, _ | ⟨m, r⟩⟩
    · rcases hp with rfl | rfl | rfl <;> simp [List.lookup_cons]
    · by_cases hn : n = "a.py"
      · rcases hp with rfl | rfl | rfl <;> simp [List.lookup_cons, hn]
      · have hne : (n == "a.py") = false := beq_false_of_ne hn
        rcases hp with rfl | rfl | rfl <;> simp [List.lookup_cons, hn, hne]
    · rcases hp with rfl | rfl | rfl <;> simp [List.lookup_cons]
  refine ⟨rfl, fun r => ?_⟩
  rw [hcontents ["h"] r (Or.inl rfl), hcontents p r (Or.inr hp)]

end Loading.Finder

end GrammarBench
