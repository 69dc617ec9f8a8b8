import Mathlib.Data.List.DropRight
import GrammarBench.Path
import GrammarBench.Proofs.Pieces

/-!
# Paths in normal form

A path falls into its parts at the slashes. Its normal form keeps the parts that lead somewhere, behind no slash, one
or two.

* `Path.parts_intercalate`, `Path.parts_below`: the parts of paths that are put together.
* `Path.Settled`: the parts that a normal form keeps.
* `Path.normal_normal`: a normal form is its own normal form.
-/

namespace GrammarBench.Path

/-! ## Parts -/

theorem splitSlashes_eq (s : List Char) : splitSlashes s = s.splitOn '/' := by
  induction s with
  | nil => rfl
  | cons c r ih =>
      rw [List.splitOn_cons_eq_if_modifyHead, ← ih]
      by_cases hc : c = '/'
      · subst hc
        rfl
      · rw [if_neg (by simpa using hc)]
        rw [splitSlashes.eq_3 c r hc, ih]
        cases hrest : r.splitOn '/' with
        | nil => exact absurd hrest (List.splitOn_ne_nil '/' r)
        | cons l ls => rfl

theorem parts_eq (path : String) : parts path = Text.pieces '/' path := by
  unfold parts Text.pieces
  rw [splitSlashes_eq]

theorem parts_ne_nil (path : String) : parts path ≠ [] := parts_eq path ▸ Text.pieces_ne_nil '/' path

theorem slashless_of_mem_parts {path part : String} (h : part ∈ parts path) : '/' ∉ part.toList :=
  Text.undivided_of_mem_pieces (parts_eq path ▸ h)

theorem intercalate_parts (path : String) : "/".intercalate (parts path) = path := by
  rw [parts_eq]
  exact Text.intercalate_pieces '/' path

theorem parts_intercalate {names : List String} (hne : names ≠ []) (h : ∀ n ∈ names, '/' ∉ n.toList) :
    parts ("/".intercalate names) = names := by
  rw [parts_eq]
  exact Text.pieces_intercalate hne h

theorem parts_below (above below : String) : parts (above ++ "/" ++ below) = parts above ++ parts below := by
  rw [parts_eq, parts_eq, parts_eq]
  exact Text.pieces_append '/' above below

theorem parts_closed (front : String) : parts (front ++ "/") = parts front ++ [""] := by
  have hparts := parts_below front ""
  rwa [String.append_empty] at hparts

theorem parts_slashless {part : String} (h : '/' ∉ part.toList) : parts part = [part] := by
  rw [parts_eq]
  exact Text.pieces_undivided h

/-! ## Paths below others -/

/-- The path does not start at the root. -/
def IsRelative (path : String) : Prop := path.toList.head? ≠ some '/'

instance : DecidablePred IsRelative := fun path => inferInstanceAs (Decidable (path.toList.head? ≠ some '/'))

theorem startsWith_slash {path : String} : path.startsWith "/" = true ↔ ¬ IsRelative path := by
  rw [String.startsWith_string_iff]
  unfold IsRelative
  rw [not_not]
  cases path.toList with
  | nil => simp
  | cons c r => simp [List.cons_prefix_cons, eq_comm]

theorem endsWith_slash {path : String} : path.endsWith "/" = true ↔ path.toList.getLast? = some '/' := by
  have hslice := @String.Slice.endsWith_string_iff "/" path.toSlice
  rw [String.copy_toSlice] at hslice
  refine hslice.trans ?_
  rw [List.getLast?_eq_some_iff]
  exact exists_congr fun front => eq_comm

/-- The path ends with a slash. -/
def IsClosed (path : String) : Prop := ∃ front, path = front ++ "/"

theorem endsWith_slash_iff {path : String} : path.endsWith "/" = true ↔ IsClosed path := by
  rw [endsWith_slash, List.getLast?_eq_some_iff]
  constructor
  · rintro ⟨front, hfront⟩
    refine ⟨String.ofList front, ?_⟩
    rw [← String.toList_inj, String.toList_append, hfront]
    exact congrArg (· ++ _) String.toList_ofList.symm
  · rintro ⟨front, rfl⟩
    exact ⟨front.toList, String.toList_append⟩

theorem join_eq (above : String) {below : String} (h : IsRelative below) :
    join above below = join above "" ++ below := by
  have hempty : ¬ "".startsWith "/" = true := by decide +kernel
  unfold join
  rw [if_neg (startsWith_slash.not.mpr (not_not.mpr h)), if_neg hempty]
  split
  · rw [String.append_empty]
  · rw [String.append_empty]

/-- Below a path everything stands behind a slash, which is put there unless the path ends with one. -/
theorem join_empty {above : String} (h : above ≠ "") :
    (IsClosed above ∧ join above "" = above) ∨ (¬ IsClosed above ∧ join above "" = above ++ "/") := by
  have hempty : ¬ "".startsWith "/" = true := by decide +kernel
  unfold join
  rw [if_neg hempty, String.append_empty]
  by_cases hslash : above.endsWith "/" = true
  · exact Or.inl ⟨endsWith_slash_iff.mp hslash, by rw [if_pos (by simp [hslash])]⟩
  · exact Or.inr ⟨endsWith_slash_iff.not.mp hslash, by rw [if_neg (by simp [h, hslash]), String.append_empty]⟩

/-- Behind a path that ends with a slash, joining goes on as it does without it. -/
theorem join_append {above : String} (habove : IsClosed above) (below : String) {name : String}
    (hname : IsRelative name) : join (above ++ below) name = above ++ join below name := by
  obtain ⟨front, rfl⟩ := habove
  have hends : (front ++ "/" ++ below).endsWith "/" = (decide (below = "") || below.endsWith "/") := by
    rw [Bool.eq_iff_iff, Bool.or_eq_true, endsWith_slash, endsWith_slash, decide_eq_true_iff, String.toList_append]
    by_cases hbelow : below = ""
    · subst hbelow
      simp
    · have hlist : below.toList ≠ [] := fun hnil => hbelow (String.toList_eq_nil_iff.mp hnil)
      rw [List.getLast?_append_of_ne_nil _ hlist]
      simp [hbelow]
  have hne : front ++ "/" ++ below ≠ "" := by simp
  unfold join
  rw [if_neg (startsWith_slash.not.mpr (not_not.mpr hname)), if_neg (startsWith_slash.not.mpr (not_not.mpr hname)),
    hends, decide_eq_false hne, Bool.false_or]
  split
  · rw [String.append_assoc]
  · simp only [String.append_assoc]

theorem join_ne_empty {above below : String} (h : above ≠ "") (hbelow : IsRelative below) : join above below ≠ "" := by
  rw [join_eq above hbelow]
  rcases join_empty h with ⟨-, hjoin⟩ | ⟨-, hjoin⟩ <;> simp [hjoin, h]

theorem join_join {above x y : String} (h : above ≠ "") (hx : IsRelative x) (hy : IsRelative y)
    (hxy : IsRelative (join x y)) : join (join above x) y = join above (join x y) := by
  have hclosed : IsClosed (join above "") := by
    rcases join_empty h with ⟨hclosed, hjoin⟩ | ⟨-, hjoin⟩
    · rwa [hjoin]
    · exact ⟨above, hjoin⟩
  rw [join_eq above hx, join_append hclosed x hy, ← join_eq above hxy]

/-! ## What a normal form keeps -/

/-- The parts that a normal form keeps, the last one first: names, and behind them ways up where there is no root. -/
def Settled (rooted : Bool) : List String → Prop
  | [] => True
  | part :: before => (part ≠ "" ∧ part ≠ "." ∧ '/' ∉ part.toList) ∧
      (part = ".." → rooted = false ∧ ∀ q ∈ before, q = "..") ∧ Settled rooted before

variable {rooted : Bool} {before : List String} {part : String}

theorem Settled.of_append {behind : List String} (h : Settled rooted (behind ++ before)) : Settled rooted before := by
  induction behind with
  | nil => exact h
  | cons part behind ih => exact ih h.2.2

theorem Settled.mem (h : Settled rooted before) : ∀ q ∈ before, q ≠ "" ∧ q ≠ "." ∧ '/' ∉ q.toList := by
  induction before with
  | nil => simp
  | cons part before ih =>
      intro q hq
      rcases List.mem_cons.mp hq with rfl | hq
      · exact h.1
      · exact ih h.2.2 q hq

theorem Settled.addPart (h : Settled rooted before) (hpart : '/' ∉ part.toList) :
    Settled rooted (addPart rooted before part) := by
  unfold Path.addPart
  split
  · exact h
  · next hplain =>
    obtain ⟨hempty, hdot⟩ := not_or.mp (by simpa using hplain)
    split
    · next hname => exact ⟨⟨hempty, hdot, hpart⟩, fun heq => absurd heq hname, h⟩
    · next hup =>
      cases before with
      | nil =>
          cases rooted with
          | true => exact h
          | false => exact ⟨⟨hempty, hdot, hpart⟩, fun _ => ⟨rfl, nofun⟩, h⟩
      | cons last rest =>
          dsimp only
          split
          · next hlast =>
            obtain ⟨hrooted, hrest⟩ := h.2.1 hlast
            refine ⟨⟨hempty, hdot, hpart⟩, fun _ => ⟨hrooted, fun q hq => ?_⟩, h⟩
            rcases List.mem_cons.mp hq with rfl | hq
            · exact hlast
            · exact hrest q hq
          · exact h.2.2

theorem Settled.foldl {names : List String} (h : Settled rooted before) (hnames : ∀ n ∈ names, '/' ∉ n.toList) :
    Settled rooted (names.foldl (Path.addPart rooted) before) := by
  induction names generalizing before with
  | nil => exact h
  | cons name rest ih =>
      exact ih (h.addPart (hnames name List.mem_cons_self)) fun n hn => hnames n (List.mem_cons_of_mem name hn)

/-- A settled part is added as it is. -/
theorem addPart_of_settled (h : Settled rooted (part :: before)) : addPart rooted before part = part :: before := by
  obtain ⟨⟨hempty, hdot, -⟩, hup, -⟩ := h
  unfold addPart
  rw [if_neg (by simp [hempty, hdot])]
  split
  · rfl
  · next hpart =>
    obtain ⟨rfl, hbefore⟩ := hup (not_not.mp hpart)
    cases before with
    | nil => rfl
    | cons last rest =>
        dsimp only
        rw [if_pos (hbefore last List.mem_cons_self)]

theorem foldl_addPart_of_settled {names : List String} (h : Settled rooted (names.reverse ++ before)) :
    names.foldl (addPart rooted) before = names.reverse ++ before := by
  induction names generalizing before with
  | nil => rfl
  | cons name rest ih =>
      rw [List.reverse_cons, List.append_assoc, List.singleton_append] at h
      rw [List.foldl_cons, addPart_of_settled h.of_append, ih h, List.reverse_cons, List.append_assoc]
      rfl

/-- The parts that the normal form of a path keeps, the last one first. -/
def kept (path : String) : List String := (parts path).foldl (addPart (rootOf path ≠ "")) []

theorem settled_kept (path : String) : Settled (rootOf path ≠ "") (kept path) :=
  Settled.foldl trivial fun _ hn => slashless_of_mem_parts hn

/-! ## Normal forms -/

/-- The slashes that a normal form can start with. -/
def IsRoot (root : String) : Prop := root = "" ∨ root = "/" ∨ root = "//"

theorem isRoot_rootOf (path : String) : IsRoot (rootOf path) := by
  unfold rootOf IsRoot
  split <;> simp

/-- The path of a root and some parts behind it. -/
def spelled (root : String) (names : List String) : String :=
  if root ++ "/".intercalate names = "" then "." else root ++ "/".intercalate names

theorem normal_eq (path : String) : normal path = spelled (rootOf path) (kept path).reverse := rfl

theorem rootOf_root {root : String} (h : IsRoot root) : rootOf root = root := by
  rcases h with rfl | rfl | rfl <;> decide +kernel

/-- What stands behind a path does not change its root, unless slashes follow on nothing but slashes. -/
theorem rootOf_append {path rest : String} (h : IsRelative rest ∨ ∃ c ∈ path.toList, c ≠ '/') :
    rootOf (path ++ rest) = rootOf path := by
  have hslashes : (path ++ rest).toList.takeWhile (· = '/') = path.toList.takeWhile (· = '/') := by
    rw [String.toList_append, List.takeWhile_append]
    split
    · next hall =>
      have heq : path.toList.takeWhile (· = '/') = path.toList :=
        (List.takeWhile_prefix _).eq_of_length hall
      have hrest : rest.toList.takeWhile (· = '/') = [] := by
        rcases h with h | ⟨c, hc, hne⟩
        · cases hlist : rest.toList with
          | nil => rfl
          | cons c r =>
              refine List.takeWhile_cons_of_neg fun hc => h ?_
              rw [hlist, of_decide_eq_true hc]
              rfl
        · exact absurd (of_decide_eq_true (List.takeWhile_eq_self_iff.mp heq c hc)) hne
      rw [hrest, List.append_nil, heq]
    · rfl
  unfold rootOf
  rw [hslashes]

/-- Names put together behind a root start with no slash of their own. -/
theorem isRelative_intercalate {names : List String} (h : ∀ n ∈ names, n ≠ "" ∧ '/' ∉ n.toList) :
    IsRelative ("/".intercalate names) := by
  unfold IsRelative
  cases names with
  | nil => simp
  | cons name rest =>
      obtain ⟨hempty, hslash⟩ := h name List.mem_cons_self
      obtain ⟨c, r, hname⟩ := List.exists_cons_of_ne_nil fun hnil => hempty (String.toList_eq_nil_iff.mp hnil)
      have hhead : ("/".intercalate (name :: rest)).toList.head? = some c := by
        rw [String.toList_intercalate, List.map_cons, hname]
        cases rest <;> rfl
      rw [hhead]
      rintro ⟨⟩
      exact hslash (hname ▸ List.mem_cons_self)

/-- The parts of a root and some names lead where the names do. -/
theorem foldl_parts_root {root : String} {names : List String} (hroot : IsRoot root)
    (h : ∀ n ∈ names, '/' ∉ n.toList) (rooted : Bool) :
    (parts (root ++ "/".intercalate names)).foldl (addPart rooted) [] = names.foldl (addPart rooted) [] := by
  have hnames : (parts ("/".intercalate names)).foldl (addPart rooted) [] = names.foldl (addPart rooted) [] := by
    cases names with
    | nil => rfl
    | cons name rest => rw [parts_intercalate (List.cons_ne_nil _ _) h]
  rcases hroot with rfl | rfl | rfl
  · exact (congrArg _ (congrArg parts String.empty_append)).trans hnames
  · have hparts : parts ("/" ++ "/".intercalate names) = [""] ++ parts ("/".intercalate names) :=
      parts_below "" _
    rw [hparts, List.foldl_append]
    exact hnames
  · have hparts : parts ("//" ++ "/".intercalate names) = ["", ""] ++ parts ("/".intercalate names) :=
      parts_below "/" _
    rw [hparts, List.foldl_append]
    exact hnames

/-- **Normal forms.** A path in normal form stays as it is. -/
theorem normal_normal (path : String) : normal (normal path) = normal path := by
  have hsettled := settled_kept path
  have hroot := isRoot_rootOf path
  have hmem : ∀ n ∈ (kept path).reverse, n ≠ "" ∧ n ≠ "." ∧ '/' ∉ n.toList := fun n hn =>
    hsettled.mem n (List.mem_reverse.mp hn)
  rw [normal_eq path]
  unfold spelled
  split
  · rfl
  · next hne =>
    generalize htext : rootOf path ++ "/".intercalate (kept path).reverse = text at hne
    have hrooted : rootOf text = rootOf path := by
      rw [← htext]
      rw [rootOf_append (Or.inl (isRelative_intercalate fun n hn => ⟨(hmem n hn).1, (hmem n hn).2.2⟩)),
        rootOf_root hroot]
    have hkept : kept text = kept path := by
      show (parts text).foldl (addPart (rootOf text ≠ "")) [] = kept path
      rw [hrooted, ← htext, foldl_parts_root hroot fun n hn => (hmem n hn).2.2,
        foldl_addPart_of_settled (by simpa using hsettled), List.reverse_reverse, List.append_nil]
    rw [normal_eq, hrooted, hkept, spelled, htext, if_neg hne]

/-! ## Parts that lead somewhere -/

/-- The parts of a path that name something. -/
def named (path : String) : List String := (parts path).filter fun part => part ≠ "" && part ≠ "."

/-- Nothing in the path leads back up or to the root. -/
structure IsInner (path : String) : Prop where
  relative : IsRelative path
  downward : ".." ∉ parts path

/-- Names that can stand in a directory. -/
def IsName (name : String) : Prop := name ≠ "" ∧ name ≠ "." ∧ name ≠ ".." ∧ '/' ∉ name.toList

instance : DecidablePred IsName := fun name =>
  inferInstanceAs (Decidable (name ≠ "" ∧ name ≠ "." ∧ name ≠ ".." ∧ '/' ∉ name.toList))

theorem isInner_slashless {part : String} (hslash : '/' ∉ part.toList) (hup : part ≠ "..") : IsInner part := by
  constructor
  · intro hhead
    obtain ⟨r, hr⟩ := List.head?_eq_some_iff.mp hhead
    exact hslash (hr ▸ List.mem_cons_self)
  · rw [parts_slashless hslash, List.mem_singleton]
    exact Ne.symm hup

theorem IsName.isInner {name : String} (h : IsName name) : IsInner name := isInner_slashless h.2.2.2 h.2.2.1

theorem isInner_empty : IsInner "" := ⟨by decide, by decide +kernel⟩

theorem isRelative_append {above : String} (h : above ≠ "") (below : String) :
    IsRelative (above ++ below) ↔ IsRelative above := by
  obtain ⟨c, r, habove⟩ := List.exists_cons_of_ne_nil fun hnil => h (String.toList_eq_nil_iff.mp hnil)
  unfold IsRelative
  rw [String.toList_append, habove]
  rfl

theorem join_nil {below : String} (h : IsRelative below) : join "" below = below := by
  unfold join
  rw [if_neg (startsWith_slash.not.mpr (not_not.mpr h))]
  exact String.empty_append

/-- An inner path below an inner path is one, too. -/
theorem IsInner.join {above below : String} (habove : IsInner above) (hbelow : IsInner below) :
    IsInner (join above below) := by
  by_cases hempty : above = ""
  · rw [hempty, join_nil hbelow.relative]
    exact hbelow
  · rw [join_eq above hbelow.relative]
    rcases join_empty hempty with ⟨⟨front, hfront⟩, hjoin⟩ | ⟨-, hjoin⟩
    · have hparts : ".." ∉ parts front := fun h =>
        habove.downward (by rw [hfront, parts_closed]; exact List.mem_append_left _ h)
      rw [hjoin]
      refine ⟨(isRelative_append hempty below).mpr habove.relative, ?_⟩
      rw [hfront, parts_below, List.mem_append]
      exact fun h => h.elim hparts hbelow.downward
    · rw [hjoin]
      refine ⟨?_, ?_⟩
      · rw [String.append_assoc, isRelative_append hempty]
        exact habove.relative
      · rw [parts_below, List.mem_append]
        exact fun h => h.elim habove.downward hbelow.downward

theorem IsInner.isName {path : String} (h : IsInner path) : ∀ n ∈ named path, IsName n := by
  intro n hn
  obtain ⟨hpart, hnamed⟩ := List.mem_filter.mp hn
  obtain ⟨hempty, hdot⟩ : n ≠ "" ∧ n ≠ "." := by simpa using hnamed
  exact ⟨hempty, hdot, fun heq => h.downward (heq ▸ hpart), slashless_of_mem_parts hpart⟩

theorem isInner_intercalate {names : List String} (h : ∀ n ∈ names, IsName n) : IsInner ("/".intercalate names) := by
  constructor
  · exact isRelative_intercalate fun n hn => ⟨(h n hn).1, (h n hn).2.2.2⟩
  · cases names with
    | nil => exact isInner_empty.downward
    | cons n rest =>
        rw [parts_intercalate (List.cons_ne_nil _ _) fun m hm => (h m hm).2.2.2]
        exact fun hup => (h _ hup).2.2.1 rfl

theorem named_intercalate {names : List String} (h : ∀ n ∈ names, IsName n) :
    named ("/".intercalate names) = names := by
  unfold named
  cases names with
  | nil => decide
  | cons n rest =>
      rw [parts_intercalate (List.cons_ne_nil _ _) fun m hm => (h m hm).2.2.2, List.filter_eq_self]
      exact fun m hm => by simp [(h m hm).1, (h m hm).2.1]

/-- Where nothing leads back up, the names are added to what is there. -/
theorem foldl_addPart_downward {ps : List String} (h : ".." ∉ ps) (rooted : Bool) (before : List String) :
    ps.foldl (addPart rooted) before = (ps.filter fun part => part ≠ "" && part ≠ ".").reverse ++ before := by
  induction ps generalizing before with
  | nil => rfl
  | cons part rest ih =>
      obtain ⟨hpart, hrest⟩ := not_or.mp (List.mem_cons.not.mp h)
      rw [List.foldl_cons, ih hrest]
      by_cases hnamed : part = "" ∨ part = "."
      · have hadd : addPart rooted before part = before := if_pos (by simpa using hnamed)
        rw [hadd, List.filter_cons_of_neg (by rcases hnamed with rfl | rfl <;> simp)]
      · have hadd : addPart rooted before part = part :: before := by
          unfold addPart
          rw [if_neg (by simpa using hnamed), if_pos (Ne.symm hpart)]
        rw [hadd, List.filter_cons_of_pos (by simpa [not_or] using hnamed), List.reverse_cons, List.append_assoc]
        rfl

/-- The normal form of an inner path below another one: the names are added to what is kept of the other. -/
theorem normal_append_inner {front below : String} (h : IsInner below) :
    normal (front ++ "/" ++ below) = spelled (rootOf (front ++ "/"))
      (((parts front).foldl (addPart (rootOf (front ++ "/") ≠ "")) []).reverse ++ named below) := by
  have hroot : rootOf (front ++ "/" ++ below) = rootOf (front ++ "/") := rootOf_append (Or.inl h.relative)
  rw [normal_eq]
  unfold kept
  rw [hroot, parts_below, List.foldl_append, foldl_addPart_downward h.downward, List.reverse_append,
    List.reverse_reverse]
  rfl

/-! ## Halves -/

/-- The path without the slashes at its end. -/
def trimmed (path : String) : String := String.ofList (path.toList.rdropWhile (· = '/'))

def slashes (k : Nat) : String := String.ofList (List.replicate k '/')

theorem eq_trimmed_append (path : String) : ∃ k, path = trimmed path ++ slashes k := by
  refine ⟨(path.toList.rtakeWhile (· = '/')).length, ?_⟩
  have hslashes : path.toList.rtakeWhile (· = '/') =
      List.replicate (path.toList.rtakeWhile (· = '/')).length '/' :=
    List.eq_replicate_iff.mpr ⟨rfl, fun c hc => by simpa using List.mem_rtakeWhile_imp hc⟩
  unfold trimmed slashes
  rw [← String.toList_inj, String.toList_append, String.toList_ofList, String.toList_ofList, ← hslashes,
    List.rdropWhile_append_rtakeWhile]

theorem trimmed_append_slash (front : String) : trimmed (front ++ "/") = trimmed front := by
  unfold trimmed
  rw [String.toList_append]
  exact congrArg String.ofList (List.rdropWhile_concat_pos _ _ _ rfl)

/-- The slashes at the end of what stands below a path. -/
theorem trimmed_append {above below : String} (h : trimmed below ≠ "") :
    trimmed (above ++ below) = above ++ trimmed below := by
  have hkept : (below.toList.reverse.dropWhile (· = '/')) ≠ [] := fun hnil => h (by
    unfold trimmed List.rdropWhile
    rw [hnil]
    rfl)
  unfold trimmed List.rdropWhile
  rw [← String.toList_inj]
  simp only [String.toList_append, String.toList_ofList, List.reverse_append]
  rw [List.dropWhile_append, if_neg (by simpa using hkept), List.reverse_append, List.reverse_reverse]

theorem trimmed_ne_empty {path : String} (h : IsRelative path) (hne : path ≠ "") : trimmed path ≠ "" := by
  intro hempty
  have hall : ∀ c ∈ path.toList, c = '/' := by
    have hnil : path.toList.rdropWhile (· = '/') = [] := String.ofList_eq_empty_iff.mp hempty
    exact fun c hc => of_decide_eq_true (List.rdropWhile_eq_nil_iff.mp hnil c hc)
  obtain ⟨c, r, hpath⟩ := List.exists_cons_of_ne_nil fun hnil => hne (String.toList_eq_nil_iff.mp hnil)
  apply h
  rw [hpath, hall c (hpath ▸ List.mem_cons_self)]
  rfl

/-- A trimmed path has more to it than slashes, and does not end with one. -/
theorem exists_mem_trimmed {path : String} (h : trimmed path ≠ "") : ∃ c ∈ (trimmed path).toList, c ≠ '/' := by
  by_contra hall
  push Not at hall
  have htwice : (trimmed path).toList.rdropWhile (· = '/') = (trimmed path).toList := by
    unfold trimmed
    rw [String.toList_ofList, List.rdropWhile_idempotent]
  have hnil : (trimmed path).toList = [] := by
    rw [← htwice, List.rdropWhile_eq_nil_iff]
    exact fun c hc => decide_eq_true (hall c hc)
  exact h (String.toList_eq_nil_iff.mp hnil)

theorem length_trimmed_le (path : String) : (trimmed path).length ≤ path.length := by
  unfold trimmed
  rw [← String.length_toList, ← String.length_toList, String.toList_ofList]
  exact (List.rdropWhile_prefix _ _).length_le

theorem not_isClosed_trimmed (path : String) : ¬ IsClosed (trimmed path) := by
  rintro ⟨front, hfront⟩
  have htwice : trimmed (trimmed path) = trimmed path := by
    unfold trimmed
    rw [String.toList_ofList, List.rdropWhile_idempotent]
  rw [hfront, trimmed_append_slash] at htwice
  have hlength := length_trimmed_le front
  have hslash : "/".length = 1 := rfl
  rw [htwice, String.length_append] at hlength
  omega

theorem parts_append_slashes (path : String) (k : Nat) :
    parts (path ++ slashes k) = parts path ++ List.replicate k "" := by
  induction k with
  | zero => exact (congrArg parts String.append_empty).trans (List.append_nil _).symm
  | succ k ih =>
      have hslashes : path ++ slashes (k + 1) = path ++ slashes k ++ "/" ++ "" := by
        rw [← String.toList_inj]
        simp only [String.toList_append, slashes, String.toList_ofList, List.replicate_succ', List.append_assoc]
        rfl
      rw [hslashes, parts_below, ih, List.append_assoc, List.replicate_succ']
      rfl

theorem IsInner.last {front last : String} (h : IsInner (front ++ "/" ++ last)) (hlast : '/' ∉ last.toList) :
    IsInner last := by
  refine isInner_slashless hlast fun hup => h.downward ?_
  rw [parts_below, parts_slashless hlast, hup]
  exact List.mem_append_right _ (List.mem_singleton_self _)

/-- What stands in front of the last slash of an inner path, without the slashes at its end. -/
theorem IsInner.trimmed {front last : String} (h : IsInner (front ++ "/" ++ last)) :
    IsInner (trimmed front) ∧ Path.trimmed front ≠ "" := by
  have hne : front ≠ "" := by
    rintro rfl
    exact h.relative (by rw [String.toList_append, String.toList_append]; rfl)
  have hfront : IsRelative front := by
    rw [← isRelative_append hne ("/" ++ last), ← String.append_assoc]
    exact h.relative
  have htrimmed := trimmed_ne_empty hfront hne
  obtain ⟨k, hk⟩ := eq_trimmed_append front
  have hparts : ".." ∉ parts front := fun hup => h.downward (by rw [parts_below]; exact List.mem_append_left _ hup)
  refine ⟨⟨?_, fun hup => hparts ?_⟩, htrimmed⟩
  · rw [← isRelative_append htrimmed (slashes k), ← hk]
    exact hfront
  · rw [hk, parts_append_slashes]
    exact List.mem_append_left _ hup

theorem base_below {front last : String} (h : '/' ∉ last.toList) : base (front ++ "/" ++ last) = last := by
  unfold base
  rw [parts_below, parts_slashless h, List.getLast?_concat]
  rfl

/-- The halves of a path at its last slash. -/
theorem split_below {front last : String} (h : '/' ∉ last.toList) :
    split (front ++ "/" ++ last) = (if trimmed front = "" then front ++ "/" else trimmed front, last) := by
  have hfront : (front ++ "/" ++ last).toList.take ((front ++ "/" ++ last).length - last.length) =
      (front ++ "/").toList := by
    have happend : (front ++ "/" ++ last).toList = (front ++ "/").toList ++ last.toList := String.toList_append
    rw [← String.length_toList, ← String.length_toList, happend, List.length_append, Nat.add_sub_cancel,
      List.take_left]
  have hkept : ((front ++ "/").toList.reverse.dropWhile (· = '/')).reverse = (trimmed front).toList := by
    rw [← trimmed_append_slash front]
    exact String.toList_ofList.symm
  unfold split
  rw [base_below h]
  dsimp only
  rw [hfront, hkept]
  by_cases hempty : trimmed front = ""
  · rw [if_pos (by rw [hempty]; rfl), if_pos hempty, String.ofList_toList]
  · rw [if_neg (by simpa using hempty), if_neg hempty, String.ofList_toList]

/-- A path with one part only has nothing in front of it. -/
theorem split_slashless {path : String} (h : '/' ∉ path.toList) : split path = ("", path) := by
  have hbase : base path = path := by
    unfold base
    rw [parts_slashless h]
    rfl
  unfold split
  rw [hbase]
  dsimp only
  rw [Nat.sub_self, List.take_zero]
  rfl

theorem split_below_below (front : String) {before last : String} (hbefore : trimmed before ≠ "")
    (hlast : '/' ∉ last.toList) :
    split (front ++ "/" ++ (before ++ "/" ++ last)) = (front ++ "/" ++ trimmed before, last) := by
  have hassoc : front ++ "/" ++ (before ++ "/" ++ last) = front ++ "/" ++ before ++ "/" ++ last := by
    simp only [String.append_assoc]
  have htrimmed : trimmed (front ++ "/" ++ before) = front ++ "/" ++ trimmed before := trimmed_append hbefore
  rw [hassoc, split_below hlast, htrimmed, if_neg (by simp)]

/-- A path has one part only, or two halves. -/
theorem exists_halves (path : String) :
    '/' ∉ path.toList ∨ ∃ front last, path = front ++ "/" ++ last ∧ '/' ∉ last.toList := by
  have hpath := intercalate_parts path
  rcases List.eq_nil_or_concat' (parts path) with hnil | ⟨before, last, hparts⟩
  · exact absurd hnil (parts_ne_nil path)
  · have hlast : '/' ∉ last.toList :=
      slashless_of_mem_parts (hparts ▸ List.mem_append_right _ (List.mem_singleton_self last))
    rw [hparts] at hpath
    by_cases hbefore : before = []
    · left
      rw [← hpath, hbefore]
      exact hlast
    · refine Or.inr ⟨"/".intercalate before, last, ?_, hlast⟩
      rw [← hpath, String.intercalate_append_of_ne_nil hbefore (List.cons_ne_nil _ _)]
      rfl

theorem rootOf_eq_empty_iff {path : String} : rootOf path = "" ↔ IsRelative path := by
  have hlength : (path.toList.takeWhile (· = '/')).length = 0 ↔ IsRelative path := by
    unfold IsRelative
    rw [List.length_eq_zero_iff]
    cases path.toList with
    | nil => simp
    | cons c r => simp [List.takeWhile_cons]
  rw [← hlength]
  unfold rootOf
  split <;> simp_all

end GrammarBench.Path
