import GrammarBench.Module.Class
import GrammarBench.Proofs.Outcome

/-!
# The order of layers

A merge of layer lists takes one head after the other and loses none: it holds just the layers of
its lists, as long as layers with the same number are the same.

* `Class.Told`: layers are told apart by their numbers.
* `Class.mem_mergeLayers`: what a merge holds.
* `Class.mem_order`: what stands behind a class with some bases.
* `Class.order_single`: what stands behind a class with one base.
-/

namespace GrammarBench

namespace Class

/-- Layers of some lists that have the same number are the same. -/
def Told (lists : List (List Layer)) : Prop :=
  ∀ a ∈ lists.flatten, ∀ b ∈ lists.flatten, a.id = b.id → a = b

theorem mem_of_nextHead? {lists : List (List Layer)} {h : Layer}
    (hnext : nextHead? lists = some h) :
    h ∈ lists.flatten := by
  unfold nextHead? at hnext
  obtain ⟨l, hl, hfilter⟩ := List.exists_of_findSome?_eq_some hnext
  have hhead : l.head? = some h := (Option.filter_eq_some_iff.mp hfilter).1
  exact List.mem_flatten.mpr ⟨l, hl, List.mem_of_head? hhead⟩

/-- A layer taken off the heads is the only one that is lost. -/
theorem mem_map_dropHead {lists : List (List Layer)} (htold : Told lists) {h : Layer}
    (hmem : h ∈ lists.flatten) (k : Layer) :
    k ∈ lists.flatten ↔ k = h ∨ k ∈ (lists.map (dropHead h)).flatten := by
  constructor
  · intro hk
    obtain ⟨l, hl, hkl⟩ := List.mem_flatten.mp hk
    have hdrop := List.mem_map_of_mem (f := dropHead h) hl
    cases l with
    | nil => cases hkl
    | cons a rest =>
        by_cases hid : a.id = h.id
        · have ha : a = h := htold a (List.mem_flatten.mpr ⟨_, hl, List.mem_cons_self⟩) h hmem hid
          rcases List.mem_cons.mp hkl with rfl | hrest
          · exact Or.inl ha
          · rw [show dropHead h (a :: rest) = rest by simp [dropHead, hid]] at hdrop
            exact Or.inr (List.mem_flatten.mpr ⟨rest, hdrop, hrest⟩)
        · rw [show dropHead h (a :: rest) = a :: rest by simp [dropHead, hid]] at hdrop
          exact Or.inr (List.mem_flatten.mpr ⟨a :: rest, hdrop, hkl⟩)
  · rintro (rfl | hk)
    · exact hmem
    · obtain ⟨l, hl, hkl⟩ := List.mem_flatten.mp hk
      obtain ⟨l', hl', rfl⟩ := List.mem_map.mp hl
      refine List.mem_flatten.mpr ⟨l', hl', ?_⟩
      unfold dropHead at hkl
      split at hkl
      · exact List.mem_of_mem_tail hkl
      · exact hkl

theorem mem_filter_nonempty (lists : List (List Layer)) (k : Layer) :
    k ∈ (lists.filter (!·.isEmpty)).flatten ↔ k ∈ lists.flatten := by
  simp only [List.mem_flatten, List.mem_filter]
  constructor
  · rintro ⟨l, ⟨hl, -⟩, hk⟩
    exact ⟨l, hl, hk⟩
  · rintro ⟨l, hl, hk⟩
    refine ⟨l, ⟨hl, ?_⟩, hk⟩
    cases l with
    | nil => cases hk
    | cons a rest => rfl

/-- A merge holds just the layers of its lists. -/
theorem mem_mergeLayers {rounds : Nat} {lists : List (List Layer)} {merged : List Layer}
    (h : mergeLayers rounds lists = .ok merged) (htold : Told lists) (k : Layer) :
    k ∈ merged ↔ k ∈ lists.flatten := by
  induction rounds generalizing lists merged with
  | zero => cases h
  | succ rounds ih =>
      have hfilter := mem_filter_nonempty lists
      have htold' : Told (lists.filter (!·.isEmpty)) := fun a ha b hb =>
        htold a ((hfilter a).mp ha) b ((hfilter b).mp hb)
      rw [← hfilter k]
      unfold mergeLayers at h
      dsimp only at h
      split at h
      · rename_i hempty
        cases h
        rw [List.isEmpty_iff.mp hempty]
        rfl
      · split at h
        · cases h
        · rename_i head hnext
          have hhead := mem_of_nextHead? hnext
          have hmem := mem_map_dropHead htold' hhead
          have htold'' : Told ((lists.filter (!·.isEmpty)).map (dropHead head)) := fun a ha b hb =>
            htold' a ((hmem a).mpr (Or.inr ha)) b ((hmem b).mpr (Or.inr hb))
          cases hrest : mergeLayers rounds ((lists.filter (!·.isEmpty)).map (dropHead head)) with
          | error left =>
              rw [hrest] at h
              cases h
          | ok rest =>
              rw [hrest] at h
              cases h
              rw [List.mem_cons, ih hrest htold'', hmem k]

/-- Behind a class stand the layers of its bases. -/
theorem mem_order {bases : List Class} {behind : List Layer} (h : order bases = .ok behind)
    (htold : Told (bases.map layers ++ [bases.map (·.own)])) (k : Layer) :
    k ∈ behind ↔ ∃ b ∈ bases, k ∈ b.layers := by
  unfold order at h
  split at h
  · cases h
  · dsimp only at h
    split at h
    · rename_i merged hmerged
      cases h
      rw [mem_mergeLayers hmerged htold k, List.flatten_append, List.mem_append]
      constructor
      · rintro (hk | hk)
        · obtain ⟨l, hl, hkl⟩ := List.mem_flatten.mp hk
          obtain ⟨b, hb, rfl⟩ := List.mem_map.mp hl
          exact ⟨b, hb, hkl⟩
        · rw [List.flatten_singleton] at hk
          obtain ⟨b, hb, rfl⟩ := List.mem_map.mp hk
          exact ⟨b, hb, List.mem_cons_self⟩
      · rintro ⟨b, hb, hk⟩
        exact Or.inl (List.mem_flatten.mpr ⟨_, List.mem_map_of_mem hb, hk⟩)
    · cases h

/-! ## One base -/

theorem nextHead?_cons {a : Layer} {rest : List Layer} {lists : List (List Layer)}
    (hrest : a.id ∉ rest.map (·.id)) (hlists : ∀ l ∈ lists, a.id ∉ l.tail.map (·.id)) :
    nextHead? ((a :: rest) :: lists) = some a := by
  have hall : ((a :: rest) :: lists).all (fun l => l.tail.all (·.id ≠ a.id)) = true := by
    rw [List.all_eq_true]
    intro l hl
    rw [List.all_eq_true]
    intro k hk
    have hne : a.id ∉ l.tail.map (·.id) := by
      rcases List.mem_cons.mp hl with rfl | hl
      · exact hrest
      · exact hlists l hl
    exact decide_eq_true fun heq => hne (heq ▸ List.mem_map_of_mem hk)
  unfold nextHead?
  rw [List.findSome?_cons, List.head?_cons, Option.filter_some, if_pos hall]

/-- One round of a merge. -/
theorem mergeLayers_step {rounds : Nat} {lists kept : List (List Layer)} {h : Layer}
    {rest : List Layer} (hkept : lists.filter (!·.isEmpty) = kept) (hnext : nextHead? kept = some h)
    (hrest : mergeLayers rounds (kept.map (dropHead h)) = .ok rest) :
    mergeLayers (rounds + 1) lists = .ok (h :: rest) := by
  have hne : kept.isEmpty = false := by
    cases kept with
    | nil => cases hnext
    | cons l ls => rfl
  unfold mergeLayers
  dsimp only
  rw [hkept, hne, hnext]
  dsimp only
  rw [hrest]
  rfl

/-- The merge of one list, whatever empty ones are left beside it, is that list. -/
theorem mergeLayers_one {l : List Layer} (hids : (l.map (·.id)).Nodup) {rounds : Nat}
    (hrounds : l.length < rounds) {lists : List (List Layer)}
    (hlists : lists.filter (!·.isEmpty) = [l].filter (!·.isEmpty)) :
    mergeLayers rounds lists = .ok l := by
  induction l generalizing rounds lists with
  | nil =>
      cases rounds with
      | zero => omega
      | succ rounds =>
          unfold mergeLayers
          dsimp only
          rw [hlists]
          rfl
  | cons a rest ih =>
      cases rounds with
      | zero => omega
      | succ rounds =>
          rw [List.map_cons, List.nodup_cons] at hids
          have hlength : rest.length < rounds := by
            rw [List.length_cons] at hrounds
            omega
          have hdrop : [a :: rest].map (dropHead a) = [rest] := by simp [dropHead]
          refine mergeLayers_step hlists (nextHead?_cons hids.1 (by simp)) ?_
          show mergeLayers rounds ([a :: rest].map (dropHead a)) = _
          rw [hdrop]
          exact ih hids.2 hlength rfl

/-- Behind a class with one base stand the layers of that base. -/
theorem order_single {b : Class} (hids : (b.layers.map (·.id)).Nodup) :
    order [b] = .ok b.layers := by
  unfold layers at hids
  rw [List.map_cons, List.nodup_cons] at hids
  have hdrop : [b.layers, [b.own]].map (dropHead b.own) = [b.behind, []] := by
    simp [dropHead, layers]
  have hlength : b.behind.length < b.layers.length + 1 := by
    unfold layers
    rw [List.length_cons]
    omega
  have hrun : mergeLayers (b.layers.length + 1 + 1) [b.layers, [b.own]] = .ok b.layers := by
    refine mergeLayers_step rfl (nextHead?_cons hids.1 (by simp)) ?_
    show mergeLayers _ ([b.layers, [b.own]].map (dropHead b.own)) = _
    rw [hdrop]
    refine mergeLayers_one hids.2 hlength ?_
    cases b.behind <;> rfl
  have hsize : [b.layers, [b.own]].flatten.length = b.layers.length + 1 := by simp
  have hnone : repeated? [b] = none := rfl
  have hlists : [b].map layers ++ [[b].map (·.own)] = [b.layers, [b.own]] := rfl
  unfold order
  rw [hnone]
  dsimp only
  rw [hlists, hsize, hrun]

end Class

end GrammarBench
