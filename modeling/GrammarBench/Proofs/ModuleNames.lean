import GrammarBench.Loading.Compile

/-!
# The names of loaded modules

The name that a path is registered under starts with a mark of its own and has no dots, so that it is no part
of a package and no installed module has it.
-/

namespace GrammarBench.Loading

theorem toList_moduleName (path : String) : ∃ stem, (moduleName path).toList = moduleMark.toList ++ stem ∧
    ∀ c ∈ stem, Text.isWord c = true := by
  unfold moduleName
  dsimp only
  rw [String.toList_append]
  refine ⟨_, rfl, fun c hc => ?_⟩
  split at hc
  · have hmodule : "module".toList.all Text.isWord = true := by decide +kernel
    exact List.all_eq_true.mp hmodule c hc
  · rw [String.toList_ofList] at hc
    obtain ⟨d, -, rfl⟩ := List.mem_map.mp hc
    split
    · assumption
    · decide +kernel

theorem nameOrDefault_moduleName (path : String) :
    nameOrDefault (some (moduleName path)) = moduleName path := by
  obtain ⟨stem, hstem, -⟩ := toList_moduleName path
  have hne : moduleName path ≠ "" := by
    intro hempty
    rw [hempty] at hstem
    cases hstem
  unfold nameOrDefault
  split
  · rename_i h
    cases h
  · rename_i h
    exact absurd (Option.some.inj h) hne
  · rename_i h
    exact (Option.some.inj h).symm

theorem parts_moduleName (path : String) : Import.parts (moduleName path) = [moduleName path] := by
  obtain ⟨stem, hstem, hword⟩ := toList_moduleName path
  have hdot : '.' ∉ (moduleName path).toList := by
    rw [hstem, List.mem_append]
    rintro (hmark | htail)
    · exact absurd hmark (by decide +kernel)
    · exact absurd (hword '.' htail) (by decide +kernel)
  unfold Import.parts
  rw [List.splitOn_eq_singleton hdot, List.map_singleton, String.ofList_toList]

/-- A name without the mark is made for no path. -/
theorem moduleName_ne {name : String} (hname : moduleMark.toList.isPrefixOf name.toList = false)
    (path : String) : moduleName path ≠ name := by
  rintro rfl
  obtain ⟨stem, hstem, -⟩ := toList_moduleName path
  rw [hstem, Bool.eq_false_iff] at hname
  exact hname (List.isPrefixOf_iff_prefix.mpr (List.prefix_append _ _))

theorem uninstalled_moduleName (path : String) : Installed.find? (moduleName path) = none := by
  have hplain : ∀ name ∈ Installed.plain, moduleMark.toList.isPrefixOf name.toList = false := by
    decide +kernel
  have hpackages : ∀ name ∈ Installed.packages, moduleMark.toList.isPrefixOf name.toList = false := by
    decide +kernel
  have hown : ∀ name ∈ Installed.own.map (·.1), moduleMark.toList.isPrefixOf name.toList = false := by
    decide +kernel
  unfold Installed.find?
  rw [if_neg, if_neg, List.lookup_eq_none_iff.mpr]
  · rfl
  · intro m hm
    rw [bne_iff_ne]
    exact moduleName_ne (hown m.1 (List.mem_map_of_mem hm)) path
  · rw [List.contains_iff_mem]
    exact fun hmem => moduleName_ne (hpackages _ hmem) path rfl
  · rw [List.contains_iff_mem]
    exact fun hmem => moduleName_ne (hplain _ hmem) path rfl

end GrammarBench.Loading
