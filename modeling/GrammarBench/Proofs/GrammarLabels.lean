import GrammarBench.Module.Choice
import GrammarBench.Proofs.GrammarClasses
import GrammarBench.Proofs.LowerCase

/-!
# Labels of grammar classes

What the two classes of a grammar text are called, and what they are chosen by.

* `Class.Labelled`: a complete class with its number, its names and the grammar it is for.
* `GrammarClasses.labelled_of_build`: the labels of both classes.
* `GrammarClasses.fits_lexerClass`, `GrammarClasses.fits_parserClass`: each class plays its own role only.
-/

namespace GrammarBench

namespace Class

variable {own : Layer} {bases : List Class} {c : Class}

theorem labels_of_withTable {d : Class} (h : c.withTable = .ok d) :
    d.home = c.home ∧ d.own.missing = c.own.missing := by
  unfold withTable at h
  split at h
  · obtain ⟨table, -, h⟩ := Outcome.bind_ok h
    cases h
    exact ⟨rfl, rfl⟩
  · cases h
    exact ⟨rfl, rfl⟩

theorem home_of_define (h : define own bases = .ok c) : c.home = own.home := by
  obtain ⟨d, hderive, htable⟩ := Outcome.bind_ok h
  obtain ⟨behind, -, hderive⟩ := Outcome.bind_ok hderive
  rw [(labels_of_withTable htable).1]
  cases hderive
  rfl

/-- Nothing is missing in a class when it misses nothing itself and its bases are complete. -/
theorem complete_of_define (h : define own bases = .ok c)
    (hown : ∀ m ∈ own.members, m.2.isMissing = false) (hbases : ∀ b ∈ bases, b.own.missing = []) :
    c.isAbstract = false := by
  obtain ⟨d, hderive, htable⟩ := Outcome.bind_ok h
  have hmissing : d.own.missing = [] := by
    unfold derive at hderive
    obtain ⟨behind, -, hderive⟩ := Outcome.bind_ok hderive
    cases hderive
    have hlocated : (located own).members.filter (·.2.isMissing) = [] := by
      rw [List.filter_eq_nil_iff]
      unfold located
      dsimp only
      intro m hm
      obtain ⟨⟨name, m⟩, hmem, rfl⟩ := List.mem_map.mp hm
      have := hown _ hmem
      cases m <;> simp_all [locatedMember, Member.isMissing]
    have hnone : (if bases.isEmpty then [root] else bases).flatMap (·.own.missing) = [] := by
      rw [List.flatMap_eq_nil_iff]
      split
      · intro b hb
        rw [List.mem_singleton.mp hb]
        rfl
      · exact hbases
    dsimp only
    split
    · unfold missingIn
      rw [hlocated, hnone]
      rfl
    · rfl
  unfold isAbstract
  rw [(labels_of_withTable htable).2, hmissing]
  rfl

/-- A complete class with its number, its names and the grammar it is for. -/
structure Labelled (c : Class) (id : Nat) (name home grammar : String) : Prop where
  id : c.own.id = id
  name : c.name = name
  home : c.home = home
  complete : c.isAbstract = false
  grammar : c.member? "grammar_name" = some (.value (.text (Text.toLower grammar)))

theorem Labelled.grammarName {id : Nat} {name home grammar : String}
    (h : Labelled c id name home grammar) (suffix : String) :
    c.grammarName suffix = .ok (Text.toLower grammar) := by
  unfold Class.grammarName
  rw [h.grammar]
  exact congrArg Except.ok (Text.toLower_toLower grammar)

end Class

namespace GrammarClasses

open GrammarBench.Class

variable {id : Nat} {name text home : String} {options : List (String × Value)} {shelf : Grammar.Shelf}
  {g : GrammarClasses}

/-- The labels of both classes of a grammar, and what stands behind the classes. -/
structure LabelledPair (g : GrammarClasses) (id : Nat) (name home : String) : Prop where
  lexer : Labelled g.lexer id (Grammar.className name ++ "Lexer") home name
  parser : Labelled g.parser (id + 1) (Grammar.className name ++ "Parser") home name
  lexerBehind : g.lexer.behind = grammarLexer.layers
  parserBehind : g.parser.behind = grammarParser.layers

theorem labelled_of_ofLanguage {rules : List String} {l : Grammar.Language}
    (h : ofLanguage id name home rules l = .ok g) : g.LabelledPair id name home := by
  obtain ⟨lexer, hlexer, h⟩ := Outcome.bind_ok h
  obtain ⟨parser, hparser, h⟩ := Outcome.bind_ok h
  cases h
  have hlexerDefines := defines_of_define hlexer
  have hparserDefines := defines_of_define hparser
  refine ⟨⟨hlexerDefines.id, hlexerDefines.name, home_of_define hlexer, ?_, ?_⟩,
    ⟨hparserDefines.id, hparserDefines.name, home_of_define hparser, ?_, ?_⟩,
    hlexerDefines.behind_eq order_grammarLexer, hparserDefines.behind_eq order_grammarParser⟩
  · refine complete_of_define hlexer (by simp [sharedMembers, Member.isMissing]) fun b hb => ?_
    rw [List.mem_singleton.mp hb]
    rfl
  · rw [member?_eq, hlexerDefines.find _ (by decide)]
    rfl
  · refine complete_of_define hparser (by simp [sharedMembers, Member.isMissing]) fun b hb => ?_
    rw [List.mem_singleton.mp hb]
    rfl
  · rw [member?_eq, hparserDefines.find _ (by decide)]
    rfl

theorem labelled_of_build (h : build id name text home options shelf = .ok g) :
    g.LabelledPair id name home := by
  obtain ⟨⟨l, log⟩, -, h⟩ := Outcome.bind_ok h
  obtain ⟨made, hmade, h⟩ := Outcome.bind_ok h
  obtain ⟨hlexer, hparser, hlexerBehind, hparserBehind⟩ := labelled_of_ofLanguage hmade
  cases h
  exact ⟨hlexer, hparser, hlexerBehind, hparserBehind⟩

/-! ## Roles -/

theorem hasLayer_eq {c : Class} {layers : List Layer} (hbehind : c.behind = layers) (n : Nat) :
    c.hasLayer n = (decide (c.own.id = n) || layers.any (·.id = n)) := by
  unfold hasLayer Class.layers
  rw [List.any_cons, hbehind]

/-- The lexer class of a grammar can be chosen as a lexer class only. -/
theorem fits_lexerClass (h : g.LabelledPair id name home) (hid : Layer.firstFree ≤ id) (r : Role) :
    r.fits g.lexer = true ↔ r = .lexer := by
  have hne : id ≠ Layer.parser.id := Nat.ne_of_gt (Nat.lt_of_lt_of_le (by decide) hid)
  have hparser : grammarLexer.layers.any (·.id = Layer.parser.id) = false := rfl
  have hlexer : grammarLexer.layers.any (·.id = Layer.lexer.id) = true := rfl
  unfold Role.fits isLexer isParser
  rw [h.lexer.complete, hasLayer_eq h.lexerBehind, hasLayer_eq h.lexerBehind, h.lexer.id, hparser,
    hlexer, decide_eq_false hne]
  cases r <;> simp

/-- The parser class of a grammar can be chosen as a parser class only. -/
theorem fits_parserClass (h : g.LabelledPair id name home) (hid : Layer.firstFree ≤ id) (r : Role) :
    r.fits g.parser = true ↔ r = .parser := by
  have hne : id + 1 ≠ Layer.lexer.id :=
    Nat.ne_of_gt (Nat.lt_succ_of_lt (Nat.lt_of_lt_of_le (by decide) hid))
  have hlexer : grammarParser.layers.any (·.id = Layer.lexer.id) = false := rfl
  have hparser : grammarParser.layers.any (·.id = Layer.parser.id) = true := rfl
  unfold Role.fits isLexer isParser
  rw [h.parser.complete, hasLayer_eq h.parserBehind, hasLayer_eq h.parserBehind, h.parser.id, hparser,
    hlexer, decide_eq_false hne]
  cases r <;> simp

end GrammarClasses

end GrammarBench
