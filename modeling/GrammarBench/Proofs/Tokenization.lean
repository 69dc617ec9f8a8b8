import GrammarBench.Proofs.GrammarClasses
import GrammarBench.Proofs.ScanTokens
import GrammarBench.Proofs.Stream

/-!
# The tokens of a text

What the stream over a text holds when the lexer class of a grammar finds a lexeme everywhere in
it. The tokens cut the text into pieces without a gap, each with the type of its terminal, and one
more token ends the input. Lines and columns are right as long as no newline stands in a piece in
which newlines are not counted, and that depends on the terminal that found the piece.

* `Lossless`, `Represents`: what the tokens are to the text and to the findings in it.
* `lossless_scans`, `placed_scans`: the tokens of a scan.
* `GrammarClasses.fill_lossless`: the tokens of a text.
-/

namespace GrammarBench

open Grammar

/-! ## Lossless lists -/

/-- A token that is a piece of a text, of at least one character. -/
structure Token.PieceOf (text : List Char) (t : Token) : Prop where
  piece : ∃ before piece after, text = before ++ piece ++ after ∧ piece ≠ [] ∧
    t.text = some (String.ofList piece) ∧ t.start = before.length ∧
    t.stop + 1 = before.length + piece.length

/-- A token whose line and column are those of the text before it. -/
structure Token.PlacedIn (text : List Char) (t : Token) : Prop where
  line : t.line = 1 + Text.newlines (text.take t.start.toNat)
  column : t.column = (Text.afterLastNewline (text.take t.start.toNat)).length

/-- Tokens that cut a text into pieces without a gap, with one that ends the input behind them. -/
structure Lossless (text : String) (body : List Token) (last : Token) : Prop where
  ordinary : ∀ t ∈ body, t.isEof = false
  isEnd : last.isEof = true
  atEnd : last.start = text.length ∧ last.stop = (text.length : Int) - 1
  first : ∀ t ∈ (body ++ [last]).head?, t.start = 0
  gapless : List.IsChain (fun a b : Token => b.start = a.stop + 1) (body ++ [last])
  pieces : ∀ t ∈ body, t.PieceOf text.toList
  whole : (body.flatMap fun t => (t.text.getD "").toList) = text.toList
  indexed : ∀ (i : Nat) (t : Token), (body ++ [last])[i]? = some t → t.index = i

/-- A token that stands for a finding: it has the text of the lexeme, the type under which the
lexer class lists the terminal of the lexeme, and the channel of that terminal. -/
structure Represents (l : Language) (f : Scanner.Finding) (t : Token) : Prop where
  text : t.text = some f.lexeme.text
  kind : 1 ≤ t.kind ∧ t.kind ≤ l.terminals.length
  named : (GrammarClasses.symbolItems l)[t.kind.toNat]? = some (.text f.lexeme.terminal)
  channel : t.channel =
    if f.lexeme.terminal ∈ l.ignored then Token.hiddenChannel else Token.defaultChannel

/-! ## Numbered tokens -/

theorem start_of_head?_numbered {tokens : List Token} {n : Int}
    (h : ∀ t ∈ tokens.head?, t.start = n) : ∀ t ∈ (numbered tokens).head?, t.start = n := by
  intro t ht
  unfold numbered at ht
  rw [List.head?_mapIdx] at ht
  obtain ⟨u, hu, rfl⟩ := Option.map_eq_some_iff.mp ht
  exact h u hu

theorem gapless_numbered {tokens : List Token}
    (h : List.IsChain (fun a b : Token => b.start = a.stop + 1) tokens) :
    List.IsChain (fun a b : Token => b.start = a.stop + 1) (numbered tokens) := by
  rw [List.isChain_iff_getElem]
  intro i hi
  rw [length_numbered] at hi
  rw [getElem_numbered _ _ _ hi, getElem_numbered _ i _ (by omega)]
  exact List.isChain_iff_getElem.mp h i hi

theorem index_numbered {tokens : List Token} {i : Nat} {t : Token}
    (h : (numbered tokens)[i]? = some t) : t.index = i := by
  obtain ⟨hi, rfl⟩ := List.getElem?_eq_some_iff.mp h
  rw [getElem_numbered _ _ _ (by simpa using hi)]
  rfl

/-! ## The tokens of a scan -/

section

open Scanner Bridge

variable {l : Language} {sc : Scanner} {p q r : Position} {f : Finding} {fs : List Finding}

theorem represents_tokenOf (h : ∃ t ∈ l.terminals, t.name = f.lexeme.terminal) (i : Int) :
    Represents l f ((tokenOf (symbols l) l.ignored f.lexeme).withIndex i) := by
  obtain ⟨t, ht, hname⟩ := h
  have hmem : some f.lexeme.terminal ∈ symbols l := by
    refine List.mem_cons_of_mem _ (List.mem_map.mpr ⟨t, ht, ?_⟩)
    rw [hname]
  obtain ⟨n, hn, hget⟩ := typeOf_spec hmem
  have hkind : ((tokenOf (symbols l) l.ignored f.lexeme).withIndex i).kind = n := hn
  cases n with
  | zero => cases hget
  | succ n =>
      unfold symbols at hget
      rw [List.getElem?_cons_succ, List.getElem?_map, Option.map_eq_some_iff] at hget
      obtain ⟨u, hu, hterminal⟩ := hget
      have hlt : n < l.terminals.length := (List.getElem?_eq_some_iff.mp hu).1
      refine ⟨rfl, ?_, ?_, ?_⟩
      · rw [hkind]
        omega
      · rw [hkind, Int.toNat_natCast]
        unfold GrammarClasses.symbolItems
        rw [List.getElem?_cons_succ, List.getElem?_map, hu, ← Option.some.inj hterminal]
        rfl
      · show (if l.ignored.contains f.lexeme.terminal then _ else _) = _
        simp only [List.contains_iff_mem]

theorem Represents.isEof_eq {t : Token} (h : Represents l f t) : t.isEof = false := by
  have hkind := h.kind.1
  unfold Token.isEof Token.eof
  exact decide_eq_false (by omega)

theorem pieceOf_tokenOf {text : String} (hp : p.On text.toList) (h : sc.Found p f q)
    (hne : f.lexeme.text ≠ "") (symbols : Symbols) (hidden : List String) (i : Int) :
    ((tokenOf symbols hidden f.lexeme).withIndex i).PieceOf text.toList := by
  rw [tokenOf_eq h]
  refine ⟨p.cursor.before.reverse, f.lexeme.text.toList, q.cursor.after, ?_, ?_, ?_, ?_, ?_⟩
  · rw [hp.whole, h.after, List.append_assoc]
  · intro hnil
    exact hne (String.toList_eq_nil_iff.mp hnil)
  · rw [String.ofList_toList]
    rfl
  · show (p.cursor.passed : Int) = _
    rw [hp.passed, List.length_reverse]
  · show (q.cursor.passed : Int) - 1 + 1 = _
    rw [h.passed, hp.passed, List.length_reverse]
    omega

theorem placedIn_tokenOf {text : List Char} (hp : p.On text) (hplaced : p.Placed)
    (h : sc.Found p f q) (symbols : Symbols) (hidden : List String) (i : Int) :
    ((tokenOf symbols hidden f.lexeme).withIndex i).PlacedIn text := by
  have htake : text.take p.cursor.passed = p.cursor.before.reverse := by
    rw [hp.whole, hp.passed, ← List.length_reverse, List.take_left]
  rw [tokenOf_eq h]
  constructor
  · show (p.line : Int) = 1 + (Text.newlines (text.take (p.cursor.passed : Int).toNat) : Int)
    rw [Int.toNat_natCast, htake, hplaced.line]
    omega
  · show (p.column : Int) - 1 =
      (Text.afterLastNewline (text.take (p.cursor.passed : Int).toNat)).length
    rw [Int.toNat_natCast, htake, hplaced.column]
    omega

/-- What holds of the token of each finding, whatever its number, holds along the numbered tokens.
-/
theorem forall₂_numbered {R : Finding → Token → Prop} {symbols : Symbols} {hidden : List String}
    (h : ∀ f ∈ fs, ∀ i : Int, R f ((tokenOf symbols hidden f.lexeme).withIndex i)) :
    List.Forall₂ R fs (numbered (fs.map fun f => tokenOf symbols hidden f.lexeme)) := by
  refine List.forall₂_iff_get.mpr ⟨by simp, fun i hi hi' => ?_⟩
  simp only [List.get_eq_getElem]
  rw [getElem_numbered _ i hi' (by simpa using hi)]
  simp only [List.getElem_map]
  exact h _ (List.getElem_mem hi) i

theorem exists_finding {symbols : Symbols} {hidden : List String} {t : Token}
    (h : t ∈ numbered (fs.map fun f => tokenOf symbols hidden f.lexeme)) :
    ∃ f ∈ fs, ∃ i : Nat, t = (tokenOf symbols hidden f.lexeme).withIndex i := by
  obtain ⟨s, hs, i, rfl⟩ := exists_of_mem_numbered h
  obtain ⟨f, hf, rfl⟩ := List.mem_map.mp hs
  exact ⟨f, hf, i, rfl⟩

/-- The tokens of a scan of a whole text are lossless, and each stands for its finding. -/
theorem lossless_scans {text : String} (hscans : sc.Scans { cursor := .ofText text.toList } fs r)
    (hnamed : sc.Named l.terminals) {body : List Token} {last : Token}
    (hbody : body = fs.map fun f => tokenOf (symbols l) l.ignored f.lexeme)
    (hlast : last = Token.eofAt text r.line ((r.column : Int) - 1)) :
    Lossless text (numbered body) (last.withIndex body.length) ∧
      List.Forall₂ (Represents l) fs (numbered body) := by
  obtain ⟨hr, hall⟩ := hscans.invariant (I := Position.On text.toList)
    (fun f _ p q hfound hp => hfound.on hp) (Position.on_start _)
  obtain ⟨hafter, hwhole⟩ := hscans.after_eq
  have hstart : last.start = r.cursor.passed := by
    rw [hlast, hr.passed]
    show (text.length : Int) = r.cursor.before.length
    rw [← String.length_toList, hr.whole, hafter, List.append_nil, List.length_reverse]
  obtain ⟨hfirst, hchain⟩ := chained_scans hscans (symbols l) l.ignored hstart
  rw [← hbody] at hfirst hchain
  have hrepresents : ∀ f ∈ fs, ∀ i, Represents l f
      ((tokenOf (symbols l) l.ignored f.lexeme).withIndex i) := by
    intro f hf i
    obtain ⟨p, q, -, hfound, -⟩ := hall f hf
    exact represents_tokenOf (hfound.named hnamed) i
  refine ⟨⟨?_, ?_, ?_, ?_, ?_, ?_, ?_, ?_⟩, hbody ▸ forall₂_numbered hrepresents⟩
  · intro t ht
    obtain ⟨f, hf, i, rfl⟩ := exists_finding (hbody ▸ ht)
    exact (hrepresents f hf i).isEof_eq
  · rw [hlast]
    rfl
  · rw [hlast]
    exact ⟨rfl, rfl⟩
  · rw [numbered_concat]
    exact start_of_head?_numbered hfirst
  · rw [numbered_concat]
    exact gapless_numbered hchain
  · intro t ht
    obtain ⟨f, hf, i, rfl⟩ := exists_finding (hbody ▸ ht)
    obtain ⟨p, q, hp, hfound, hne⟩ := hall f hf
    exact pieceOf_tokenOf hp hfound hne _ _ _
  · rw [List.flatMap_def, map_numbered (fun _ _ => rfl), hbody, List.map_map, ← List.flatMap_def]
    exact hwhole.symm
  · rw [numbered_concat]
    exact fun i t ht => index_numbered ht

/-- When newlines are counted wherever a lexeme has one, all lines and columns are right. -/
theorem placed_scans {text : String} (hscans : sc.Scans { cursor := .ofText text.toList } fs r)
    (hnamed : sc.Named l.terminals)
    (hcounted : ∀ f ∈ fs, '\n' ∈ f.lexeme.text.toList → countsNewlines l.terminals f.finder = true)
    {body : List Token} {last : Token}
    (hbody : body = fs.map fun f => tokenOf (symbols l) l.ignored f.lexeme)
    (hlast : last = Token.eofAt text r.line ((r.column : Int) - 1)) :
    ∀ t ∈ numbered body ++ [last.withIndex body.length], t.PlacedIn text.toList := by
  obtain ⟨⟨hr, hplaced⟩, hall⟩ := hscans.invariant
    (I := fun p => Position.On text.toList p ∧ Position.Placed p)
    (fun f hf _ _ hfound hp => ⟨hfound.on hp.1,
      hfound.placed (fun hmem => (hnamed.multiline _).trans (hcounted f hf hmem)) hp.2⟩)
    ⟨Position.on_start _, Position.placed_start _⟩
  have htext : text.toList = r.cursor.before.reverse := by
    rw [hr.whole, hscans.after_eq.1, List.append_nil]
  intro t ht
  rcases List.mem_append.mp ht with ht | ht
  · obtain ⟨f, hf, i, rfl⟩ := exists_finding (hbody ▸ ht)
    obtain ⟨p, q, ⟨hp, hplacedp⟩, hfound, -⟩ := hall f hf
    exact placedIn_tokenOf hp hplacedp hfound _ _ _
  · rw [List.mem_singleton.mp ht, hlast]
    have htake : text.toList.take (text.length : Int).toNat = r.cursor.before.reverse := by
      rw [Int.toNat_natCast, ← String.length_toList, List.take_length, htext]
    constructor
    · show (r.line : Int) = 1 + (Text.newlines (text.toList.take (text.length : Int).toNat) : Int)
      rw [htake, hplaced.line]
      omega
    · show (r.column : Int) - 1 =
        (Text.afterLastNewline (text.toList.take (text.length : Int).toNat)).length
      rw [htake, hplaced.column]
      omega

end

namespace GrammarClasses

open Scanner

/-- What the stream over a text holds, from a scan of the text. -/
theorem fill_scans {g : GrammarClasses} (hg : g.Made) {text : String} {fs : List Finding}
    (h : g.language.findings text = fs.map .ok) {sc : Scanner} {r : Position}
    (hscans : sc.Scans { cursor := .ofText text.toList } fs r)
    (hnamed : sc.Named g.language.terminals) :
    (Stream.ofEmission (g.lexer.emission text)).fill.1 =
      .ok (numbered (fs.map fun f =>
          Bridge.tokenOf (Bridge.symbols g.language) g.language.ignored f.lexeme) ++
        [(Token.eofAt text r.line ((r.column : Int) - 1)).withIndex (fs.map fun f =>
          Bridge.tokenOf (Bridge.symbols g.language) g.language.ignored f.lexeme).length]) := by
  rw [emission_eq hg, Bridge.emission_scans h hscans]
  refine Stream.fill_closed (fun t ht => ?_) rfl
  obtain ⟨i, hi⟩ := exists_mem_numbered ht
  have hordinary := (lossless_scans hscans hnamed rfl rfl).1.ordinary _ hi
  rwa [Emission.isEof_withIndex] at hordinary

/-- **The tokens of a text.** When the lexer class of a grammar finds a lexeme everywhere in a
text, the stream holds a lossless list with one token for each lexeme, and the class lists the
names of their types. Lines and columns are right when each lexeme that has a newline was found by
a terminal in which newlines are counted; for a keyword this is the terminal that it was renamed
from. -/
theorem fill_lossless {g : GrammarClasses} (hg : g.Made) {text : String} {fs : List Finding}
    (h : g.language.findings text = fs.map .ok) :
    g.lexer.symbolValues = .ok (symbolItems g.language) ∧
      ∃ body last, (Stream.ofEmission (g.lexer.emission text)).fill.1 = .ok (body ++ [last]) ∧
        Lossless text body last ∧ List.Forall₂ (Represents g.language) fs body ∧
        ((∀ f ∈ fs, '\n' ∈ f.lexeme.text.toList →
            countsNewlines g.language.terminals f.finder = true) →
          ∀ t ∈ body ++ [last], t.PlacedIn text.toList) := by
  obtain ⟨sc, r, hnamed, hscans⟩ := Language.scans_of_findings h
  obtain ⟨hlossless, hrepresents⟩ := lossless_scans hscans hnamed rfl rfl
  exact ⟨lexer_symbolValues hg, _, _, fill_scans hg h hscans hnamed, hlossless, hrepresents,
    fun hcounted => placed_scans hscans hnamed hcounted rfl rfl⟩

/-- A grammar with a newline for a keyword, which is renamed from a terminal with the given
pattern. -/
def newlineKeyword (pattern : String) : Language where
  terminals := [⟨"A", { isLiteral := true, value := "a" }, 0⟩,
    ⟨"NL", { isLiteral := true, value := "\n" }, 0⟩,
    ⟨"OTHER", { isLiteral := false, value := pattern }, 0⟩]
  ignored := []
  flags := {}
  useBytes := false
  automaton := default
  starts := ["start"]

/-- What is found in two lines, with the place where the second one is taken to begin. -/
def newlineFindings (line column : Int) : List Finding :=
  [⟨"A", "A", "a", some 0, some 1, some 1, some 1, some 1, some 2, false⟩,
    ⟨"OTHER", "NL", "\n", some 1, some 2, some 1, some 2, some line, some column, false⟩,
    ⟨"A", "A", "a", some 2, some 3, some line, some column, some line, some (column + 1), false⟩]

/-- A pattern with a sign for white space shows that it may match newlines. -/
theorem fill_lossless_newlineKeyword :
    ∃ g : GrammarClasses, g.Made ∧ g.language = newlineKeyword "\\s" ∧
      ∃ body last, (Stream.ofEmission (g.lexer.emission "a\na")).fill.1 = .ok (body ++ [last]) ∧
        Lossless "a\na" body last ∧
        List.Forall₂ (Represents (newlineKeyword "\\s")) (newlineFindings 2 1) body ∧
        ∀ t ∈ body ++ [last], t.PlacedIn "a\na".toList := by
  obtain ⟨g, hg, hlanguage, -⟩ := exists_made (newlineKeyword "\\s") ["start"]
  have hfindings : g.language.findings "a\na" = (newlineFindings 2 1).map .ok := by
    rw [hlanguage]
    decide +kernel
  obtain ⟨-, body, last, hfill, hlossless, hrepresents, hplaced⟩ := fill_lossless hg hfindings
  rw [hlanguage] at hrepresents hplaced
  exact ⟨g, hg, hlanguage, body, last, hfill, hlossless, hrepresents, hplaced (by decide)⟩

/-- The tokens of the same text when newlines are not counted in what the pattern matches. -/
def newlineTokens : List Token :=
  [⟨1, some "a", 0, 0, 1, 0, 0, 0⟩, ⟨2, some "\n", 1, 1, 1, 1, 0, 1⟩,
    ⟨1, some "a", 2, 2, 1, 2, 0, 2⟩, ⟨-1, some "<EOF>", 3, 2, 1, 3, 0, 3⟩]

/-- A range of characters does not show it. Newlines are counted for the keyword's own name, and
still the token behind it is misplaced. -/
theorem misplaced_newlineKeyword :
    ∃ g, build Layer.firstFree "g" newlineText "m" [] bareShelf = .ok g ∧
      g.language.findings "a\na" = (newlineFindings 1 3).map .ok ∧
      (∀ f ∈ newlineFindings 1 3, '\n' ∈ f.lexeme.text.toList →
        countsNewlines g.language.terminals f.lexeme.terminal = true) ∧
      (Stream.ofEmission (g.lexer.emission "a\na")).fill.1 = .ok newlineTokens ∧
      ∃ t ∈ newlineTokens, ¬ t.PlacedIn "a\na".toList := by
  obtain ⟨g, hbuild, hg, hlanguage, -⟩ := exists_build_single (.tail _ (.head _))
  refine ⟨g, hbuild, ?_, ?_, ?_, ⟨1, some "a", 2, 2, 1, 2, 0, 2⟩, by simp [newlineTokens], ?_⟩
  · rw [hlanguage]
    decide +kernel
  · rw [hlanguage]
    decide
  · rw [emission_eq hg, hlanguage]
    decide +kernel
  · intro h
    exact absurd h.line (by decide)

end GrammarClasses

end GrammarBench
