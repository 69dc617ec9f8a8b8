import Mathlib.Data.List.Induction
import GrammarBench.Module.Lexing
import GrammarBench.Proofs.Stream

/-!
# The end of the input

A lexer may cut a text into consecutive pieces and leave the token that ends the input to the stream, which knows
the last token only. The token that the stream makes is the one that stands behind the whole text, as long as
every token is cut out at its own place and carries the line and the column to which the reading has come.

* `Spot.past`: the place behind some characters, counted one by one.
* `Slice.tokens`: the tokens of consecutive pieces of a text.
* `eofAfter_tokens`: what holds of the token behind the tokens so far holds along all pieces.
* `Stream.fill_slices`: the stream over the pieces of a text.
* `Scan.exists_slices`: the tokens of the plain scanner are those of consecutive pieces.
-/

namespace GrammarBench

/-! ## Places in a text -/

/-- A place between the characters of a text. -/
structure Spot where
  offset : Nat := 0
  line : Nat := 1
  column : Nat := 0
  deriving DecidableEq, Repr

/-- The token that ends a text, behind all its lines and all characters of the last one. -/
def Token.eofBehind (text : String) : Token :=
  Token.eofAt text (1 + Text.newlines text.toList) (Text.afterLastNewline text.toList).length

namespace Spot

/-- The place behind one more character; a newline ends its line. -/
def next (p : Spot) (c : Char) : Spot :=
  if c = '\n' then ⟨p.offset + 1, p.line + 1, 0⟩ else ⟨p.offset + 1, p.line, p.column + 1⟩

/-- The place behind some more characters. -/
def past (p : Spot) (s : List Char) : Spot := s.foldl next p

@[simp] theorem past_nil (p : Spot) : p.past [] = p := rfl

@[simp] theorem past_cons (p : Spot) (c : Char) (s : List Char) : p.past (c :: s) = (p.next c).past s := rfl

theorem past_append (p : Spot) (s t : List Char) : p.past (s ++ t) = (p.past s).past t := List.foldl_append

theorem offset_past (p : Spot) (s : List Char) : (p.past s).offset = p.offset + s.length := by
  induction s generalizing p with
  | nil => rfl
  | cons c s ih =>
      have hnext : (p.next c).offset = p.offset + 1 := by
        unfold next
        split <;> rfl
      rw [past_cons, ih, hnext, List.length_cons]
      omega

theorem line_past (p : Spot) (s : List Char) : (p.past s).line = p.line + Text.newlines s := by
  induction s generalizing p with
  | nil => rfl
  | cons c s ih =>
      rw [past_cons, ih]
      unfold next Text.newlines
      by_cases hc : c = '\n'
      · rw [if_pos hc, hc, List.count_cons_self]
        dsimp only
        omega
      · rw [if_neg hc, List.count_cons_of_ne hc]

/-- The column goes on from the one before, or from the last newline. -/
theorem column_past (p : Spot) (s : List Char) : (p.past s).column =
    if Text.newlines s = 0 then p.column + s.length else (Text.afterLastNewline s).length := by
  induction s using List.reverseRecOn with
  | nil => rfl
  | append_singleton s c ih =>
      rw [past_append, past_cons, past_nil]
      unfold next
      by_cases hc : c = '\n'
      · have hnewline : Text.newlines [c] ≠ 0 := by simp [Text.newlines, hc]
        have hsum := Text.newlines_append s [c]
        rw [if_pos hc, if_neg (by omega), Text.afterLastNewline_append_of_newline hnewline, hc]
        rfl
      · have hnone : Text.newlines [c] = 0 := by
          rw [Text.newlines_eq_zero, List.mem_singleton]
          exact Ne.symm hc
        have hsame : Text.newlines (s ++ [c]) = Text.newlines s := by rw [Text.newlines_append, hnone, Nat.add_zero]
        rw [if_neg hc, hsame, Text.afterLastNewline_append hnone, List.length_append, List.length_append,
          List.length_singleton]
        dsimp only
        rw [ih]
        split <;> omega

theorem cast_column_past (p : Spot) (s : List Char) : ((p.past s).column : Int) =
    if Text.newlines s = 0 then (p.column : Int) + s.length else (Text.afterLastNewline s).length := by
  rw [column_past]
  split <;> push_cast <;> rfl

/-- The token that ends the input at a place. -/
def eof (p : Spot) : Token :=
  { kind := Token.eof, text := some Token.eofText, start := p.offset, stop := (p.offset : Int) - 1
    line := p.line, column := p.column }

/-- Behind a whole text stands the token that ends it. -/
theorem eof_past (text : String) : (past {} text.toList).eof = Token.eofBehind text := by
  have hcolumn : (past {} text.toList).column = (Text.afterLastNewline text.toList).length := by
    rw [column_past]
    split
    · rename_i hnone
      rw [show text.toList = [] ++ text.toList from rfl, Text.afterLastNewline_append hnone]
      simp [Text.afterLastNewline]
    · rfl
  unfold eof Token.eofBehind Token.eofAt
  rw [offset_past, line_past, hcolumn, String.length_toList]
  simp

end Spot

/-! ## Pieces of a text -/

/-- Cut out of a text from its first character to its last one, a piece is what it was. -/
theorem Token.piece_between (before piece behind : List Char) :
    Token.piece (before ++ piece ++ behind) before.length ((before.length : Int) + piece.length - 1 + 1) = piece := by
  have hfirst : Token.clampEnd (before ++ piece ++ behind).length before.length = before.length := by
    unfold Token.clampEnd
    rw [if_neg (by omega), Int.toNat_natCast]
    simp
  have hlast : Token.clampEnd (before ++ piece ++ behind).length ((before.length : Int) + piece.length - 1 + 1) =
      (before ++ piece).length := by
    unfold Token.clampEnd
    rw [if_neg (by omega), show ((before.length : Int) + piece.length - 1 + 1).toNat =
      before.length + piece.length by omega]
    simp
  unfold Token.piece
  dsimp only
  rw [hfirst, hlast, List.take_left, List.drop_left]

/-- A piece of a text as a lexer takes it. -/
structure Slice where
  text : List Char
  kind : Int
  channel : Int := Token.defaultChannel
  deriving Repr

namespace Slice

/-- The characters of some pieces. -/
def chars (slices : List Slice) : List Char := slices.flatMap (·.text)

@[simp] theorem chars_cons (s : Slice) (slices : List Slice) : chars (s :: slices) = s.text ++ chars slices :=
  List.flatMap_cons

/-- The token of a piece that starts at a place of a text. -/
def token (text : String) (p : Spot) (s : Slice) : Token :=
  Token.cut text s.kind p.offset ((p.offset : Int) + s.text.length - 1) p.line p.column s.channel

/-- The tokens of consecutive pieces of a text, from a place on. -/
def tokens (text : String) : Spot → List Slice → List Token
  | _, [] => []
  | p, s :: slices => s.token text p :: tokens text (p.past s.text) slices

theorem length_tokens (text : String) (p : Spot) (slices : List Slice) :
    (tokens text p slices).length = slices.length := by
  induction slices generalizing p with
  | nil => rfl
  | cons s slices ih => rw [tokens, List.length_cons, List.length_cons, ih]

theorem isEof_tokens {slices : List Slice} (h : ∀ s ∈ slices, s.kind ≠ Token.eof) (text : String) (p : Spot) :
    ∀ t ∈ tokens text p slices, t.isEof = false := by
  induction slices generalizing p with
  | nil => simp [tokens]
  | cons s slices ih =>
      intro t ht
      rcases List.mem_cons.mp ht with rfl | ht
      · exact decide_eq_false (h s List.mem_cons_self)
      · exact ih (fun s hs => h s (List.mem_cons_of_mem _ hs)) _ t ht

variable {text : String} {before behind : List Char}

/-- The token of a piece that stands behind some characters. -/
theorem token_eq {s : Slice} (hwhole : text.toList = before ++ s.text ++ behind) :
    s.token text (Spot.past {} before) =
      { kind := s.kind, text := some (String.ofList s.text), start := before.length
        stop := ((before.length + s.text.length : Nat) : Int) - 1, line := (Spot.past {} before).line
        column := (Spot.past {} before).column, channel := s.channel } := by
  have hoffset : (Spot.past {} before).offset = before.length := by
    rw [Spot.offset_past]
    exact Nat.zero_add _
  unfold token Token.cut
  rw [hoffset, hwhole, Token.piece_between]
  push_cast
  rfl

/-- Behind the token of a piece, the input ends at the place behind the piece. -/
theorem eofAfter_token {s : Slice} (hwhole : text.toList = before ++ s.text ++ behind) :
    eofAfter (some (s.token text (Spot.past {} before))) = ((Spot.past {} before).past s.text).eof := by
  rw [token_eq hwhole]
  unfold eofAfter Spot.eof
  dsimp only
  rw [Option.getD_some, String.toList_ofList, Spot.offset_past, Spot.offset_past {} before,
    Spot.line_past (Spot.past {} before), Spot.cast_column_past (Spot.past {} before), Nat.zero_add, Token.mk.injEq]
  refine ⟨rfl, rfl, ?_, rfl, ?_, rfl, rfl, rfl⟩
  · omega
  · push_cast
    rfl

/-- Along the pieces of a text, the input would always end at the place to which the reading has come. -/
theorem eofAfter_tokens {slices : List Slice} {last : Option Token}
    (hwhole : text.toList = before ++ chars slices) (hlast : eofAfter last = (Spot.past {} before).eof) :
    eofAfter ((tokens text (Spot.past {} before) slices).getLast?.or last) = (Spot.past {} text.toList).eof := by
  induction slices generalizing before last with
  | nil =>
      rw [hwhole]
      simpa [tokens, chars] using hlast
  | cons s slices ih =>
      rw [chars_cons, ← List.append_assoc] at hwhole
      have hstep := eofAfter_token hwhole
      rw [← Spot.past_append] at hstep
      have hrest := ih hwhole hstep
      rw [Spot.past_append] at hrest
      rw [tokens, List.getLast?_cons]
      cases hlater : (tokens text ((Spot.past {} before).past s.text) slices).getLast? <;>
        rw [hlater] at hrest <;> exact hrest

end Slice

/-! ## Streams over pieces -/

theorem Emission.toEnd_unclosed {body : List Token} (hbody : ∀ t ∈ body, t.isEof = false) :
    Emission.toEnd (body.map .ok) = body.map .ok := by
  induction body with
  | nil => rfl
  | cons t rest ih =>
      rw [List.map_cons, Emission.toEnd_token (hbody t List.mem_cons_self),
        ih fun s hs => hbody s (List.mem_cons_of_mem t hs)]

namespace Stream

/-- A stream whose lexer gives no token that ends the input makes one out of the last token. -/
theorem fill_unclosed {body : List Token} (hbody : ∀ t ∈ body, t.isEof = false) (oneShot : Bool := false) :
    (ofEmission (body.map .ok) oneShot).fill.1 =
      .ok (numbered body ++ [(eofAfter body.getLast?).withIndex body.length]) := by
  have hend := Emission.toEnd_unclosed hbody
  have hfailure : Emission.failure? (body.map .ok) = none := by
    unfold Emission.failure?
    rw [hend, List.getLast?_map]
    cases body.getLast? <;> rfl
  have htokens : Emission.tokens (body.map .ok) = body := by
    unfold Emission.tokens
    rw [hend, List.filterMap_map]
    exact List.filterMap_some
  have hpending : (ofEmission (body.map .ok) oneShot).supply.pending = body.map .ok := by
    cases oneShot <;> rfl
  have hnone : body.any Token.isEof = false := List.any_eq_false.mpr fun t ht => by simp [hbody t ht]
  rw [fill_eq _ rfl, hpending, hfailure]
  dsimp only
  unfold Emission.filled
  rw [htokens, hnone, numbered_concat]
  rfl

/-- **The end of the input.** A lexer cuts a text into consecutive pieces and gives their tokens, none of which
ends the input. The stream puts one behind them that stands behind the whole text, the same that the lexer could
have given itself. -/
theorem fill_slices (text : String) (slices : List Slice) (oneShot : Bool)
    (hwhole : text.toList = Slice.chars slices) (hkinds : ∀ s ∈ slices, s.kind ≠ Token.eof) :
    (ofEmission ((Slice.tokens text {} slices).map .ok) oneShot).fill.1 =
        .ok (numbered (Slice.tokens text {} slices) ++ [(Token.eofBehind text).withIndex slices.length]) ∧
      (ofEmission ((Slice.tokens text {} slices).map .ok ++ [.ok (Token.eofBehind text)]) oneShot).fill.1 =
        .ok (numbered (Slice.tokens text {} slices) ++ [(Token.eofBehind text).withIndex slices.length]) := by
  have hbody := Slice.isEof_tokens hkinds text {}
  have hlast : eofAfter (Slice.tokens text {} slices).getLast? = Token.eofBehind text := by
    have hend := @Slice.eofAfter_tokens text [] slices none hwhole rfl
    rwa [Option.or_none, Spot.eof_past] at hend
  rw [fill_unclosed hbody oneShot, fill_closed hbody rfl oneShot, hlast, Slice.length_tokens]
  exact ⟨rfl, rfl⟩

/-- Pieces of a text that end with a newline, are empty, and are nothing but a newline. -/
def lineSlices : List Slice :=
  [⟨"a\n".toList, 1, 0⟩, ⟨[], 2, 0⟩, ⟨"\n".toList, 3, Token.hiddenChannel⟩, ⟨"bc".toList, 1, 0⟩]

theorem fill_slices_lines :
    "a\n\nbc".toList = Slice.chars lineSlices ∧ (∀ s ∈ lineSlices, s.kind ≠ Token.eof) ∧
      (ofEmission ((Slice.tokens "a\n\nbc" {} lineSlices).map .ok) true).fill.1 =
        .ok [⟨1, some "a\n", 0, 1, 1, 0, 0, 0⟩, ⟨2, some "", 2, 1, 2, 0, 0, 1⟩, ⟨3, some "\n", 2, 2, 2, 0, 1, 2⟩,
          ⟨1, some "bc", 3, 4, 3, 0, 0, 3⟩, ⟨-1, some "<EOF>", 5, 4, 3, 2, 0, 4⟩] := by
  have hwhole : "a\n\nbc".toList = Slice.chars lineSlices := by decide
  have hkinds : ∀ s ∈ lineSlices, s.kind ≠ Token.eof := by decide
  obtain ⟨hfilled, -⟩ := fill_slices "a\n\nbc" lineSlices true hwhole hkinds
  refine ⟨hwhole, hkinds, hfilled.trans (congrArg _ ?_)⟩
  decide +kernel

end Stream

/-! ## The plain scanner -/

namespace Scan

/-- What is found at the front of a text is a piece of at least one character. -/
theorem front_of_piece? {first rest : Char → Bool} {s piece : List Char} (h : piece? first rest s = some piece) :
    piece ≠ [] ∧ piece <+: s := by
  cases s with
  | nil => cases h
  | cons c r =>
      obtain ⟨-, hpiece⟩ := Option.ite_none_right_eq_some.mp h
      cases hpiece
      exact ⟨List.cons_ne_nil _ _, List.cons_prefix_cons.mpr ⟨rfl, List.takeWhile_prefix _⟩⟩

theorem front_of_front? {types : ScanTypes} {s piece : List Char} {kind channel : Int}
    (h : front? types s = some (kind, channel, piece)) : piece ≠ [] ∧ piece <+: s := by
  have htry {type : Option Int} {n : Int} {first rest : Char → Bool}
      (h : (type.bind fun t => (piece? first rest s).map fun p => (t, n, p)) = some (kind, channel, piece)) :
      piece ≠ [] ∧ piece <+: s := by
    obtain ⟨t, -, h⟩ := Option.bind_eq_some_iff.mp h
    obtain ⟨q, hq, heq⟩ := Option.map_eq_some_iff.mp h
    cases heq
    exact front_of_piece? hq
  unfold front? at h
  rcases Option.or_eq_some_iff.mp h with hword | ⟨-, h⟩
  · exact htry hword
  · rcases Option.or_eq_some_iff.mp h with hnumber | ⟨-, hblank⟩
    · exact htry hnumber
    · exact htry hblank

/-- From a place on, the tokens of a text that the scanner gets through are those of consecutive pieces. -/
theorem tokens_eq_slices {types : ScanTypes} {text : String} {before rest : List Char} {rounds : Nat}
    (hwhole : text.toList = before ++ rest) (hrounds : rest.length ≤ rounds) {ts : List Token}
    (h : tokens types rounds before.length (Spot.past {} before).line (Spot.past {} before).column rest =
      ts.map .ok) :
    ∃ slices, rest = Slice.chars slices ∧ ts = Slice.tokens text (Spot.past {} before) slices := by
  induction rounds generalizing before rest ts with
  | zero =>
      obtain rfl := List.eq_nil_of_length_eq_zero (Nat.le_zero.mp hrounds)
      obtain rfl := List.map_eq_nil_iff.mp h.symm
      exact ⟨[], rfl, rfl⟩
  | succ rounds ih =>
      cases rest with
      | nil =>
          obtain rfl := List.map_eq_nil_iff.mp h.symm
          exact ⟨[], rfl, rfl⟩
      | cons c r =>
          unfold tokens at h
          cases hfront : front? types (c :: r) with
          | none =>
              rw [hfront] at h
              cases ts <;> cases h
          | some found =>
              obtain ⟨kind, channel, piece⟩ := found
              obtain ⟨hne, behind, hbehind⟩ := front_of_front? hfront
              rw [hfront] at h
              dsimp only at h
              rw [← hbehind, List.drop_left] at h
              cases ts with
              | nil => cases h
              | cons t ts =>
                  obtain ⟨hhead, htail⟩ := List.cons.inj h
                  rw [← hbehind, ← List.append_assoc] at hwhole
                  have hlength := congrArg List.length hbehind
                  have hpositive := List.length_pos_iff.mpr hne
                  rw [List.length_append] at hlength
                  have hplace := Spot.past_append {} before piece
                  obtain ⟨slices, hchars, htokens⟩ := @ih (before ++ piece) behind hwhole (by omega) ts (by
                    rw [hplace, Spot.line_past, Spot.cast_column_past, List.length_append, ← htail]
                    push_cast
                    rfl)
                  refine ⟨⟨piece, kind, channel⟩ :: slices, ?_, ?_⟩
                  · rw [Slice.chars_cons, ← hbehind, hchars]
                  · rw [Slice.tokens, htokens, hplace, ← Except.ok.inj hhead,
                      @Slice.token_eq text before behind ⟨piece, kind, channel⟩ hwhole]

/-- The tokens of a text that the scanner gets through are those of consecutive pieces. -/
theorem exists_slices {types : ScanTypes} {text : String} {ts : List Token}
    (h : emission types text = ts.map .ok) :
    ∃ slices, text.toList = Slice.chars slices ∧ ts = Slice.tokens text {} slices :=
  @tokens_eq_slices types text [] text.toList text.length rfl (Nat.le_of_eq String.length_toList) ts h

end Scan

end GrammarBench
