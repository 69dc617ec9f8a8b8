import Mathlib.Data.List.Infix
import GrammarBench.Files

/-!
# Texts in bytes

The bytes that are read as a text are those of its characters one after the other.

* `Spells`: the bytes of one character, in its shortest form, with its code.
* `front_encoded`, `encoded_of_front`: the character at the front of some bytes is the one that they begin with.
* `decode_eq_ok`: bytes are read as the text whose bytes they are.
* `exists_longestText`: a fault stands right behind the longest text that the bytes begin with.
-/

namespace GrammarBench.Text.Utf8

/-- The bytes of a text. -/
def encode (text : List Char) : List UInt8 := text.flatMap String.utf8EncodeChar

/-! ## Bytes -/

theorem isContinuation_iff {b : UInt8} : isContinuation b = true ↔ 0x80 ≤ b.toNat ∧ b.toNat < 0xC0 := by
  unfold isContinuation
  rw [Bool.and_eq_true, decide_eq_true_iff, decide_eq_true_iff, UInt8.le_iff_toNat_le, UInt8.lt_iff_toNat_lt]
  rfl

theorem eq_iff_toNat_eq {b b' : UInt8} : b = b' ↔ b.toNat = b'.toNat := UInt8.toNat_inj.symm

theorem secondFits_iff {b₀ b₁ : UInt8} : secondFits b₀ b₁ = true ↔
    (0x80 ≤ b₁.toNat ∧ b₁.toNat < 0xC0) ∧ (b₀.toNat = 0xE0 → 0xA0 ≤ b₁.toNat) ∧
      (b₀.toNat = 0xED → b₁.toNat < 0xA0) ∧ (b₀.toNat = 0xF0 → 0x90 ≤ b₁.toNat) ∧
      (b₀.toNat = 0xF4 → b₁.toNat < 0x90) := by
  unfold secondFits
  simp only [Bool.and_eq_true, Bool.not_eq_true', Bool.and_eq_false_iff, decide_eq_false_iff_not,
    isContinuation_iff, UInt8.lt_iff_toNat_lt, UInt8.le_iff_toNat_le, eq_iff_toNat_eq, UInt8.reduceToNat]
  omega

theorem sizeOfStart_eq (b : UInt8) : sizeOfStart b =
    if b.toNat < 0x80 then some 1 else if b.toNat < 0xC2 then none else if b.toNat < 0xE0 then some 2
    else if b.toNat < 0xF0 then some 3 else if b.toNat < 0xF5 then some 4 else none := by
  unfold sizeOfStart
  simp only [UInt8.lt_iff_toNat_lt, UInt8.reduceToNat]

/-! ## Characters -/

/-- The bytes of one character with its code: no form but the shortest, no surrogate and nothing behind the last
code point. -/
inductive Spells : List UInt8 → Nat → Prop
  | one {b : UInt8} : b.toNat < 0x80 → Spells [b] b.toNat
  | two {b₀ b₁ : UInt8} : 0xC2 ≤ b₀.toNat → b₀.toNat < 0xE0 → isContinuation b₁ = true →
      Spells [b₀, b₁] (b₀.toNat % 32 * 64 + payload b₁)
  | three {b₀ b₁ b₂ : UInt8} : 0xE0 ≤ b₀.toNat → b₀.toNat < 0xF0 → secondFits b₀ b₁ = true →
      isContinuation b₂ = true → Spells [b₀, b₁, b₂] (b₀.toNat % 16 * 4096 + payload b₁ * 64 + payload b₂)
  | four {b₀ b₁ b₂ b₃ : UInt8} : 0xF0 ≤ b₀.toNat → b₀.toNat < 0xF5 → secondFits b₀ b₁ = true →
      isContinuation b₂ = true → isContinuation b₃ = true →
      Spells [b₀, b₁, b₂, b₃] (b₀.toNat % 8 * 262144 + payload b₁ * 4096 + payload b₂ * 64 + payload b₃)

theorem front_of_spells {p : List UInt8} {n : Nat} (h : Spells p n) (r : List UInt8) :
    front (p ++ r) = .char (Char.ofNat n) p.length := by
  cases h with
  | @one b hb =>
      have hsize : sizeOfStart b = some 1 := by rw [sizeOfStart_eq, if_pos hb]
      simp only [List.cons_append, front, hsize]
      rfl
  | @two b₀ b₁ hlow hhigh h₁ =>
      have hsize : sizeOfStart b₀ = some 2 := by
        rw [sizeOfStart_eq, if_neg (by omega), if_neg (by omega), if_pos hhigh]
      simp only [List.cons_append, front, hsize, h₁]
      rfl
  | @three b₀ b₁ b₂ hlow hhigh h₁ h₂ =>
      have hsize : sizeOfStart b₀ = some 3 := by
        rw [sizeOfStart_eq, if_neg (by omega), if_neg (by omega), if_neg (by omega), if_pos hhigh]
      simp only [List.cons_append, front, hsize, h₁, h₂]
      rfl
  | @four b₀ b₁ b₂ b₃ hlow hhigh h₁ h₂ h₃ =>
      have hsize : sizeOfStart b₀ = some 4 := by
        rw [sizeOfStart_eq, if_neg (by omega), if_neg (by omega), if_neg (by omega), if_neg (by omega), if_pos hhigh]
      simp only [List.cons_append, front, hsize, h₁, h₂, h₃]
      rfl

theorem spells_of_front {bytes : List UInt8} {c : Char} {size : Nat} (h : front bytes = .char c size) :
    ∃ n p r, bytes = p ++ r ∧ p.length = size ∧ Spells p n ∧ c = Char.ofNat n := by
  unfold front at h
  split at h
  · cases h
  rename_i b₀ rest
  have hstart (k : Nat) (hsize : sizeOfStart b₀ = some k) := (sizeOfStart_eq b₀).symm.trans hsize
  split at h
  · cases h
  · rename_i hsize
    cases h
    have hstart := hstart 1 hsize
    exact ⟨_, [b₀], _, rfl, rfl, .one (by grind), rfl⟩
  · cases h
  · rename_i b₁ r hsize
    have hstart := hstart 2 hsize
    split at h
    · rename_i h₁
      cases h
      exact ⟨_, [b₀, b₁], r, rfl, rfl, .two (by grind) (by grind) h₁, rfl⟩
    · cases h
  · cases h
  · split at h <;> cases h
  · rename_i b₁ b₂ r hsize
    have hstart := hstart 3 hsize
    split at h
    · cases h
    rename_i h₁
    split at h
    · cases h
    rename_i h₂
    cases h
    exact ⟨_, [b₀, b₁, b₂], r, rfl, rfl, .three (by grind) (by grind) (by simpa using h₁) (by simpa using h₂), rfl⟩
  · cases h
  · split at h <;> cases h
  · split at h
    · cases h
    · split at h <;> cases h
  · rename_i k b₁ b₂ b₃ r hne₁ hne₂ hne₃ hsize
    have hstart := hstart _ hsize
    split at h
    · cases h
    rename_i h₁
    split at h
    · cases h
    rename_i h₂
    split at h
    · cases h
    rename_i h₃
    cases h
    exact ⟨_, [b₀, b₁, b₂, b₃], r, rfl, rfl,
      .four (by grind) (by grind) (by simpa using h₁) (by simpa using h₂) (by simpa using h₃), rfl⟩

theorem toNat_ofNat {n : Nat} (h : n.isValidChar) : (Char.ofNat n).toNat = n := by
  unfold Char.ofNat
  rw [dif_pos h]
  rfl

/-- What is spelt is a character with these bytes. -/
theorem encoded_of_spells {p : List UInt8} {n : Nat} (h : Spells p n) : String.utf8EncodeChar (Char.ofNat n) = p := by
  have hencoded (hn : n.isValidChar) : String.utf8EncodeChar (Char.ofNat n) =
      if n ≤ 0x7f then [UInt8.ofNat n]
      else if n ≤ 0x7ff then [UInt8.ofNat (n / 64 % 32 + 0xC0), UInt8.ofNat (n % 64 + 0x80)]
      else if n ≤ 0xffff then
        [UInt8.ofNat (n / 4096 % 16 + 0xE0), UInt8.ofNat (n / 64 % 64 + 0x80), UInt8.ofNat (n % 64 + 0x80)]
      else [UInt8.ofNat (n / 262144 % 8 + 0xF0), UInt8.ofNat (n / 4096 % 64 + 0x80),
        UInt8.ofNat (n / 64 % 64 + 0x80), UInt8.ofNat (n % 64 + 0x80)] := by
    unfold String.utf8EncodeChar
    rw [show (Char.ofNat n).val.toNat = n from toNat_ofNat hn]
  have hbyte {b : UInt8} {m : Nat} (hm : m = b.toNat) : UInt8.ofNat m = b := by rw [hm, UInt8.ofNat_toNat]
  cases h with
  | @one b hb =>
      rw [hencoded (Or.inl (by omega)), if_pos (by omega), hbyte rfl]
  | @two b₀ b₁ hlow hhigh h₁ =>
      rw [isContinuation_iff] at h₁
      unfold payload at *
      rw [hencoded (Or.inl (by omega)), if_neg (by omega), if_pos (by omega), hbyte (b := b₀) (by omega),
        hbyte (b := b₁) (by omega)]
  | @three b₀ b₁ b₂ hlow hhigh h₁ h₂ =>
      rw [secondFits_iff] at h₁
      rw [isContinuation_iff] at h₂
      unfold payload at *
      rw [hencoded (by unfold Nat.isValidChar; omega), if_neg (by omega), if_neg (by omega), if_pos (by omega),
        hbyte (b := b₀) (by omega), hbyte (b := b₁) (by omega), hbyte (b := b₂) (by omega)]
  | @four b₀ b₁ b₂ b₃ hlow hhigh h₁ h₂ h₃ =>
      rw [secondFits_iff] at h₁
      rw [isContinuation_iff] at h₂ h₃
      unfold payload at *
      rw [hencoded (by unfold Nat.isValidChar; omega), if_neg (by omega), if_neg (by omega), if_neg (by omega),
        hbyte (b := b₀) (by omega), hbyte (b := b₁) (by omega), hbyte (b := b₂) (by omega),
        hbyte (b := b₃) (by omega)]

/-- The bytes of a character spell it. -/
theorem spells_encoded (c : Char) : Spells (String.utf8EncodeChar c) c.toNat := by
  have hvalid : c.toNat.isValidChar := c.valid
  unfold Nat.isValidChar at hvalid
  have hbyte {m : Nat} (hm : m < 256) : (UInt8.ofNat m).toNat = m := UInt8.toNat_ofNat_of_lt' hm
  have hcontinuation {m : Nat} : isContinuation (UInt8.ofNat (m % 64 + 0x80)) = true ∧
      payload (UInt8.ofNat (m % 64 + 0x80)) = m % 64 := by
    unfold payload
    rw [isContinuation_iff, hbyte (by omega)]
    omega
  unfold String.utf8EncodeChar
  rw [show c.val.toNat = c.toNat from rfl]
  generalize c.toNat = n at hvalid ⊢
  dsimp only
  split
  · have h : Spells [UInt8.ofNat n] _ := .one (by rw [hbyte] <;> omega)
    rwa [hbyte (by omega)] at h
  split
  · have h : Spells [UInt8.ofNat (n / 64 % 32 + 0xC0), UInt8.ofNat (n % 64 + 0x80)] _ :=
      .two (by rw [hbyte] <;> omega) (by rw [hbyte] <;> omega) hcontinuation.1
    rw [hcontinuation.2, hbyte (by omega)] at h
    rwa [show (n / 64 % 32 + 0xC0) % 32 * 64 + n % 64 = n by omega] at h
  split
  · have h : Spells [UInt8.ofNat (n / 4096 % 16 + 0xE0), UInt8.ofNat (n / 64 % 64 + 0x80),
        UInt8.ofNat (n % 64 + 0x80)] _ :=
      .three (by rw [hbyte] <;> omega) (by rw [hbyte] <;> omega)
        (by rw [secondFits_iff, hbyte (by omega), hbyte (by omega)]; omega) hcontinuation.1
    rw [hcontinuation.2, hcontinuation.2, hbyte (by omega)] at h
    rwa [show (n / 4096 % 16 + 0xE0) % 16 * 4096 + n / 64 % 64 * 64 + n % 64 = n by omega] at h
  · have h : Spells [UInt8.ofNat (n / 262144 % 8 + 0xF0), UInt8.ofNat (n / 4096 % 64 + 0x80),
        UInt8.ofNat (n / 64 % 64 + 0x80), UInt8.ofNat (n % 64 + 0x80)] _ :=
      .four (by rw [hbyte] <;> omega) (by rw [hbyte] <;> omega)
        (by rw [secondFits_iff, hbyte (by omega), hbyte (by omega)]; omega) hcontinuation.1 hcontinuation.1
    rw [hcontinuation.2, hcontinuation.2, hcontinuation.2, hbyte (by omega)] at h
    rwa [show (n / 262144 % 8 + 0xF0) % 8 * 262144 + n / 4096 % 64 * 4096 + n / 64 % 64 * 64 + n % 64 = n by omega]
      at h

/-! ## Texts -/

theorem front_encoded (c : Char) (r : List UInt8) :
    front (String.utf8EncodeChar c ++ r) = .char c (String.utf8EncodeChar c).length := by
  rw [front_of_spells (spells_encoded c), Char.ofNat_toNat]

theorem encoded_of_front {bytes : List UInt8} {c : Char} {size : Nat} (h : front bytes = .char c size) :
    bytes = String.utf8EncodeChar c ++ bytes.drop size := by
  obtain ⟨n, p, r, rfl, rfl, hspells, rfl⟩ := spells_of_front h
  rw [List.drop_left, encoded_of_spells hspells]

theorem length_encoded_pos (c : Char) : 0 < (String.utf8EncodeChar c).length := by
  rw [String.length_utf8EncodeChar]
  exact c.utf8Size_pos

theorem front_eq_done {bytes : List UInt8} (h : front bytes = .done) : bytes = [] := by
  cases bytes with
  | nil => rfl
  | cons b rest =>
      unfold front at h
      dsimp only at h
      split at h
      all_goals repeat' split at h
      all_goals cases h

theorem encode_cons (c : Char) (text : List Char) : encode (c :: text) = String.utf8EncodeChar c ++ encode text :=
  List.flatMap_cons

theorem decodeFrom_encode (text : List Char) {rounds : Nat} (hrounds : (encode text).length < rounds) (o : Nat) :
    decodeFrom rounds o (encode text) = .ok text := by
  induction text generalizing rounds o with
  | nil =>
      cases rounds with
      | zero => rfl
      | succ rounds => rfl
  | cons c text ih =>
      rw [encode_cons] at hrounds ⊢
      have hpos := length_encoded_pos c
      rw [List.length_append] at hrounds
      cases rounds with
      | zero => omega
      | succ rounds =>
          rw [decodeFrom, front_encoded]
          dsimp only
          rw [List.drop_left, ih (by omega)]
          rfl

theorem encode_of_decodeFrom {rounds o : Nat} {bytes : List UInt8} {text : List Char}
    (hrounds : bytes.length < rounds) (h : decodeFrom rounds o bytes = .ok text) : bytes = encode text := by
  induction rounds generalizing o bytes text with
  | zero => omega
  | succ rounds ih =>
      rw [decodeFrom] at h
      split at h
      · rename_i hdone
        cases h
        exact front_eq_done hdone
      · rename_i c size hfront
        have hbytes := encoded_of_front hfront
        have hlength : bytes.length = (String.utf8EncodeChar c).length + (bytes.drop size).length := by
          rw [← List.length_append, ← hbytes]
        cases hrest : decodeFrom rounds (o + size) (bytes.drop size) with
        | error f =>
            rw [hrest] at h
            cases h
        | ok text' =>
            rw [hrest] at h
            cases h
            have hshorter : (bytes.drop size).length < rounds := by
              have := length_encoded_pos c
              omega
            rw [encode_cons, ← ih hshorter hrest]
            exact hbytes
      · cases h

/-- Bytes are read as the text whose bytes they are. -/
theorem decode_eq_ok {bytes : List UInt8} {text : List Char} : decode bytes = .ok text ↔ bytes = encode text := by
  constructor
  · exact encode_of_decodeFrom (Nat.lt_succ_self _)
  · rintro rfl
    exact decodeFrom_encode text (Nat.lt_succ_self _) 0

/-! ## Faults -/

/-- The bytes of some text. -/
def IsText (bytes : List UInt8) : Prop := ∃ text, bytes = encode text

theorem wellFormed_iff {bytes : List UInt8} : wellFormed bytes = true ↔ IsText bytes := by
  unfold wellFormed
  cases hdecode : decode bytes with
  | ok text => exact ⟨fun _ => ⟨text, decode_eq_ok.mp hdecode⟩, fun _ => rfl⟩
  | error f =>
      refine ⟨fun h => (nomatch h), ?_⟩
      rintro ⟨text, htext⟩
      rw [decode_eq_ok.mpr htext] at hdecode
      cases hdecode

instance : DecidablePred IsText := fun _ => decidable_of_iff _ wellFormed_iff

/-- The longest text that some bytes begin with. -/
structure LongestText (bytes front : List UInt8) : Prop where
  leading : front <+: bytes
  isText : IsText front
  longest : ∀ other, other <+: bytes → IsText other → other.length ≤ front.length

theorem LongestText.length_eq {bytes front front' : List UInt8} (h : LongestText bytes front)
    (h' : LongestText bytes front') : front.length = front'.length :=
  Nat.le_antisymm (h'.longest front h.leading h.isText) (h.longest front' h'.leading h'.isText)

/-- A text that is not empty is led by the character that the bytes begin with. -/
theorem front_of_leading {c : Char} {text : List Char} {bytes : List UInt8} (h : encode (c :: text) <+: bytes) :
    front bytes = .char c (String.utf8EncodeChar c).length := by
  obtain ⟨r, rfl⟩ := h
  rw [encode_cons, List.append_assoc, front_encoded]

/-- A character in front of some bytes is in front of the longest text there. -/
theorem LongestText.cons {bytes p : List UInt8} (h : LongestText bytes p) (c : Char) :
    LongestText (String.utf8EncodeChar c ++ bytes) (String.utf8EncodeChar c ++ p) where
  leading := (List.prefix_append_right_inj _).mpr h.leading
  isText := by
    obtain ⟨text, rfl⟩ := h.isText
    exact ⟨c :: text, (encode_cons c text).symm⟩
  longest := by
    rintro other hother ⟨text, rfl⟩
    cases text with
    | nil => exact Nat.zero_le _
    | cons d text =>
        have hfront := front_of_leading hother
        rw [front_encoded] at hfront
        obtain rfl := (Front.char.inj hfront).1
        rw [encode_cons] at hother ⊢
        rw [List.length_append, List.length_append]
        exact Nat.add_le_add_left
          (h.longest _ ((List.prefix_append_right_inj _).mp hother) ⟨text, rfl⟩) _

/-- Bytes that begin with no character begin with the empty text only. -/
theorem longestText_of_bad {bytes : List UInt8} {b : UInt8} {n : Nat} {reason : Reason}
    (h : front bytes = .bad b n reason) : LongestText bytes [] where
  leading := List.nil_prefix
  isText := ⟨[], rfl⟩
  longest := by
    rintro other hother ⟨text, rfl⟩
    cases text with
    | nil => exact Nat.zero_le _
    | cons c text =>
        have hfront := front_of_leading hother
        rw [h] at hfront
        cases hfront

theorem exists_longestText_from {rounds o : Nat} {bytes : List UInt8} {f : Fault}
    (h : decodeFrom rounds o bytes = .error f) : ∃ front, LongestText bytes front ∧ f.offset = o + front.length := by
  induction rounds generalizing o bytes with
  | zero => cases h
  | succ rounds ih =>
      rw [decodeFrom] at h
      split at h
      · cases h
      · rename_i c size hfront
        have hbytes := encoded_of_front hfront
        have hsize : size = (String.utf8EncodeChar c).length := by
          rw [hbytes, front_encoded] at hfront
          exact (Front.char.inj hfront).2.symm
        cases hrest : decodeFrom rounds (o + size) (bytes.drop size) with
        | ok text =>
            rw [hrest] at h
            cases h
        | error f' =>
            rw [hrest] at h
            cases h
            obtain ⟨p, hp, hoffset⟩ := ih hrest
            refine ⟨String.utf8EncodeChar c ++ p, ?_, ?_⟩
            · rw [hbytes]
              exact hp.cons c
            · rw [hoffset, hsize, List.length_append, Nat.add_assoc]
      · rename_i hfront
        cases h
        exact ⟨[], longestText_of_bad hfront, rfl⟩

/-- A fault stands right behind the longest text that the bytes begin with. -/
theorem exists_longestText {bytes : List UInt8} {f : Fault} (h : decode bytes = .error f) :
    ∃ front, LongestText bytes front ∧ f.offset = front.length := by
  obtain ⟨front, hfront, hoffset⟩ := exists_longestText_from h
  exact ⟨front, hfront, hoffset.trans (Nat.zero_add _)⟩

end GrammarBench.Text.Utf8
