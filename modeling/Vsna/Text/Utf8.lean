import Mathlib.Data.List.Basic
import Vsna.Text.Numeral

set_option relaxedAutoImplicit false
set_option autoImplicit false

/-!
# UTF-8

The encoding of a text, a list of Unicode scalar values, and the byte sequences that encode one
character outside of ASCII, by the ranges of their bytes.

## Main definitions

* `Text.utf8` — the encoding of a text.
* `Text.MultiByte` — the well-formed byte sequences of several bytes.

## Main results

* `Text.multiByte_iff` — these are the encodings of the characters outside of ASCII.
-/

namespace Text

/-- The encoding of a text. -/
def utf8 (cs : List Char) : Str := cs.flatMap String.utf8EncodeChar

/-- The empty text. -/
@[simp] lemma utf8_nil : utf8 [] = [] := rfl

/-- The encoding of a text is that of its first character, and that of the rest. -/
@[simp] lemma utf8_cons (c : Char) (cs : List Char) :
    utf8 (c :: cs) = String.utf8EncodeChar c ++ utf8 cs := rfl

/-- The encoding of two texts. -/
@[simp] lemma utf8_append (cs ds : List Char) : utf8 (cs ++ ds) = utf8 cs ++ utf8 ds :=
  List.flatMap_append

/-- A byte that continues a sequence. -/
def Continues (b : UInt8) : Prop := 0x80 ≤ b ∧ b ≤ 0xBF

/-- The well-formed byte sequences of several bytes. -/
inductive MultiByte : Str → Prop
  | two {a b : UInt8} : 0xC2 ≤ a → a ≤ 0xDF → Continues b → MultiByte [a, b]
  | three {a b c : UInt8} : 0xE0 ≤ a → a ≤ 0xEF → Continues b → Continues c →
      (a = 0xE0 → 0xA0 ≤ b) → (a = 0xED → b ≤ 0x9F) → MultiByte [a, b, c]
  | four {a b c d : UInt8} : 0xF0 ≤ a → a ≤ 0xF4 → Continues b → Continues c → Continues d →
      (a = 0xF0 → 0x90 ≤ b) → (a = 0xF4 → b ≤ 0x8F) → MultiByte [a, b, c, d]

/-! ## Scalar values -/

/-- The byte with a given number. -/
lemma ofNat_eq_of_toNat {n : ℕ} {b : UInt8} (h : n = b.toNat) : UInt8.ofNat n = b := by
  rw [h, UInt8.ofNat_toNat]

/-- The number of a scalar value. -/
lemma toNat_ofNat {n : ℕ} (h : n.isValidChar) : (Char.ofNat n).toNat = n := by
  rw [Char.ofNat, dif_pos h]
  rfl

/-- The bounds of a scalar value. -/
lemma isValidChar_toNat (c : Char) : c.toNat < 0xD800 ∨ 0xDFFF < c.toNat ∧ c.toNat < 0x110000 :=
  c.valid

/-- An ASCII character is one byte. -/
lemma utf8EncodeChar_of_lt {c : Char} (h : c.toNat < 0x80) :
    String.utf8EncodeChar c = [UInt8.ofNat c.toNat] := by
  rw [String.utf8EncodeChar, Char.toNat_val]
  exact if_pos (by omega)

/-- A character has at least one byte. -/
lemma utf8EncodeChar_ne_nil (c : Char) : String.utf8EncodeChar c ≠ [] := by
  rw [String.utf8EncodeChar]
  split_ifs <;> simp

/-- The encoding of an ASCII byte. -/
lemma utf8EncodeChar_ofNat {b : UInt8} (h : b < 0x80) :
    (Char.ofNat b.toNat).toNat = b.toNat ∧ String.utf8EncodeChar (Char.ofNat b.toNat) = [b] := by
  have h : b.toNat < 0x80 := h
  have hval : (Char.ofNat b.toNat).toNat = b.toNat := toNat_ofNat (.inl (by omega))
  exact ⟨hval, by rw [utf8EncodeChar_of_lt (by omega), hval, UInt8.ofNat_toNat]⟩

/-! ## Several bytes -/

/-- A well-formed sequence of several bytes encodes a character.

**Proof sketch.** The bits of the character are in the differences of the bytes to the least ones
of their kind. -/
lemma exists_char_of_multiByte {s : Str} (h : MultiByte s) :
    ∃ c : Char, 0x80 ≤ c.toNat ∧ String.utf8EncodeChar c = s := by
  cases h with
  | @two a b ha ha' hb =>
    simp only [Continues, UInt8.le_iff_toNat_le, UInt8.reduceToNat] at ha ha' hb
    obtain ⟨n, hn⟩ : ∃ n, n = (a.toNat - 0xC0) * 64 + (b.toNat - 0x80) := ⟨_, rfl⟩
    have hval : (Char.ofNat n).toNat = n := toNat_ofNat (.inl (by omega))
    refine ⟨Char.ofNat n, by omega, ?_⟩
    rw [String.utf8EncodeChar, Char.toNat_val, hval]
    rw [if_neg (by omega), if_pos (by omega), ofNat_eq_of_toNat (b := a) (by omega),
      ofNat_eq_of_toNat (b := b) (by omega)]
  | @three a b c ha ha' hb hc he0 hed =>
    simp only [Continues, UInt8.le_iff_toNat_le, ← UInt8.toNat_inj, UInt8.reduceToNat]
      at ha ha' hb hc he0 hed
    obtain ⟨n, hn⟩ : ∃ n, n =
      (a.toNat - 0xE0) * 4096 + (b.toNat - 0x80) * 64 + (c.toNat - 0x80) := ⟨_, rfl⟩
    have hval : (Char.ofNat n).toNat = n := toNat_ofNat (by simp only [Nat.isValidChar]; omega)
    refine ⟨Char.ofNat n, by omega, ?_⟩
    rw [String.utf8EncodeChar, Char.toNat_val, hval]
    rw [if_neg (by omega), if_neg (by omega), if_pos (by omega),
      ofNat_eq_of_toNat (b := a) (by omega), ofNat_eq_of_toNat (b := b) (by omega),
      ofNat_eq_of_toNat (b := c) (by omega)]
  | @four a b c d ha ha' hb hc hd hf0 hf4 =>
    simp only [Continues, UInt8.le_iff_toNat_le, ← UInt8.toNat_inj, UInt8.reduceToNat]
      at ha ha' hb hc hd hf0 hf4
    obtain ⟨n, hn⟩ : ∃ n, n = (a.toNat - 0xF0) * 262144 + (b.toNat - 0x80) * 4096 +
      (c.toNat - 0x80) * 64 + (d.toNat - 0x80) := ⟨_, rfl⟩
    have hval : (Char.ofNat n).toNat = n := toNat_ofNat (by simp only [Nat.isValidChar]; omega)
    refine ⟨Char.ofNat n, by omega, ?_⟩
    rw [String.utf8EncodeChar, Char.toNat_val, hval]
    rw [if_neg (by omega), if_neg (by omega), if_neg (by omega),
      ofNat_eq_of_toNat (b := a) (by omega), ofNat_eq_of_toNat (b := b) (by omega),
      ofNat_eq_of_toNat (b := c) (by omega), ofNat_eq_of_toNat (b := d) (by omega)]

/-- The encoding of a character outside of ASCII is well-formed. -/
lemma multiByte_utf8EncodeChar {c : Char} (h : 0x80 ≤ c.toNat) :
    MultiByte (String.utf8EncodeChar c) := by
  have hvalid := isValidChar_toNat c
  rw [String.utf8EncodeChar, Char.toNat_val]
  split_ifs with h₁ h₂ h₃
  · omega
  · refine .two ?_ ?_ ⟨?_, ?_⟩
    all_goals simp only [UInt8.le_iff_toNat_le, UInt8.toNat_ofNat', UInt8.reduceToNat]; omega
  · refine .three ?_ ?_ ⟨?_, ?_⟩ ⟨?_, ?_⟩ ?_ ?_
    all_goals
      simp only [UInt8.le_iff_toNat_le, ← UInt8.toNat_inj, UInt8.toNat_ofNat', UInt8.reduceToNat]
      omega
  · refine .four ?_ ?_ ⟨?_, ?_⟩ ⟨?_, ?_⟩ ⟨?_, ?_⟩ ?_ ?_
    all_goals
      simp only [UInt8.le_iff_toNat_le, ← UInt8.toNat_inj, UInt8.toNat_ofNat', UInt8.reduceToNat]
      omega

/-- The first byte of a well-formed sequence. -/
lemma MultiByte.le_head {b : UInt8} {s : Str} (h : MultiByte (b :: s)) : 0xC2 ≤ b := by
  cases h with
  | two ha => exact ha
  | three ha => exact UInt8.le_trans (by decide) ha
  | four ha => exact UInt8.le_trans (by decide) ha

/-- **The well-formed sequences of several bytes** encode the characters outside of ASCII. -/
theorem multiByte_iff {s : Str} :
    MultiByte s ↔ ∃ c : Char, 0x80 ≤ c.toNat ∧ String.utf8EncodeChar c = s := by
  constructor
  · exact exists_char_of_multiByte
  · rintro ⟨c, hc, rfl⟩
    exact multiByte_utf8EncodeChar hc

end Text
