import Mathlib.Data.List.Forall2
import Vsna.Json.Lexeme

set_option relaxedAutoImplicit false
set_option autoImplicit false

/-!
# The scan of a string

`scan_string` succeeds exactly if the input goes on with what stands for a text, and a closing
quote; the buffer then holds the text in UTF-8. The two directions of this are proved together, for
one function of the lexer after the other.

## Main definitions

* `Nlohmann.Delivers` — a computation of the lexer succeeds, and leaves this input and buffer.

## Main results

* `Nlohmann.delivers_bind_iff` — two computations in sequence.
* `Nlohmann.delivers_scanUnicode_iff`, `Nlohmann.delivers_scanEscape_iff` — escapes.
* `Nlohmann.followRanges_iff` — the ranges of the code are those of UTF-8.
* `Nlohmann.delivers_scanString_iff` — strings.
-/

namespace Nlohmann

open Text Automata

/-! ## Outcomes -/

variable {α β : Type} {x : Scan α} {l : Lexer} {rest buffer : Str}

/-- The computation succeeds with this value, and leaves this input and this buffer. -/
def Delivers (x : Scan α) (l : Lexer) (a : α) (rest buffer : Str) : Prop :=
  ∃ l', x l = .ok a l' ∧ l'.input.pending = rest ∧ l'.tokenBuffer = buffer

/-- Two computations in sequence, of which the second depends on the input and the buffer only. -/
lemma delivers_bind_iff {f : α → Scan β} {b : β} {P : α → Str → Str → Prop}
    {Q : α → Str → Str → Prop} (hx : ∀ a s w, Delivers x l a s w ↔ P a s w)
    (hf : ∀ a l', Delivers (f a) l' b rest buffer ↔ Q a l'.input.pending l'.tokenBuffer) :
    Delivers (x >>= f) l b rest buffer ↔ ∃ a s w, P a s w ∧ Q a s w := by
  constructor
  · rintro ⟨l', h, hrest⟩
    cases hxl : x l with
    | error e l'' =>
      rw [bind_of_error hxl] at h
      cases h
    | ok a l'' =>
      rw [bind_of_ok hxl] at h
      exact ⟨a, _, _, (hx a _ _).mp ⟨l'', hxl, rfl, rfl⟩, (hf a l'').mp ⟨l', h, hrest⟩⟩
  · rintro ⟨a, s, w, hP, hQ⟩
    obtain ⟨l'', hxl, rfl, rfl⟩ := (hx a s w).mpr hP
    obtain ⟨l', h, hrest⟩ := (hf a l'').mpr hQ
    exact ⟨l', by rw [bind_of_ok hxl]; exact h, hrest⟩

/-- Returning. -/
lemma delivers_pure_iff {a b : α} : Delivers (pure a : Scan α) l b rest buffer ↔
    a = b ∧ l.input.pending = rest ∧ l.tokenBuffer = buffer := by
  constructor
  · rintro ⟨l', h, hrest⟩
    cases h
    exact ⟨rfl, hrest⟩
  · rintro ⟨rfl, hrest⟩
    exact ⟨l, rfl, hrest⟩

/-- Failing. -/
lemma not_delivers_fail {message : Str} {a : α} :
    ¬ Delivers (fail message : Scan α) l a rest buffer := by
  rintro ⟨l', h, -⟩
  cases h

/-- Failing unless a condition holds. -/
lemma delivers_ite_fail_iff {p : Prop} [Decidable p] {message : Str} {a : α} :
    Delivers (if p then x else fail message) l a rest buffer ↔ p ∧ Delivers x l a rest buffer := by
  split_ifs with hp
  · exact (and_iff_right hp).symm
  · exact iff_of_false not_delivers_fail fun h => hp h.1

/-- Reading a character. -/
lemma delivers_get_bind {f : Option UInt8 → Scan α} {a : α} :
    Delivers (get >>= f) l a rest buffer ↔
      Delivers (f l.input.pending.head?) l.advance a rest buffer := by
  rw [Delivers, get_bind, Delivers]

/-- Adding a character. -/
lemma delivers_add_iff {c : UInt8} {u : Unit} : Delivers (add c) l u rest buffer ↔
    l.input.pending = rest ∧ l.tokenBuffer ++ [c] = buffer := by
  constructor
  · rintro ⟨l', h, hrest⟩
    cases h
    exact hrest
  · exact fun hrest => ⟨_, rfl, hrest⟩

/-- Returning after another computation. -/
lemma delivers_bind_pure_iff {x : Scan Unit} {a b : α} :
    Delivers (x >>= fun _ => pure a) l b rest buffer ↔
      a = b ∧ Delivers x l () rest buffer := by
  rw [delivers_bind_iff (fun _ _ _ => Iff.rfl)
    (Q := fun _ s w => a = b ∧ s = rest ∧ w = buffer) fun _ _ => delivers_pure_iff]
  constructor
  · rintro ⟨u, s, w, h, rfl, rfl, rfl⟩
    exact ⟨rfl, h⟩
  · rintro ⟨rfl, h⟩
    exact ⟨(), _, _, h, rfl, rfl, rfl⟩

/-- Adding several characters. -/
lemma delivers_forM_add_iff {s : Str} : Delivers (s.forM add) l () rest buffer ↔
    l.input.pending = rest ∧ l.tokenBuffer ++ s = buffer := by
  induction s generalizing l with
  | nil =>
    rw [List.append_nil]
    exact delivers_pure_iff.trans (and_iff_right rfl)
  | cons c s ih =>
    change Delivers (add c >>= fun _ => s.forM add) l () rest buffer ↔ _
    rw [delivers_bind_iff (fun _ _ _ => delivers_add_iff)
      (Q := fun _ t w => t = rest ∧ w ++ s = buffer) fun _ _ => ih]
    constructor
    · rintro ⟨-, t, w, ⟨rfl, rfl⟩, rfl, rfl⟩
      exact ⟨rfl, by simp⟩
    · rintro ⟨rfl, rfl⟩
      exact ⟨(), _, _, ⟨rfl, rfl⟩, rfl, by simp⟩

/-- What `get` leaves to be read. -/
@[simp] lemma Lexer.pending_advance (l : Lexer) : l.advance.input.pending = l.input.pending.tail :=
  l.input.pending_advance

/-- `get` does not change the buffer. -/
@[simp] lemma Lexer.tokenBuffer_advance (l : Lexer) : l.advance.tokenBuffer = l.tokenBuffer := rfl

/-! ## Characters -/

/-- One digit of a code point. -/
lemma delivers_codepointDigit_iff {codepoint factor n : ℕ} :
    Delivers (codepointDigit codepoint factor) l n rest buffer ↔
      ∃ c d, hexDigit c = some d ∧ l.input.pending = c :: rest ∧ l.tokenBuffer = buffer ∧
        codepoint + d <<< factor = n := by
  rw [codepointDigit, delivers_get_bind]
  cases hp : l.input.pending with
  | nil => exact iff_of_false not_delivers_fail (by simp)
  | cons c s =>
    cases hc : hexDigit c with
    | none =>
      refine iff_of_false ?_ ?_
      · simpa [hc] using not_delivers_fail
      · rintro ⟨c', d, hd, heq, -⟩
        obtain ⟨rfl, -⟩ := List.cons.inj heq
        simp [hc] at hd
    | some d =>
      simp only [List.head?_cons, Option.bind_some, hc, delivers_pure_iff, Lexer.pending_advance,
        hp, List.tail_cons, Lexer.tokenBuffer_advance]
      constructor
      · rintro ⟨rfl, rfl, rfl⟩
        exact ⟨c, d, hc, rfl, rfl, rfl⟩
      · rintro ⟨c', d', hd, heq, rfl, rfl⟩
        obtain ⟨rfl, rfl⟩ := List.cons.inj heq
        rw [hc] at hd
        obtain rfl := Option.some.inj hd
        exact ⟨rfl, rfl, rfl⟩

/-- The code point that digits add up to, from a given one. -/
def foldHex : List ℕ → ℕ → Str → Option ℕ
  | [], codepoint, [] => some codepoint
  | factor :: factors, codepoint, c :: s =>
    (hexDigit c).bind fun d => foldHex factors (codepoint + d <<< factor) s
  | _, _, _ => none

/-- The digits of a code point, one for each factor. -/
lemma delivers_foldlM_iff {factors : List ℕ} {codepoint n : ℕ} :
    Delivers (factors.foldlM codepointDigit codepoint) l n rest buffer ↔
      ∃ s, foldHex factors codepoint s = some n ∧ l.input.pending = s ++ rest ∧
        l.tokenBuffer = buffer := by
  induction factors generalizing codepoint l with
  | nil =>
    rw [List.foldlM_nil, delivers_pure_iff]
    constructor
    · rintro ⟨rfl, h⟩
      exact ⟨[], rfl, h⟩
    · rintro ⟨s, hs, h⟩
      cases s with
      | nil => exact ⟨Option.some.inj hs, h⟩
      | cons c s => cases hs
  | cons factor factors ih =>
    rw [List.foldlM_cons, delivers_bind_iff (fun _ _ _ => delivers_codepointDigit_iff)
      (Q := fun m t w => ∃ s, foldHex factors m s = some n ∧ t = s ++ rest ∧ w = buffer)
      fun _ _ => ih]
    constructor
    · rintro ⟨-, t, w, ⟨c, d, hc, hp, rfl, rfl⟩, s, hs, rfl, rfl⟩
      exact ⟨c :: s, by simpa [foldHex, hc] using hs, by simpa using hp, rfl⟩
    · rintro ⟨s, hs, hp, rfl⟩
      cases s with
      | nil => cases hs
      | cons c s =>
        obtain ⟨d, hc, hs⟩ := Option.bind_eq_some_iff.mp hs
        exact ⟨_, _, _, ⟨c, d, hc, hp, rfl, rfl⟩, s, hs, rfl, rfl⟩

/-- The four digits of a code point. -/
lemma delivers_getCodepoint_iff {n : ℕ} : Delivers getCodepoint l n rest buffer ↔
    ∃ s, Hex4 s n ∧ l.input.pending = s ++ rest ∧ l.tokenBuffer = buffer := by
  have hfold : ∀ s, foldHex [12, 8, 4, 0] 0 s = some n ↔ Hex4 s n := by
    intro s
    constructor
    · intro h
      match s, h with
      | [], h | [_], h | [_, _], h | [_, _, _], h | _ :: _ :: _ :: _ :: _ :: _, h =>
        simp [foldHex] at h
      | [a, b, c, d], h =>
        simp only [foldHex, Option.bind_eq_some_iff, Option.some.injEq, Nat.shiftLeft_eq] at h
        obtain ⟨x, hx, y, hy, z, hz, w, hw, h⟩ := h
        exact ⟨a, b, c, d, x, y, z, w, rfl, hx, hy, hz, hw, by omega⟩
    · rintro ⟨a, b, c, d, x, y, z, w, rfl, hx, hy, hz, hw, rfl⟩
      simp only [foldHex, hx, hy, hz, hw, Option.bind_some, Nat.shiftLeft_eq, Option.some.injEq]
      omega
  rw [getCodepoint, delivers_foldlM_iff]
  exact exists_congr fun s => and_congr_left fun _ => hfold s

/-- A byte that continues a character. -/
lemma tail_byte (n : ℕ) : 0x80 ||| n &&& 0x3F = n % 64 + 0x80 := by
  have hlt : n % 2 ^ 6 < 2 ^ 7 := by omega
  rw [show 0x3F = 2 ^ 6 - 1 from rfl, Nat.and_two_pow_sub_one_eq_mod,
    ← Nat.two_pow_add_eq_or_of_lt hlt 1]
  omega

/-- The first byte of a character. -/
lemma head_byte {n k : ℕ} (i : ℕ) (h : n < 2 ^ i) : 2 ^ i * k ||| n = n + 2 ^ i * k := by
  rw [← Nat.two_pow_add_eq_or_of_lt h k, Nat.add_comm]

/-- The bytes of a code point encode it. -/
lemma encode_toNat (c : Char) : encode c.toNat = String.utf8EncodeChar c := by
  have hvalid := isValidChar_toNat c
  have h192 := head_byte (n := c.toNat / 2 ^ 6) (k := 3) 6
  have h224 := head_byte (n := c.toNat / 2 ^ 12) (k := 7) 5
  have h240 := head_byte (n := c.toNat / 2 ^ 18) (k := 15) 4
  simp only [Nat.reducePow, Nat.reduceMul] at h192 h224 h240
  simp only [encode, String.utf8EncodeChar, Char.toNat_val, tail_byte, Nat.shiftRight_eq_div_pow,
    Nat.reducePow]
  by_cases h₁ : c.toNat < 0x80
  · rw [if_pos h₁, if_pos (by omega)]
  rw [if_neg h₁, if_neg (c := c.toNat ≤ 0x7F) (by omega)]
  by_cases h₂ : c.toNat ≤ 0x7FF
  · rw [if_pos h₂, if_pos h₂, h192 (by omega), Nat.mod_eq_of_lt (b := 0x20) (by omega)]
  rw [if_neg h₂, if_neg h₂]
  by_cases h₃ : c.toNat ≤ 0xFFFF
  · rw [if_pos h₃, if_pos h₃, h224 (by omega), Nat.mod_eq_of_lt (b := 0x10) (by omega)]
  · rw [if_neg h₃, if_neg h₃, h240 (by omega), Nat.mod_eq_of_lt (b := 0x08) (by omega)]

/-- The beginning of an escape of a code point. -/
lemma delivers_getUnicodeEscape_iff : Delivers getUnicodeEscape l true rest buffer ↔
    l.input.pending = "\\u" ++ rest ∧ l.tokenBuffer = buffer := by
  rw [getUnicodeEscape, delivers_get_bind]
  cases hp : l.input.pending with
  | nil => exact iff_of_false (fun h => by simpa using (delivers_pure_iff.mp h).1) (by simp [ascii])
  | cons c s =>
    rw [List.head?_cons]
    split_ifs with hc
    · obtain rfl := Option.some.inj hc
      rw [delivers_get_bind, delivers_pure_iff]
      cases s with
      | nil => simp [hp, ascii]
      | cons d s => simp [hp, ascii, and_assoc]
    · refine iff_of_false (fun h => by simpa using (delivers_pure_iff.mp h).1) ?_
      rintro ⟨h, -⟩
      obtain ⟨rfl, -⟩ := List.cons.inj h
      exact hc rfl

/-- A hexadecimal digit is less than sixteen. -/
lemma hexDigit_lt {c : UInt8} {d : ℕ} (h : hexDigit c = some d) : d < 16 := by
  simp only [hexDigit, UInt8.le_iff_toNat_le, UInt8.reduceToNat] at h
  split_ifs at h
  all_goals
    obtain rfl := Option.some.inj h
    omega

/-- Four digits are less than two bytes. -/
lemma Hex4.lt {s : Str} {n : ℕ} (h : Hex4 s n) : n < 0x10000 := by
  obtain ⟨a, b, c, d, x, y, z, w, -, hx, hy, hz, hw, rfl⟩ := h
  have := hexDigit_lt hx
  have := hexDigit_lt hy
  have := hexDigit_lt hz
  have := hexDigit_lt hw
  omega

/-- The digits of a low surrogate. -/
lemma delivers_scanLowSurrogate_iff {hi : ℕ} :
    Delivers (scanLowSurrogate hi) l () rest buffer ↔
      ∃ t lo, Hex4 t lo ∧ 0xDC00 ≤ lo ∧ lo ≤ 0xDFFF ∧ l.input.pending = t ++ rest ∧
        l.tokenBuffer ++ encode (hi <<< 10 + lo - 0x35FDC00) = buffer := by
  rw [scanLowSurrogate, delivers_bind_iff (fun _ _ _ => delivers_getCodepoint_iff)
    (Q := fun lo s w => (0xDC00 ≤ lo ∧ lo ≤ 0xDFFF) ∧ s = rest ∧
      w ++ encode (hi <<< 10 + lo - 0x35FDC00) = buffer)
    fun lo _ => delivers_ite_fail_iff.trans (and_congr_right fun _ => delivers_forM_add_iff)]
  constructor
  · rintro ⟨lo, s, w, ⟨t, ht, hp, rfl⟩, ⟨hlo, hlo'⟩, rfl, hb⟩
    exact ⟨t, lo, ht, hlo, hlo', hp, hb⟩
  · rintro ⟨t, lo, ht, hlo, hlo', hp, hb⟩
    exact ⟨lo, rest, _, ⟨t, ht, hp, rfl⟩, ⟨hlo, hlo'⟩, rfl, hb⟩

/-- What comes after a high surrogate. -/
lemma delivers_scanSurrogate_iff {hi : ℕ} : Delivers (scanSurrogate hi) l () rest buffer ↔
    ∃ t lo, Hex4 t lo ∧ 0xDC00 ≤ lo ∧ lo ≤ 0xDFFF ∧ l.input.pending = "\\u" ++ (t ++ rest) ∧
      l.tokenBuffer ++ encode (hi <<< 10 + lo - 0x35FDC00) = buffer := by
  rw [scanSurrogate, delivers_bind_iff (fun _ _ _ => Iff.rfl)
    (Q := fun found s w => found = true ∧ ∃ t lo, Hex4 t lo ∧ 0xDC00 ≤ lo ∧ lo ≤ 0xDFFF ∧
      s = t ++ rest ∧ w ++ encode (hi <<< 10 + lo - 0x35FDC00) = buffer)
    fun _ _ => delivers_ite_fail_iff.trans (and_congr_right fun _ => delivers_scanLowSurrogate_iff)]
  constructor
  · rintro ⟨_, s, w, hescape, rfl, t, lo, ht, hlo, hlo', rfl, hb⟩
    obtain ⟨hp, rfl⟩ := delivers_getUnicodeEscape_iff.mp hescape
    exact ⟨t, lo, ht, hlo, hlo', hp, hb⟩
  · rintro ⟨t, lo, ht, hlo, hlo', hp, hb⟩
    exact ⟨true, _, _, delivers_getUnicodeEscape_iff.mpr ⟨hp, rfl⟩, rfl, t, lo, ht, hlo, hlo', rfl,
      hb⟩

/-- The character of two surrogates. -/
lemma exists_char_of_surrogates {hi lo : ℕ} (hhi : 0xD800 ≤ hi) (hhi' : hi ≤ 0xDBFF)
    (hlo : 0xDC00 ≤ lo) (hlo' : lo ≤ 0xDFFF) :
    ∃ c : Char, c.toNat = 0x10000 + 0x400 * (hi - 0xD800) + (lo - 0xDC00) ∧
      encode (hi <<< 10 + lo - 0x35FDC00) = String.utf8EncodeChar c := by
  have hcode : hi <<< 10 + lo - 0x35FDC00 = 0x10000 + 0x400 * (hi - 0xD800) + (lo - 0xDC00) := by
    rw [Nat.shiftLeft_eq]
    omega
  have hval := toNat_ofNat (n := 0x10000 + 0x400 * (hi - 0xD800) + (lo - 0xDC00))
    (.inr (by omega))
  exact ⟨_, hval, by rw [hcode, ← encode_toNat, hval]⟩

/-- What comes after the digits of an escape: nothing, or a low surrogate. -/
lemma delivers_scanCodepoint_iff {n : ℕ} (hn : n < 0x10000) :
    Delivers (scanCodepoint n) l () rest buffer ↔
      ∃ c : Char, l.tokenBuffer ++ String.utf8EncodeChar c = buffer ∧
        (c.toNat = n ∧ l.input.pending = rest ∨
          ∃ t lo, Hex4 t lo ∧ 0xD800 ≤ n ∧ n ≤ 0xDBFF ∧ 0xDC00 ≤ lo ∧ lo ≤ 0xDFFF ∧
            c.toNat = 0x10000 + 0x400 * (n - 0xD800) + (lo - 0xDC00) ∧
            l.input.pending = "\\u" ++ (t ++ rest)) := by
  unfold scanCodepoint
  split_ifs with hhigh hlow
  · rw [delivers_scanSurrogate_iff]
    constructor
    · rintro ⟨t, lo, ht, hlo, hlo', hp, hb⟩
      obtain ⟨c, hc, henc⟩ := exists_char_of_surrogates hhigh.1 hhigh.2 hlo hlo'
      exact ⟨c, by rw [← henc, hb], .inr ⟨t, lo, ht, hhigh.1, hhigh.2, hlo, hlo', hc, hp⟩⟩
    · rintro ⟨c, hb, ⟨hc, -⟩ | ⟨t, lo, ht, -, -, hlo, hlo', hc, hp⟩⟩
      · have := isValidChar_toNat c
        omega
      · obtain ⟨d, hd, henc⟩ := exists_char_of_surrogates hhigh.1 hhigh.2 hlo hlo'
        obtain rfl : d = c := Char.toNat_inj.mp (hd.trans hc.symm)
        exact ⟨t, lo, ht, hlo, hlo', hp, by rw [henc, hb]⟩
  · refine iff_of_false not_delivers_fail ?_
    rintro ⟨c, -, ⟨hc, -⟩ | ⟨t, lo, -, -, hhi, -⟩⟩
    · have := isValidChar_toNat c
      omega
    · omega
  · have hval := toNat_ofNat (n := n) (by simp only [Nat.isValidChar]; omega)
    rw [delivers_forM_add_iff]
    constructor
    · rintro ⟨hp, hb⟩
      exact ⟨Char.ofNat n, by rw [← encode_toNat, hval, hb], .inl ⟨hval, hp⟩⟩
    · rintro ⟨c, hb, ⟨rfl, hp⟩ | ⟨t, lo, -, hhi, hhi', -⟩⟩
      · exact ⟨hp, by rw [encode_toNat, hb]⟩
      · exact absurd ⟨hhi, hhi'⟩ hhigh

/-- The escape of a code point. -/
lemma delivers_scanUnicode_iff : Delivers scanUnicode l () rest buffer ↔
    ∃ s c, CodeUnits s c ∧ l.input.pending = s ++ rest ∧
      l.tokenBuffer ++ String.utf8EncodeChar c = buffer := by
  constructor
  · rintro ⟨l', h, hrest⟩
    cases hn : getCodepoint l with
    | error e l'' =>
      rw [scanUnicode, bind_of_error hn] at h
      cases h
    | ok n l'' =>
      rw [scanUnicode, bind_of_ok hn] at h
      obtain ⟨s, hs, hp, hbuffer⟩ := delivers_getCodepoint_iff.mp ⟨l'', hn, rfl, rfl⟩
      obtain ⟨c, hb, ⟨rfl, hp'⟩ | ⟨t, lo, ht, hhi, hhi', hlo, hlo', hc, hp'⟩⟩ :=
        (delivers_scanCodepoint_iff hs.lt).mp ⟨l', h, hrest⟩
      · exact ⟨s, c, .one hs, by rw [hp, hp'], by rw [hbuffer, hb]⟩
      · exact ⟨s ++ ("\\u" ++ t), c, .two hs ht hhi hhi' hlo hlo' hc, by simp [hp, hp'],
          by rw [hbuffer, hb]⟩
  · have hdigits : ∀ {n s t}, Hex4 s n → l.input.pending = s ++ t →
        ∃ l', getCodepoint l = .ok n l' ∧ l'.input.pending = t ∧
          l'.tokenBuffer = l.tokenBuffer := fun hs hp =>
      delivers_getCodepoint_iff.mpr ⟨_, hs, hp, rfl⟩
    rintro ⟨s, c, hunits, hp, hb⟩
    cases hunits with
    | one hs =>
      obtain ⟨l', hn, hp', hbuffer⟩ := hdigits hs hp
      rw [scanUnicode, Delivers, bind_of_ok hn]
      exact (delivers_scanCodepoint_iff hs.lt).mpr ⟨c, by rw [hbuffer, hb], .inl ⟨rfl, hp'⟩⟩
    | @two s t hi lo _ hs ht hhi hhi' hlo hlo' hc =>
      rw [List.append_assoc] at hp
      obtain ⟨l', hn, hp', hbuffer⟩ := hdigits hs hp
      rw [scanUnicode, Delivers, bind_of_ok hn]
      exact (delivers_scanCodepoint_iff hs.lt).mpr ⟨c, by rw [hbuffer, hb],
        .inr ⟨t, lo, ht, hhi, hhi', hlo, hlo', hc, by rw [hp', List.append_assoc]⟩⟩

/-- What an escape of one character stands for. -/
lemma escaped_eq_some_iff {e d : UInt8} : escaped e = some d ↔
    ∃ c, (e, c) ∈ escapes ∧ String.utf8EncodeChar c = [d] := by
  constructor
  · intro h
    unfold escaped at h
    split_ifs at h
    all_goals
      obtain rfl := Option.some.inj h
      subst e
      exact ⟨_, by simp [escapes]; rfl, rfl⟩
  · rintro ⟨c, hmem, henc⟩
    simp only [escapes, List.mem_cons, Prod.mk.injEq, List.not_mem_nil, or_false] at hmem
    rcases hmem with ⟨rfl, rfl⟩ | ⟨rfl, rfl⟩ | ⟨rfl, rfl⟩ | ⟨rfl, rfl⟩ | ⟨rfl, rfl⟩ |
      ⟨rfl, rfl⟩ | ⟨rfl, rfl⟩ | ⟨rfl, rfl⟩
    all_goals
      obtain rfl := (List.cons.inj henc).1
      rfl

/-- An escape stands for a character of one byte. -/
lemma exists_byte_of_mem_escapes {e : UInt8} {c : Char} (h : (e, c) ∈ escapes) :
    ∃ d, String.utf8EncodeChar c = [d] := by
  simp only [escapes, List.mem_cons, Prod.mk.injEq, List.not_mem_nil, or_false] at h
  rcases h with ⟨-, rfl⟩ | ⟨-, rfl⟩ | ⟨-, rfl⟩ | ⟨-, rfl⟩ | ⟨-, rfl⟩ | ⟨-, rfl⟩ | ⟨-, rfl⟩ |
    ⟨-, rfl⟩
  all_goals exact ⟨_, rfl⟩

/-- The letter `u` is not an escape by itself. -/
lemma not_mem_escapes_u (c : Char) : (117, c) ∉ escapes := by
  simp [escapes]

/-- An escape, after its backslash. -/
lemma delivers_scanEscape_iff : Delivers scanEscape l () rest buffer ↔
    ∃ s c, Spells (92 :: s) c ∧ l.input.pending = s ++ rest ∧
      l.tokenBuffer ++ String.utf8EncodeChar c = buffer := by
  have hspells : (∃ s c, Spells (92 :: s) c ∧ l.input.pending = s ++ rest ∧
        l.tokenBuffer ++ String.utf8EncodeChar c = buffer) ↔
      ∃ c, l.tokenBuffer ++ String.utf8EncodeChar c = buffer ∧
        ((∃ e, (e, c) ∈ escapes ∧ l.input.pending = e :: rest) ∨
          ∃ t, CodeUnits t c ∧ l.input.pending = 117 :: (t ++ rest)) := by
    simp only [spells_backslash_iff]
    constructor
    · rintro ⟨s, c, ⟨e, rfl, he⟩ | ⟨t, rfl, ht⟩, hp, hb⟩
      · exact ⟨c, hb, .inl ⟨e, he, hp⟩⟩
      · exact ⟨c, hb, .inr ⟨t, ht, hp⟩⟩
    · rintro ⟨c, hb, ⟨e, he, hp⟩ | ⟨t, ht, hp⟩⟩
      · exact ⟨[e], c, .inl ⟨e, rfl, he⟩, hp, hb⟩
      · exact ⟨117 :: t, c, .inr ⟨t, rfl, ht⟩, hp, hb⟩
  rw [hspells, scanEscape, delivers_get_bind]
  cases hp : l.input.pending with
  | nil => exact iff_of_false not_delivers_fail (by simp)
  | cons e s =>
    rw [List.head?_cons]
    split_ifs with hu
    · obtain rfl := Option.some.inj hu
      rw [delivers_scanUnicode_iff]
      simp only [Lexer.pending_advance, hp, List.tail_cons, Lexer.tokenBuffer_advance]
      constructor
      · rintro ⟨t, c, ht, rfl, hb⟩
        exact ⟨c, hb, .inr ⟨t, ht, rfl⟩⟩
      · rintro ⟨c, hb, ⟨e, he, heq⟩ | ⟨t, ht, heq⟩⟩
        · exact absurd ((List.cons.inj heq).1 ▸ he) (not_mem_escapes_u c)
        · exact ⟨t, c, ht, (List.cons.inj heq).2, hb⟩
    · have hne : ∀ t, e :: s ≠ 117 :: t := fun t heq => hu (congrArg some (List.cons.inj heq).1)
      simp only [hne, and_false, exists_false, or_false]
      cases he : escaped e with
      | none =>
        refine iff_of_false (by simpa [he] using not_delivers_fail) ?_
        rintro ⟨c, -, e', hmem, heq⟩
        obtain ⟨d, hd⟩ := exists_byte_of_mem_escapes hmem
        rw [← (List.cons.inj heq).1] at hmem
        exact absurd (escaped_eq_some_iff.mpr ⟨c, hmem, hd⟩) (by simp [he])
      | some d =>
        simp only [Option.bind_some, he, delivers_add_iff, Lexer.pending_advance, hp,
          List.tail_cons, Lexer.tokenBuffer_advance]
        constructor
        · rintro ⟨rfl, hb⟩
          obtain ⟨c, hmem, henc⟩ := escaped_eq_some_iff.mp he
          exact ⟨c, by rw [henc, hb], e, hmem, rfl⟩
        · rintro ⟨c, hb, e', hmem, heq⟩
          obtain ⟨rfl, rfl⟩ := List.cons.inj heq
          obtain ⟨d', hd⟩ := exists_byte_of_mem_escapes hmem
          obtain rfl := Option.some.inj (he.symm.trans (escaped_eq_some_iff.mpr ⟨c, hmem, hd⟩))
          exact ⟨rfl, by rw [← hd, hb]⟩

/-- A byte in a range. -/
def InRange (range : UInt8 × UInt8) (b : UInt8) : Prop := range.1 ≤ b ∧ b ≤ range.2

/-- One byte in a range. -/
lemma delivers_byteInRange_iff {range : UInt8 × UInt8} :
    Delivers (byteInRange range) l () rest buffer ↔
      ∃ b, InRange range b ∧ l.input.pending = b :: rest ∧ l.tokenBuffer ++ [b] = buffer := by
  rw [byteInRange, delivers_get_bind]
  cases hp : l.input.pending with
  | nil => exact iff_of_false not_delivers_fail (by simp)
  | cons b s =>
    simp only [List.head?_cons, delivers_ite_fail_iff, delivers_add_iff, Lexer.pending_advance,
      hp, List.tail_cons, Lexer.tokenBuffer_advance]
    constructor
    · rintro ⟨hb, rfl, hbuffer⟩
      exact ⟨b, hb, rfl, hbuffer⟩
    · rintro ⟨b', hb, heq, hbuffer⟩
      obtain ⟨rfl, rfl⟩ := List.cons.inj heq
      exact ⟨hb, rfl, hbuffer⟩

/-- Bytes in their ranges. -/
lemma delivers_forM_byteInRange_iff {ranges : List (UInt8 × UInt8)} :
    Delivers (ranges.forM byteInRange) l () rest buffer ↔
      ∃ bs, List.Forall₂ InRange ranges bs ∧ l.input.pending = bs ++ rest ∧
        l.tokenBuffer ++ bs = buffer := by
  induction ranges generalizing l with
  | nil =>
    refine delivers_pure_iff.trans ⟨?_, ?_⟩
    · rintro ⟨-, hp, hb⟩
      exact ⟨[], .nil, hp, by simpa using hb⟩
    · rintro ⟨bs, hbs, hp, hb⟩
      cases hbs
      exact ⟨rfl, hp, by simpa using hb⟩
  | cons range ranges ih =>
    change Delivers (byteInRange range >>= fun _ => ranges.forM byteInRange) l () rest buffer ↔ _
    rw [delivers_bind_iff (fun _ _ _ => delivers_byteInRange_iff)
      (Q := fun _ s w => ∃ bs, List.Forall₂ InRange ranges bs ∧ s = bs ++ rest ∧
        w ++ bs = buffer) fun _ _ => ih]
    constructor
    · rintro ⟨-, s, w, ⟨b, hb, hp, rfl⟩, bs, hbs, rfl, hbuffer⟩
      exact ⟨b :: bs, .cons hb hbs, hp, by simpa using hbuffer⟩
    · rintro ⟨_, hbs, hp, hbuffer⟩
      cases hbs with
      | cons hb hbs =>
        exact ⟨(), _, _, ⟨_, hb, hp, rfl⟩, _, hbs, rfl, by simpa using hbuffer⟩

/-- The rest of a character. -/
lemma delivers_nextByteInRange_iff {c : UInt8} {ranges : List (UInt8 × UInt8)} :
    Delivers (nextByteInRange c ranges) l () rest buffer ↔
      ∃ bs, List.Forall₂ InRange ranges bs ∧ l.input.pending = bs ++ rest ∧
        l.tokenBuffer ++ c :: bs = buffer := by
  rw [nextByteInRange, delivers_bind_iff (fun _ _ _ => delivers_add_iff)
    (Q := fun _ s w => ∃ bs, List.Forall₂ InRange ranges bs ∧ s = bs ++ rest ∧
      w ++ bs = buffer) fun _ _ => delivers_forM_byteInRange_iff]
  constructor
  · rintro ⟨-, s, w, ⟨rfl, rfl⟩, bs, hbs, hp, hbuffer⟩
    exact ⟨bs, hbs, hp, by simpa using hbuffer⟩
  · rintro ⟨bs, hbs, hp, hbuffer⟩
    exact ⟨(), _, _, ⟨rfl, rfl⟩, bs, hbs, hp, by simpa using hbuffer⟩

/-- What is read in the ranges is the rest of a well-formed sequence.

**Proof sketch.** There is one case for each range of first bytes; in those of a single byte the
range of the second one is the narrow one. -/
lemma multiByte_of_followRanges {c : UInt8} {bs : Str} {ranges : List (UInt8 × UInt8)}
    (hranges : followRanges c = some ranges) (hbs : List.Forall₂ InRange ranges bs) :
    MultiByte (c :: bs) := by
  unfold followRanges at hranges
  split_ifs at hranges with h₁ h₂ h₃ h₄ h₅ h₆ h₇
  all_goals
    obtain rfl := Option.some.inj hranges
    simp only [List.forall₂_cons_left_iff, List.forall₂_nil_left_iff] at hbs
  · obtain ⟨b, -, hb, rfl, rfl⟩ := hbs
    exact .two h₁.1 h₁.2 hb
  · obtain ⟨b, -, hb, ⟨b', -, hb', rfl, rfl⟩, rfl⟩ := hbs
    subst h₂
    exact .three (by decide) (by decide) ⟨UInt8.le_trans (by decide) hb.1, hb.2⟩ hb'
      (fun _ => hb.1) (fun h => absurd h (by decide))
  · obtain ⟨b, -, hb, ⟨b', -, hb', rfl, rfl⟩, rfl⟩ := hbs
    simp only [UInt8.le_iff_toNat_le, ← UInt8.toNat_inj, UInt8.reduceToNat] at h₃
    refine .three ?_ ?_ hb hb' ?_ ?_
    all_goals
      simp only [UInt8.le_iff_toNat_le, ← UInt8.toNat_inj, UInt8.reduceToNat]
      omega
  · obtain ⟨b, -, hb, ⟨b', -, hb', rfl, rfl⟩, rfl⟩ := hbs
    subst h₄
    exact .three (by decide) (by decide) ⟨hb.1, UInt8.le_trans hb.2 (by decide)⟩ hb'
      (fun h => absurd h (by decide)) (fun _ => hb.2)
  · obtain ⟨b, -, hb, ⟨b', -, hb', ⟨b'', -, hb'', rfl, rfl⟩, rfl⟩, rfl⟩ := hbs
    subst h₅
    exact .four (by decide) (by decide) ⟨UInt8.le_trans (by decide) hb.1, hb.2⟩ hb' hb''
      (fun _ => hb.1) (fun h => absurd h (by decide))
  · obtain ⟨b, -, hb, ⟨b', -, hb', ⟨b'', -, hb'', rfl, rfl⟩, rfl⟩, rfl⟩ := hbs
    simp only [UInt8.le_iff_toNat_le, UInt8.reduceToNat] at h₆
    refine .four ?_ ?_ hb hb' hb'' ?_ ?_
    all_goals
      simp only [UInt8.le_iff_toNat_le, ← UInt8.toNat_inj, UInt8.reduceToNat]
      omega
  · obtain ⟨b, -, hb, ⟨b', -, hb', ⟨b'', -, hb'', rfl, rfl⟩, rfl⟩, rfl⟩ := hbs
    subst h₇
    exact .four (by decide) (by decide) ⟨hb.1, UInt8.le_trans hb.2 (by decide)⟩ hb' hb''
      (fun h => absurd h (by decide)) (fun _ => hb.2)

/-- The rest of a well-formed sequence is in the ranges of its first byte. -/
lemma MultiByte.followRanges {c : UInt8} {bs : Str} (h : MultiByte (c :: bs)) :
    ∃ ranges, followRanges c = some ranges ∧ List.Forall₂ InRange ranges bs := by
  unfold Nlohmann.followRanges
  simp only [UInt8.le_iff_toNat_le, ← UInt8.toNat_inj, UInt8.reduceToNat]
  cases h with
  | @two _ b ha ha' hb =>
    simp only [UInt8.le_iff_toNat_le, UInt8.reduceToNat] at ha ha'
    rw [if_pos ⟨ha, ha'⟩]
    exact ⟨_, rfl, .cons hb .nil⟩
  | @three _ b d ha ha' hb hd he0 hed =>
    simp only [UInt8.le_iff_toNat_le, UInt8.reduceToNat] at ha ha'
    rw [if_neg (by omega)]
    by_cases h₁ : c.toNat = 0xE0
    · rw [if_pos h₁]
      exact ⟨_, rfl, .cons ⟨he0 (UInt8.toNat_inj.mp h₁), hb.2⟩ (.cons hd .nil)⟩
    rw [if_neg h₁]
    by_cases h₂ : c.toNat = 0xED
    · rw [if_neg (by omega), if_pos h₂]
      exact ⟨_, rfl, .cons ⟨hb.1, hed (UInt8.toNat_inj.mp h₂)⟩ (.cons hd .nil)⟩
    · rw [if_pos (by omega)]
      exact ⟨_, rfl, .cons hb (.cons hd .nil)⟩
  | @four _ b d e ha ha' hb hd he hf0 hf4 =>
    simp only [UInt8.le_iff_toNat_le, UInt8.reduceToNat] at ha ha'
    rw [if_neg (by omega), if_neg (by omega), if_neg (by omega), if_neg (by omega)]
    by_cases h₁ : c.toNat = 0xF0
    · rw [if_pos h₁]
      exact ⟨_, rfl, .cons ⟨hf0 (UInt8.toNat_inj.mp h₁), hb.2⟩ (.cons hd (.cons he .nil))⟩
    rw [if_neg h₁]
    by_cases h₂ : c.toNat = 0xF4
    · rw [if_neg (by omega), if_pos h₂]
      exact ⟨_, rfl, .cons ⟨hb.1, hf4 (UInt8.toNat_inj.mp h₂)⟩ (.cons hd (.cons he .nil))⟩
    · rw [if_pos (by omega)]
      exact ⟨_, rfl, .cons hb (.cons hd (.cons he .nil))⟩

/-- The ranges are those of the well-formed sequences. -/
lemma followRanges_iff {c : UInt8} {bs : Str} :
    (∃ ranges, followRanges c = some ranges ∧ List.Forall₂ InRange ranges bs) ↔
      MultiByte (c :: bs) :=
  ⟨fun h => h.elim fun _ h => multiByte_of_followRanges h.1 h.2, MultiByte.followRanges⟩

/-! ## Strings -/

/-- A character of more than one byte stands for itself. -/
lemma spells_multiByte_iff {c : UInt8} {s : Str} {ch : Char} (h₁ : c ≠ 34) (h₂ : c ≠ 92)
    (h₃ : 32 ≤ c) (h₄ : ¬ c < 128) :
    Spells (c :: s) ch ↔ String.utf8EncodeChar ch = c :: s ∧ MultiByte (c :: s) := by
  rw [spells_cons_iff h₂]
  constructor
  · rintro ⟨-, -, henc⟩
    rcases utf8EncodeChar_eq_cons_iff.mp henc with ⟨-, hlt, -⟩ | ⟨hge, -, -⟩
    · exact absurd hlt h₄
    · exact ⟨henc, multiByte_iff.mpr ⟨ch, hge, henc⟩⟩
  · rintro ⟨henc, -⟩
    exact ⟨h₁, h₃, henc⟩

/-- A character of a string, after its first byte. -/
lemma delivers_scanStringCase_next_iff {c : UInt8} :
    Delivers (scanStringCase c) l (.inl ()) rest buffer ↔
      ∃ s ch, Spells (c :: s) ch ∧ l.input.pending = s ++ rest ∧
        l.tokenBuffer ++ String.utf8EncodeChar ch = buffer := by
  unfold scanStringCase
  split_ifs with h₁ h₂ h₃ h₄
  · refine iff_of_false (fun h => by simpa using (delivers_pure_iff.mp h).1) ?_
    rintro ⟨s, ch, h, -⟩
    exact ((spells_cons_iff (by simp [h₁])).mp h).1 h₁
  · subst h₂
    rw [delivers_bind_pure_iff, delivers_scanEscape_iff]
    exact and_iff_right rfl
  · refine iff_of_false not_delivers_fail ?_
    rintro ⟨s, ch, h, -⟩
    exact absurd h₃ (UInt8.not_lt.mpr ((spells_cons_iff h₂).mp h).2.1)
  · rw [delivers_bind_pure_iff, delivers_add_iff]
    obtain ⟨-, henc⟩ := utf8EncodeChar_ofNat h₄
    constructor
    · rintro ⟨-, hp, hb⟩
      exact ⟨[], _, (spells_cons_iff h₂).mpr ⟨h₁, UInt8.not_lt.mp h₃, henc⟩, hp,
        by rw [henc, hb]⟩
    · rintro ⟨s, ch, h, hp, hb⟩
      have henc' := ((spells_cons_iff h₂).mp h).2.2
      rcases utf8EncodeChar_eq_cons_iff.mp henc' with ⟨-, -, rfl⟩ | ⟨-, -, hle⟩
      · exact ⟨rfl, hp, by rw [← henc', hb]⟩
      · exact absurd (UInt8.lt_of_le_of_lt hle h₄) (by decide)
  · simp only [spells_multiByte_iff h₁ h₂ (UInt8.not_lt.mp h₃) h₄, ← followRanges_iff]
    cases hranges : followRanges c with
    | none => exact iff_of_false not_delivers_fail (by simp)
    | some ranges =>
      simp only [delivers_bind_pure_iff, delivers_nextByteInRange_iff, true_and]
      constructor
      · rintro ⟨bs, hbs, hp, hb⟩
        obtain ⟨ch, -, henc⟩ := multiByte_iff.mp (followRanges_iff.mp ⟨ranges, hranges, hbs⟩)
        exact ⟨bs, ch, ⟨henc, ranges, rfl, hbs⟩, hp, by rw [henc, hb]⟩
      · rintro ⟨bs, ch, ⟨henc, ranges', heq, hbs⟩, hp, hb⟩
        obtain rfl := Option.some.inj heq
        exact ⟨bs, hbs, hp, by rw [← henc, hb]⟩

/-- The closing quote. -/
lemma delivers_scanStringCase_return_iff {c : UInt8} {t : TokenType} :
    Delivers (scanStringCase c) l (.inr t) rest buffer ↔
      c = 34 ∧ t = .valueString ∧ l.input.pending = rest ∧ l.tokenBuffer = buffer := by
  have hinl : ∀ {x : Scan Unit}, ¬ Delivers (x >>= fun _ => pure (.inl () : Unit ⊕ TokenType)) l
      (.inr t) rest buffer := fun h => by simpa using (delivers_bind_pure_iff.mp h).1
  unfold scanStringCase
  split_ifs with h₁ h₂ h₃ h₄
  · rw [delivers_pure_iff, Sum.inr.injEq, eq_comm (a := t)]
    exact (and_iff_right h₁).symm
  · exact iff_of_false hinl fun h => h₁ h.1
  · exact iff_of_false not_delivers_fail fun h => h₁ h.1
  · exact iff_of_false hinl fun h => h₁ h.1
  · refine iff_of_false ?_ fun h => h₁ h.1
    cases followRanges c with
    | none => exact not_delivers_fail
    | some ranges => exact hinl

/-- A character of a string. -/
lemma delivers_scanStringBody_next_iff :
    Delivers scanStringBody l (.inl ()) rest buffer ↔
      ∃ s ch, Spells s ch ∧ l.input.pending = s ++ rest ∧
        l.tokenBuffer ++ String.utf8EncodeChar ch = buffer := by
  rw [scanStringBody, delivers_get_bind]
  cases hp : l.input.pending with
  | nil =>
    refine iff_of_false not_delivers_fail ?_
    rintro ⟨s, ch, h, hs, -⟩
    exact h.ne_nil (List.nil_eq_append_iff.mp hs).1
  | cons c t =>
    simp only [List.head?_cons, delivers_scanStringCase_next_iff, Lexer.pending_advance, hp,
      List.tail_cons, Lexer.tokenBuffer_advance]
    constructor
    · rintro ⟨s, ch, h, rfl, hb⟩
      exact ⟨c :: s, ch, h, rfl, hb⟩
    · rintro ⟨s, ch, h, heq, hb⟩
      cases s with
      | nil => exact absurd rfl h.ne_nil
      | cons d s =>
        obtain ⟨rfl, rfl⟩ := List.cons.inj heq
        exact ⟨s, ch, h, rfl, hb⟩

/-- The end of a string. -/
lemma delivers_scanStringBody_return_iff {t : TokenType} :
    Delivers scanStringBody l (.inr t) rest buffer ↔
      t = .valueString ∧ l.input.pending = 34 :: rest ∧ l.tokenBuffer = buffer := by
  rw [scanStringBody, delivers_get_bind]
  cases hp : l.input.pending with
  | nil => exact iff_of_false not_delivers_fail (by simp)
  | cons c s =>
    simp only [List.head?_cons, delivers_scanStringCase_return_iff, Lexer.pending_advance, hp,
      List.tail_cons, Lexer.tokenBuffer_advance, List.cons.injEq]
    exact ⟨fun ⟨h₁, h₂, h₃, h₄⟩ => ⟨h₂, ⟨h₁, h₃⟩, h₄⟩,
      fun ⟨h₂, ⟨h₁, h₃⟩, h₄⟩ => ⟨h₁, h₂, h₃, h₄⟩⟩

/-- The characters of a string, and its end.

**Proof sketch.** Forward by the rule for loops, and backward along what stands for the text. -/
lemma delivers_stringLoop_iff {t : TokenType} :
    Delivers (stringLoop.run ()) l t rest buffer ↔
      t = .valueString ∧ ∃ s cs, Body s cs ∧ l.input.pending = s ++ 34 :: rest ∧
        l.tokenBuffer ++ utf8 cs = buffer := by
  constructor
  · rintro ⟨l', h, rfl, rfl⟩
    revert h
    refine Loop.run_induction (R := fun _ l r => r = .ok t l' → t = .valueString ∧
      ∃ s cs, Body s cs ∧ l.input.pending = s ++ 34 :: l'.input.pending ∧
        l.tokenBuffer ++ utf8 cs = l'.tokenBuffer) ?_ ?_ ?_ () l
    · rintro b l t l' h ⟨⟩
      obtain ⟨ht, hp, hb⟩ := delivers_scanStringBody_return_iff.mp ⟨l', h, rfl, rfl⟩
      exact ⟨ht, [], [], .nil, hp, by simpa using hb⟩
    · rintro b l e l' h ⟨⟩
    · intro b l b' l'' r h ih hr
      obtain ⟨s, ch, hs, hp, hb⟩ := delivers_scanStringBody_next_iff.mp ⟨l'', h, rfl, rfl⟩
      obtain ⟨ht, s', cs, hs', hp', hb'⟩ := ih hr
      exact ⟨ht, s ++ s', ch :: cs, .cons hs hs', by rw [hp, hp', List.append_assoc],
        by rw [utf8_cons, ← List.append_assoc, hb, hb']⟩
  · rintro ⟨rfl, s, cs, hs, hp, hb⟩
    induction hs generalizing l with
    | nil =>
      obtain ⟨l', h, hrest⟩ := delivers_scanStringBody_return_iff.mpr
        ⟨rfl, hp, by simpa using hb⟩
      exact ⟨l', Loop.run_of_return h, hrest⟩
    | cons hs hs' ih =>
      rw [List.append_assoc] at hp
      obtain ⟨l', h, hp', hb'⟩ := delivers_scanStringBody_next_iff.mpr ⟨_, _, hs, hp, rfl⟩
      obtain ⟨l'', h', hrest⟩ := ih hp' (by rw [hb', List.append_assoc, ← utf8_cons, hb])
      exact ⟨l'', by rw [Loop.run_of_next h, h'], hrest⟩

/-- **Strings**: after the opening quote there is what stands for a text, and the closing quote. -/
lemma delivers_scanString_iff {t : TokenType} : Delivers scanString l t rest buffer ↔
    t = .valueString ∧ ∃ s cs, Body s cs ∧ l.input.pending = s ++ 34 :: rest ∧
      utf8 cs = buffer :=
  delivers_stringLoop_iff

end Nlohmann
