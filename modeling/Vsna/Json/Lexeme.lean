import Vsna.Json.Lexer
import Vsna.Text.Utf8

set_option relaxedAutoImplicit false
set_option autoImplicit false

/-!
# The lexemes of JSON

What a token looks like in a text, without reference to any scan: literals, strings with their
escapes, and numerals. A string token carries the text that it spells, in UTF-8, and a number
carries its numeral.

## Main definitions

* `Nlohmann.CodeUnits`, `Nlohmann.Spells`, `Nlohmann.Body` — what stands for a character, and for a
  text, in a string.
* `Nlohmann.Numeral` — numerals.
* `Nlohmann.Token`, `Nlohmann.Lexeme` — tokens, and what they look like.
* `Nlohmann.Lexes` — a text begins with a token.

## Main results

* `Nlohmann.numeral_iff` — numerals in terms of the states of `scan_number`.
* `Nlohmann.NumberState.lang_cons_iff`, `Nlohmann.NumberState.lang_nil_iff` — how a state goes on.
-/

namespace Nlohmann

open Text

/-! ## Strings -/

/-- Four hexadecimal digits, and their value. -/
def Hex4 (s : Str) (n : ℕ) : Prop :=
  ∃ a b c d x y z w, s = [a, b, c, d] ∧ hexDigit a = some x ∧ hexDigit b = some y ∧
    hexDigit c = some z ∧ hexDigit d = some w ∧ n = 0x1000 * x + 0x100 * y + 0x10 * z + w

/-- The escapes of one character, and what they stand for. -/
def escapes : List (UInt8 × Char) :=
  [(34, '"'), (92, '\\'), (47, '/'), (98, '\x08'), (102, '\x0c'), (110, '\n'), (114, '\r'),
    (116, '\t')]

/-- The digits of the code unit of a character, or of its two surrogates with an escape between
them. -/
inductive CodeUnits : Str → Char → Prop
  | one {s : Str} {c : Char} : Hex4 s c.toNat → CodeUnits s c
  | two {s t : Str} {hi lo : ℕ} {c : Char} : Hex4 s hi → Hex4 t lo →
      0xD800 ≤ hi → hi ≤ 0xDBFF → 0xDC00 ≤ lo → lo ≤ 0xDFFF →
      c.toNat = 0x10000 + 0x400 * (hi - 0xD800) + (lo - 0xDC00) →
      CodeUnits (s ++ ("\\u" ++ t)) c

/-- What stands for a character in a string. -/
inductive Spells : Str → Char → Prop
  | plain {c : Char} : 0x20 ≤ c.toNat → c ≠ '"' → c ≠ '\\' → Spells (String.utf8EncodeChar c) c
  | escape {e : UInt8} {c : Char} : (e, c) ∈ escapes → Spells ("\\" ++ [e]) c
  | unicode {s : Str} {c : Char} : CodeUnits s c → Spells ("\\u" ++ s) c

/-- What stands for a text in a string. -/
inductive Body : Str → List Char → Prop
  | nil : Body [] []
  | cons {s t : Str} {c : Char} {cs : List Char} : Spells s c → Body t cs →
      Body (s ++ t) (c :: cs)

/-! ## How a character begins -/

/-- A character of one byte is this byte. -/
lemma utf8EncodeChar_eq_cons_iff {ch : Char} {c : UInt8} {s : Str} :
    String.utf8EncodeChar ch = c :: s ↔
      ch.toNat = c.toNat ∧ c < 0x80 ∧ s = [] ∨
        0x80 ≤ ch.toNat ∧ String.utf8EncodeChar ch = c :: s ∧ 0xC2 ≤ c := by
  constructor
  · intro h
    rcases Nat.lt_or_ge ch.toNat 0x80 with hlt | hge
    · rw [utf8EncodeChar_of_lt hlt] at h
      obtain ⟨rfl, rfl⟩ := List.cons.inj h
      have hval : (UInt8.ofNat ch.toNat).toNat = ch.toNat := by
        rw [UInt8.toNat_ofNat', Nat.mod_eq_of_lt (by omega)]
      exact .inl ⟨hval.symm, by rw [UInt8.lt_iff_toNat_lt, hval]; exact hlt, rfl⟩
    · exact .inr ⟨hge, h, (multiByte_iff.mpr ⟨ch, hge, h⟩).le_head⟩
  · rintro (⟨hval, hlt, rfl⟩ | ⟨-, h, -⟩)
    · rw [UInt8.lt_iff_toNat_lt] at hlt
      rw [utf8EncodeChar_of_lt (hval ▸ hlt), hval, UInt8.ofNat_toNat]
    · exact h

/-- Nothing stands for no character. -/
lemma Spells.ne_nil {ch : Char} {s : Str} (h : Spells s ch) : s ≠ [] := by
  cases h with
  | plain => exact utf8EncodeChar_ne_nil _
  | escape => simp [ascii]
  | unicode => simp [ascii]

/-- After a backslash there is an escape. -/
lemma spells_backslash_iff {ch : Char} {s : Str} : Spells (92 :: s) ch ↔
    (∃ e, s = [e] ∧ (e, ch) ∈ escapes) ∨ ∃ t, s = 117 :: t ∧ CodeUnits t ch := by
  constructor
  · intro h
    generalize heq : 92 :: s = text at h
    cases h with
    | plain hch hquote hslash =>
      rcases utf8EncodeChar_eq_cons_iff.mp heq.symm with ⟨hval, -, -⟩ | ⟨-, -, hle⟩
      · exact absurd (Char.toNat_inj.mp hval) hslash
      · exact absurd hle (by decide)
    | escape he => exact .inl ⟨_, (List.cons.inj heq).2, he⟩
    | unicode ht => exact .inr ⟨_, (List.cons.inj heq).2, ht⟩
  · rintro (⟨e, rfl, he⟩ | ⟨t, rfl, ht⟩)
    · exact .escape he
    · exact .unicode ht

/-- Without a backslash there is the character itself. -/
lemma spells_cons_iff {ch : Char} {c : UInt8} {s : Str} (hc : c ≠ 92) :
    Spells (c :: s) ch ↔ c ≠ 34 ∧ 0x20 ≤ c ∧ String.utf8EncodeChar ch = c :: s := by
  constructor
  · intro h
    generalize heq : c :: s = text at h
    cases h with
    | plain hch hquote hslash =>
      rcases utf8EncodeChar_eq_cons_iff.mp heq.symm with ⟨hval, -, -⟩ | ⟨-, -, hle⟩
      · refine ⟨?_, ?_, rfl⟩
        · rintro rfl
          exact hquote (Char.toNat_inj.mp hval)
        · rw [UInt8.le_iff_toNat_le, ← hval]
          exact hch
      · refine ⟨?_, ?_, rfl⟩
        · rintro rfl
          exact absurd hle (by decide)
        · exact UInt8.le_trans (by decide) hle
    | escape he => exact absurd (List.cons.inj heq).1 hc
    | unicode ht => exact absurd (List.cons.inj heq).1 hc
  · rintro ⟨hquote, hle, heq⟩
    rw [← heq]
    rcases utf8EncodeChar_eq_cons_iff.mp heq with ⟨hval, -, -⟩ | ⟨hge, -, -⟩
    · refine .plain ?_ ?_ ?_
      · rw [hval]
        exact UInt8.le_iff_toNat_le.mp hle
      · rintro rfl
        exact hquote (UInt8.toNat_inj.mp hval.symm)
      · rintro rfl
        exact hc (UInt8.toNat_inj.mp hval.symm)
    · refine .plain (by omega) ?_ ?_
      all_goals
        rintro rfl
        exact absurd hge (by decide)

/-! ## Numerals -/

/-- One or more digits. -/
def Digits (s : Str) : Prop := s ≠ [] ∧ ∀ b ∈ s, isDigit b = true

/-- A fraction, or none. -/
inductive Fraction : Str → Prop
  | none : Fraction []
  | digits {s : Str} : Digits s → Fraction (46 :: s)

/-- A letter that begins an exponent. -/
def IsE (e : UInt8) : Prop := e = 101 ∨ e = 69

/-- A sign of an exponent. -/
def IsSign (g : UInt8) : Prop := g = 43 ∨ g = 45

/-- An exponent, or none. -/
inductive Exponent : Str → Prop
  | none : Exponent []
  | plain {e : UInt8} {s : Str} : IsE e → Digits s → Exponent (e :: s)
  | signed {e g : UInt8} {s : Str} : IsE e → IsSign g → Digits s → Exponent (e :: g :: s)

/-- A numeral: an optional sign, digits without a leading zero, and perhaps a fraction and an
exponent. -/
def Numeral (s : Str) : Prop :=
  ∃ sign int frac exp, (sign = [] ∨ sign = "-") ∧ Canonical int ∧ Fraction frac ∧
    Exponent exp ∧ s = sign ++ (int ++ (frac ++ exp))

/-- Digits, if any, and then something else. -/
def DigitsThen (P : Str → Prop) (s : Str) : Prop :=
  ∃ ds t, (∀ b ∈ ds, isDigit b = true) ∧ P t ∧ s = ds ++ t

/-- What may follow the integer part of a numeral. -/
def AfterInt (s : Str) : Prop := ∃ frac exp, Fraction frac ∧ Exponent exp ∧ s = frac ++ exp

/-- What may follow the letter of an exponent. -/
def AfterE (s : Str) : Prop := Digits s ∨ ∃ g ds, IsSign g ∧ Digits ds ∧ s = g :: ds

/-- What may follow in a numeral, by the state of `scan_number`. -/
def NumberState.Lang : NumberState → Str → Prop
  | .minus, s => ∃ int t, Canonical int ∧ AfterInt t ∧ s = int ++ t
  | .zero, s => AfterInt s
  | .any1, s => DigitsThen AfterInt s
  | .decimal1, s => ∃ ds t, Digits ds ∧ Exponent t ∧ s = ds ++ t
  | .decimal2, s => DigitsThen Exponent s
  | .exponent, s => AfterE s
  | .sign, s => Digits s
  | .any2, s => ∀ b ∈ s, isDigit b = true

/-- A numeral is an optional sign, and what may follow it. -/
lemma numeral_iff {s : Str} :
    Numeral s ↔ NumberState.minus.Lang s ∨ ∃ t, s = 45 :: t ∧ NumberState.minus.Lang t := by
  constructor
  · rintro ⟨sign, int, frac, exp, rfl | rfl, hint, hfrac, hexp, rfl⟩
    · exact .inl ⟨int, frac ++ exp, hint, ⟨frac, exp, hfrac, hexp, rfl⟩, rfl⟩
    · exact .inr ⟨_, rfl, int, frac ++ exp, hint, ⟨frac, exp, hfrac, hexp, rfl⟩, rfl⟩
  · rintro (⟨int, -, hint, ⟨frac, exp, hfrac, hexp, rfl⟩, rfl⟩ |
      ⟨-, rfl, int, -, hint, ⟨frac, exp, hfrac, hexp, rfl⟩, rfl⟩)
    · exact ⟨[], int, frac, exp, .inl rfl, hint, hfrac, hexp, rfl⟩
    · exact ⟨"-", int, frac, exp, .inr rfl, hint, hfrac, hexp, rfl⟩

/-! ## How a numeral begins -/

variable {P : Str → Prop} {c : UInt8} {s : Str}

/-- An exponent begins with its letter. -/
lemma exponent_cons_iff : Exponent (c :: s) ↔ IsE c ∧ AfterE s := by
  constructor
  · rintro (_ | ⟨he, hs⟩ | ⟨he, hg, hs⟩)
    · exact ⟨he, .inl hs⟩
    · exact ⟨he, .inr ⟨_, _, hg, hs, rfl⟩⟩
  · rintro ⟨he, hs | ⟨g, ds, hg, hs, rfl⟩⟩
    · exact .plain he hs
    · exact .signed he hg hs

/-- One or more digits begin with a digit. -/
lemma digits_cons_iff : Digits (c :: s) ↔ isDigit c = true ∧ ∀ b ∈ s, isDigit b = true := by
  simp [Digits]

/-- Digits, if any, begin with a digit. -/
lemma digitsThen_cons_iff :
    DigitsThen P (c :: s) ↔ isDigit c = true ∧ DigitsThen P s ∨ P (c :: s) := by
  constructor
  · rintro ⟨ds, t, hds, ht, heq⟩
    cases ds with
    | nil =>
      rw [List.nil_append] at heq
      exact .inr (heq ▸ ht)
    | cons d ds =>
      obtain ⟨rfl, rfl⟩ := List.cons.inj heq
      rw [List.forall_mem_cons] at hds
      exact .inl ⟨hds.1, ds, t, hds.2, ht, rfl⟩
  · rintro (⟨hc, ds, t, hds, ht, rfl⟩ | h)
    · exact ⟨c :: ds, t, List.forall_mem_cons.mpr ⟨hc, hds⟩, ht, rfl⟩
    · exact ⟨[], c :: s, by simp, h, rfl⟩

/-- Digits, if any, may be none. -/
lemma digitsThen_nil_iff : DigitsThen P [] ↔ P [] := by
  constructor
  · rintro ⟨ds, t, -, ht, heq⟩
    obtain ⟨rfl, rfl⟩ := List.nil_eq_append_iff.mp heq
    exact ht
  · exact fun h => ⟨[], [], by simp, h, rfl⟩

/-- One or more digits, and then something else, begin with a digit. -/
lemma someDigitsThen_cons_iff : (∃ ds t, Digits ds ∧ P t ∧ c :: s = ds ++ t) ↔
    isDigit c = true ∧ DigitsThen P s := by
  constructor
  · rintro ⟨ds, t, hds, ht, heq⟩
    cases ds with
    | nil => exact absurd rfl hds.1
    | cons d ds =>
      obtain ⟨rfl, rfl⟩ := List.cons.inj heq
      rw [digits_cons_iff] at hds
      exact ⟨hds.1, ds, t, hds.2, ht, rfl⟩
  · rintro ⟨hc, ds, t, hds, ht, rfl⟩
    exact ⟨c :: ds, t, digits_cons_iff.mpr ⟨hc, hds⟩, ht, rfl⟩

/-- After the integer part there may be a point or the letter of an exponent. -/
lemma afterInt_cons_iff : AfterInt (c :: s) ↔
    c = 46 ∧ (∃ ds t, Digits ds ∧ Exponent t ∧ s = ds ++ t) ∨ IsE c ∧ AfterE s := by
  rw [← exponent_cons_iff]
  constructor
  · rintro ⟨frac, exp, hfrac, hexp, heq⟩
    cases hfrac with
    | none =>
      rw [List.nil_append] at heq
      exact .inr (heq ▸ hexp)
    | digits hs =>
      obtain ⟨rfl, rfl⟩ := List.cons.inj heq
      exact .inl ⟨rfl, _, exp, hs, hexp, rfl⟩
  · rintro (⟨rfl, ds, t, hds, ht, rfl⟩ | h)
    · exact ⟨46 :: ds, t, .digits hds, ht, rfl⟩
    · exact ⟨[], c :: s, .none, h, rfl⟩

/-- A digit, and not `0`. -/
lemma isNonzeroDigit_iff : isNonzeroDigit c = true ↔ isDigit c = true ∧ c ≠ 48 := by
  simp only [isNonzeroDigit, isDigit, Bool.and_eq_true, decide_eq_true_eq,
    UInt8.le_iff_toNat_le, ← UInt8.toNat_inj, UInt8.reduceToNat, ne_eq]
  omega

/-- A digit is no other character of a numeral. -/
lemma ne_of_isDigit (h : isDigit c = true) : c ≠ 46 ∧ ¬ IsE c ∧ ¬ IsSign c := by
  simp only [isDigit, Bool.and_eq_true, decide_eq_true_eq, UInt8.le_iff_toNat_le,
    UInt8.reduceToNat] at h
  simp only [IsE, IsSign, ← UInt8.toNat_inj, UInt8.reduceToNat, ne_eq]
  omega

/-- A canonical integer is zero, or begins with another digit. -/
lemma canonical_cons_iff : Canonical (c :: s) ↔
    c = 48 ∧ s = [] ∨ isNonzeroDigit c = true ∧ ∀ b ∈ s, isDigit b = true := by
  constructor
  · rintro ⟨hdigits, -, hzero⟩
    rw [List.forall_mem_cons] at hdigits
    by_cases hc : c = 48
    · subst hc
      exact .inl ⟨rfl, (List.cons.inj (hzero rfl)).2⟩
    · exact .inr ⟨isNonzeroDigit_iff.mpr ⟨hdigits.1, hc⟩, hdigits.2⟩
  · rintro (⟨rfl, rfl⟩ | ⟨hc, hs⟩)
    · exact ⟨List.forall_mem_singleton.mpr rfl, by simp, fun _ => rfl⟩
    · obtain ⟨hdigit, hne⟩ := isNonzeroDigit_iff.mp hc
      exact ⟨List.forall_mem_cons.mpr ⟨hdigit, hs⟩, by simp, fun h => absurd (by simpa using h) hne⟩

/-- The integer part of a numeral begins with a digit. -/
lemma lang_minus_cons_iff : NumberState.minus.Lang (c :: s) ↔
    c = 48 ∧ AfterInt s ∨ isNonzeroDigit c = true ∧ DigitsThen AfterInt s := by
  constructor
  · rintro ⟨int, t, hint, ht, heq⟩
    cases int with
    | nil => exact absurd rfl hint.nonempty
    | cons d ds =>
      obtain ⟨rfl, rfl⟩ := List.cons.inj heq
      rcases canonical_cons_iff.mp hint with ⟨rfl, rfl⟩ | ⟨hc, hds⟩
      · exact .inl ⟨rfl, ht⟩
      · exact .inr ⟨hc, ds, t, hds, ht, rfl⟩
  · rintro (⟨rfl, h⟩ | ⟨hc, ds, t, hds, ht, rfl⟩)
    · exact ⟨[48], s, canonical_cons_iff.mpr (.inl ⟨rfl, rfl⟩), h, rfl⟩
    · exact ⟨c :: ds, t, canonical_cons_iff.mpr (.inr ⟨hc, hds⟩), ht, rfl⟩

/-- How the rest after the letter of the exponent begins. -/
lemma afterE_cons_iff : AfterE (c :: s) ↔
    isDigit c = true ∧ (∀ b ∈ s, isDigit b = true) ∨ IsSign c ∧ Digits s := by
  simp only [AfterE, digits_cons_iff, List.cons.injEq]
  constructor
  · rintro (h | ⟨g, ds, hg, hds, rfl, rfl⟩)
    · exact .inl h
    · exact .inr ⟨hg, hds⟩
  · rintro (h | ⟨hg, hds⟩)
    · exact .inl h
    · exact .inr ⟨c, s, hg, hds, rfl, rfl⟩

/-- **How a state goes on**: a character that may follow leads to a state in which the rest may
follow. -/
lemma NumberState.lang_cons_iff {q : NumberState} :
    q.Lang (c :: s) ↔ ∃ q', q.next (some c) = .ok (some q') ∧ q'.Lang s := by
  cases q with
  | minus =>
    rw [lang_minus_cons_iff]
    simp only [next, Option.any_some, Option.some.injEq]
    split_ifs with h₁ h₂
    · subst h₁
      simp [Lang, isNonzeroDigit]
    · simp [Lang, h₁, h₂]
    · simp [h₁, h₂]
  | zero =>
    change AfterInt (c :: s) ↔ _
    rw [afterInt_cons_iff]
    simp only [next, Option.some.injEq]
    split_ifs with h₁ h₂
    · subst h₁
      simp [Lang, IsE]
    · simp [Lang, h₁, show IsE c from h₂]
    · simp [h₁, show ¬ IsE c from h₂]
  | any1 =>
    change DigitsThen AfterInt (c :: s) ↔ _
    rw [digitsThen_cons_iff, afterInt_cons_iff]
    simp only [next, Option.any_some, Option.some.injEq]
    split_ifs with h₁ h₂ h₃
    · obtain ⟨h₄, h₅, -⟩ := ne_of_isDigit h₁
      simp [Lang, h₁, h₄, h₅]
    · subst h₂
      simp [Lang, h₁, IsE]
    · simp [Lang, h₁, h₂, show IsE c from h₃]
    · simp [h₁, h₂, show ¬ IsE c from h₃]
  | decimal1 =>
    change (∃ ds t, Digits ds ∧ Exponent t ∧ c :: s = ds ++ t) ↔ _
    rw [someDigitsThen_cons_iff]
    simp only [next, Option.any_some]
    split_ifs with h₁
    · simp [Lang, h₁]
    · simp [h₁]
  | decimal2 =>
    change DigitsThen Exponent (c :: s) ↔ _
    rw [digitsThen_cons_iff, exponent_cons_iff]
    simp only [next, Option.any_some, Option.some.injEq]
    split_ifs with h₁ h₂
    · simp [Lang, h₁, (ne_of_isDigit h₁).2.1]
    · simp [Lang, h₁, show IsE c from h₂]
    · simp [h₁, show ¬ IsE c from h₂]
  | exponent =>
    change AfterE (c :: s) ↔ _
    rw [afterE_cons_iff]
    simp only [next, Option.any_some, Option.some.injEq]
    split_ifs with h₁ h₂
    · have hdigit : ¬ isDigit c = true := fun h => (ne_of_isDigit h).2.2 h₁
      simp [Lang, hdigit, show IsSign c from h₁]
    · simp [Lang, h₂, show ¬ IsSign c from h₁]
    · simp [h₂, show ¬ IsSign c from h₁]
  | sign =>
    change Digits (c :: s) ↔ _
    rw [digits_cons_iff]
    simp only [next, Option.any_some]
    split_ifs with h₁
    · simp [Lang, h₁]
    · simp [h₁]
  | any2 =>
    change (∀ b ∈ c :: s, isDigit b = true) ↔ _
    rw [List.forall_mem_cons]
    simp only [next, Option.any_some]
    split_ifs with h₁
    · simp [Lang, h₁]
    · simp [h₁]

/-- A state in which a numeral may end. -/
lemma NumberState.lang_nil_iff {q : NumberState} : q.Lang [] ↔ q.next none = .ok none := by
  have hint : AfterInt [] := ⟨[], [], .none, .none, rfl⟩
  cases q with
  | minus =>
    refine iff_of_false ?_ (by simp [next])
    rintro ⟨int, t, hcanonical, -, heq⟩
    exact hcanonical.nonempty (List.nil_eq_append_iff.mp heq).1
  | zero => exact iff_of_true hint rfl
  | any1 => exact iff_of_true (digitsThen_nil_iff.mpr hint) rfl
  | decimal1 =>
    refine iff_of_false ?_ (by simp [next])
    rintro ⟨ds, t, hds, -, heq⟩
    exact hds.1 (List.nil_eq_append_iff.mp heq).1
  | decimal2 => exact iff_of_true (digitsThen_nil_iff.mpr .none) rfl
  | exponent =>
    refine iff_of_false ?_ (by simp [next])
    rintro (h | ⟨g, ds, -, -, heq⟩)
    · exact h.1 rfl
    · exact absurd heq (by simp)
  | sign => exact iff_of_false (fun h => h.1 rfl) (by simp [next])
  | any2 => exact iff_of_true (by simp [Lang]) rfl

/-- Where a numeral may end, no character is an error. -/
lemma NumberState.next_ne_error {q : NumberState} (h : q.next none = .ok none)
    (o : Option UInt8) (message : Str) : q.next o ≠ .error message := by
  cases q with
  | minus | decimal1 | exponent | sign => simp [next] at h
  | zero | any1 | decimal2 | any2 =>
    simp only [next]
    split_ifs <;> simp

/-- Where a numeral ends before a character, it may end. -/
lemma NumberState.next_none_of_next {q : NumberState} {o : Option UInt8}
    (h : q.next o = .ok none) : q.next none = .ok none := by
  cases q with
  | minus | decimal1 | exponent | sign =>
    simp only [next] at h
    split_ifs at h <;> simp at h
  | zero | any1 | decimal2 | any2 => rfl

/-- In every state a numeral can be completed. -/
lemma NumberState.exists_lang (q : NumberState) : ∃ s, q.Lang s := by
  have hint : AfterInt [] := ⟨[], [], .none, .none, rfl⟩
  have hdigit : Digits [48] := ⟨by simp, List.forall_mem_singleton.mpr rfl⟩
  cases q with
  | minus => exact ⟨[48], [48], [], canonical_cons_iff.mpr (.inl ⟨rfl, rfl⟩), hint, rfl⟩
  | zero => exact ⟨[], hint⟩
  | any1 => exact ⟨[], digitsThen_nil_iff.mpr hint⟩
  | decimal1 => exact ⟨[48], [48], [], hdigit, .none, rfl⟩
  | decimal2 => exact ⟨[], digitsThen_nil_iff.mpr .none⟩
  | exponent => exact ⟨[48], .inl hdigit⟩
  | sign => exact ⟨[48], hdigit⟩
  | any2 => exact ⟨[], by simp [Lang]⟩

/-- Where a numeral may end, it ends before every character with which it does not go on. -/
lemma NumberState.next_eq_ok_none_iff {q : NumberState} {s : Str} :
    q.next s.head? = .ok none ↔
      q.Lang [] ∧ ∀ c t w, s = c :: t → ¬ q.Lang (c :: w) := by
  cases s with
  | nil => simp [lang_nil_iff]
  | cons c t =>
    rw [List.head?_cons]
    constructor
    · intro h
      refine ⟨lang_nil_iff.mpr (next_none_of_next h), ?_⟩
      rintro c' t' w heq hlang
      obtain ⟨rfl, rfl⟩ := List.cons.inj heq
      obtain ⟨q', hq', -⟩ := lang_cons_iff.mp hlang
      exact absurd (h.symm.trans hq') (by simp)
    · rintro ⟨hnil, hstop⟩
      rw [lang_nil_iff] at hnil
      cases hq : q.next (some c) with
      | error message =>
        exact absurd hq (next_ne_error hnil _ message)
      | ok o =>
        cases o with
        | none => rfl
        | some q' =>
          obtain ⟨w, hw⟩ := q'.exists_lang
          exact absurd (lang_cons_iff.mpr ⟨q', hq, hw⟩) (hstop c t w rfl)

/-! ## Tokens -/

/-- A token, with what it says. -/
inductive Token
  | beginArray
  | endArray
  | beginObject
  | endObject
  | nameSeparator
  | valueSeparator
  | literalTrue
  | literalFalse
  | literalNull
  | string (s : Str)
  | number (numeral : Str)
  deriving DecidableEq

/-- The tokens that always look the same. -/
def fixedLexemes : List (Str × Token) :=
  [("[", .beginArray), ("]", .endArray), ("\x7b", .beginObject), ("\x7d", .endObject),
    (":", .nameSeparator), (",", .valueSeparator), ("true", .literalTrue),
    ("false", .literalFalse), ("null", .literalNull)]

/-- What a token looks like. -/
inductive Lexeme : Str → Token → Prop
  | fixed {s : Str} {t : Token} : (s, t) ∈ fixedLexemes → Lexeme s t
  | string {s : Str} {cs : List Char} : Body s cs → Lexeme ("\"" ++ (s ++ "\"")) (.string (utf8 cs))
  | number {s : Str} : Numeral s → Lexeme s (.number s)

/-- The numeral does not go on in the text after it. -/
def Ends (numeral rest : Str) : Prop :=
  ∀ c s w, rest = c :: s → ¬ Numeral (numeral ++ c :: w)

/-- After white space, the text begins with a token. A number is as long as possible. -/
def Lexes (text : Str) (t : Token) (rest : Str) : Prop :=
  ∃ blanks s, (∀ b ∈ blanks, isBlank b = true) ∧ Lexeme s t ∧ (t = .number s → Ends s rest) ∧
    text = blanks ++ (s ++ rest)

end Nlohmann
