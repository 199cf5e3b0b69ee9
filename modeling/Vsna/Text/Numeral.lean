import Mathlib.Data.List.Basic
import Mathlib.Data.List.TakeWhile
import Mathlib.Tactic.IntervalCases

set_option relaxedAutoImplicit false
set_option autoImplicit false

/-!
# Byte strings and decimal numerals

A `std::string` is a list of bytes (`Text.Str`); string literals coerce to it. The module covers
the two conversions of the standard library between strings and integers in base ten:
`std::to_string` of a non-negative number (`Text.decimal`) and `std::stoi` (`Text.stoi`).

`std::stoi` is a prefix parser. It skips white space, reads an optional sign and as many digits
as there are, and ignores what follows; it fails if there is no digit, or if the value is not a
32-bit integer. `Text.scanInt` is this scan with the part it ignores, and `Text.IsNumeral` says
without reference to any scan what a numeral is.

## Main definitions

* `Text.Str`, `Text.isSpace`, `Text.isDigit` — byte strings and character classes.
* `Text.IsNumeral` — a string is a numeral, as a whole, with a given value.
* `Text.scanInt`, `Text.stoi`, `Text.decimal` — the conversions.

## Main results

* `Text.scanInt_eq_some_iff` — the scan finds the longest numeral prefix, and what is left.
* `Text.stoi_decimal` — `std::stoi` inverts `std::to_string`.
* `Text.decimal_canonical` — `std::to_string` gives digits without leading zeros.
-/

namespace Text

/-- A `std::string`: a list of bytes. -/
abbrev Str := List UInt8

/-- The bytes of an ASCII string. -/
def ascii (s : String) : Str := s.toList.map fun c => c.toNat.toUInt8

instance : Coe String Str := ⟨ascii⟩

/-- White space of the classic locale: blank, tab, newline, vertical tab, form feed, return. -/
def isSpace (b : UInt8) : Bool := b == 32 || (9 ≤ b && b ≤ 13)

/-- Decimal digits. -/
def isDigit (b : UInt8) : Bool := 48 ≤ b && b ≤ 57

/-- A digit is not white space. -/
lemma isSpace_eq_false_of_isDigit {b : UInt8} (h : isDigit b = true) : isSpace b = false := by
  simp only [isDigit, Bool.and_eq_true, decide_eq_true_eq, UInt8.le_iff_toNat_le,
    UInt8.reduceToNat] at h
  simp only [isSpace, Bool.or_eq_false_iff, beq_eq_false_iff_ne, ne_eq, Bool.and_eq_false_iff,
    decide_eq_false_iff_not, UInt8.le_iff_toNat_le, UInt8.reduceToNat, ← UInt8.toNat_inj]
  omega

/-! ## Digits and their values -/

/-- The number a list of digits denotes, most significant digit first. -/
def digitsVal (ds : Str) : ℕ := ds.foldl (fun v b => 10 * v + (b.toNat - 48)) 0

/-- The digits of a number, most significant first (`std::to_string`). -/
def decimal (n : ℕ) : Str := (Nat.toDigits 10 n).map fun c => c.toNat.toUInt8

/-- `std::to_string` of an integer. -/
def intToString : ℤ → Str
  | .ofNat n => decimal n
  | .negSucc n => "-" ++ decimal (n + 1)

/-- The byte of a digit character, as a number and as a digit. -/
lemma digitByte {c : Char} (h : c.isDigit = true) :
    c.toNat.toUInt8.toNat = c.toNat ∧ isDigit c.toNat.toUInt8 = true := by
  have hc : 48 ≤ c.toNat ∧ c.toNat ≤ 57 := by
    simpa [Char.isDigit, UInt32.le_iff_toNat_le] using h
  have hb : c.toNat.toUInt8.toNat = c.toNat := by
    rw [Nat.toUInt8, UInt8.toNat_ofNat']
    exact Nat.mod_eq_of_lt (by omega)
  refine ⟨hb, ?_⟩
  simp only [isDigit, Bool.and_eq_true, decide_eq_true_eq, UInt8.le_iff_toNat_le, hb,
    UInt8.reduceToNat]
  exact hc

/-- The numeral of a number is not empty. -/
lemma decimal_ne_nil (n : ℕ) : decimal n ≠ [] := by
  simp [decimal, Nat.toDigits_ne_nil]

/-- The numeral of a number consists of digits. -/
lemma isDigit_of_mem_decimal {n : ℕ} {b : UInt8} (h : b ∈ decimal n) : isDigit b = true := by
  obtain ⟨c, hc, rfl⟩ := List.mem_map.mp h
  exact (digitByte (Nat.isDigit_of_mem_toDigits (by omega) (by omega) hc)).2

/-- The numeral of a number denotes it. -/
@[simp] lemma digitsVal_decimal (n : ℕ) : digitsVal (decimal n) = n := by
  have hfold : digitsVal (decimal n) = Nat.ofDigitChars 10 (Nat.toDigits 10 n) 0 := by
    rw [digitsVal, decimal, List.foldl_map, Nat.ofDigitChars_eq_foldl]
    refine List.foldl_ext _ _ _ fun v c hc => ?_
    rw [(digitByte (Nat.isDigit_of_mem_toDigits (by omega) (by omega) hc)).1]
    rfl
  rw [hfold, Nat.ofDigitChars_ten_toDigits]

/-- The digits of a positive number do not begin with zero.

**Proof sketch.** Dropping the last digit of a number with several digits leaves the digits of a
smaller positive number, with the same first digit. -/
lemma head_toDigits_ne {n : ℕ} (hn : 0 < n) : (Nat.toDigits 10 n).head? ≠ some '0' := by
  induction n using Nat.strong_induction_on with
  | _ n ih =>
    rcases Nat.lt_or_ge n 10 with h | h
    · rw [Nat.toDigits_of_lt_base h]
      interval_cases n <;> decide
    · rw [Nat.toDigits_of_base_le (by omega) h,
        List.head?_append_of_ne_nil _ Nat.toDigits_ne_nil]
      exact ih (n / 10) (Nat.div_lt_self hn (by omega)) (Nat.div_pos h (by omega))

/-- Digits only, and no leading zero except in `"0"` itself. -/
structure Canonical (s : Str) : Prop where
  digits : ∀ b ∈ s, isDigit b = true
  nonempty : s ≠ []
  noLeadingZero : s.head? = some 48 → s = [48]

/-- **`std::to_string` gives canonical numerals.** -/
lemma decimal_canonical (n : ℕ) : Canonical (decimal n) := by
  refine ⟨fun b hb => isDigit_of_mem_decimal hb, decimal_ne_nil n, fun h => ?_⟩
  rcases Nat.eq_zero_or_pos n with rfl | hn
  · rfl
  · obtain ⟨c, hc, h48⟩ : ∃ c, (Nat.toDigits 10 n).head? = some c ∧ c.toNat.toUInt8 = 48 := by
      simpa [decimal, List.head?_map] using h
    have hdig := Nat.isDigit_of_mem_toDigits (b := 10) (by omega) (by omega)
      (List.mem_of_mem_head? hc)
    have h0 : c = '0' := Char.toNat_inj.mp (by rw [← (digitByte hdig).1, h48]; rfl)
    exact absurd (h0 ▸ hc) (head_toDigits_ne hn)

/-! ## Numerals with white space and sign -/

/-- An optional sign. -/
inductive Sign
  | none
  | plus
  | minus
  deriving DecidableEq

/-- The bytes of a sign. -/
def Sign.bytes : Sign → Str
  | .none => []
  | .plus => "+"
  | .minus => "-"

/-- The number with the sign applied to it. -/
def Sign.apply : Sign → ℕ → ℤ
  | .minus, n => -(n : ℤ)
  | _, n => n

/-- The whole of `s` is a numeral of value `v`: white space, an optional sign, then at least one
digit, and nothing else. -/
def IsNumeral (s : Str) (v : ℤ) : Prop :=
  ∃ (ws : Str) (sg : Sign) (ds : Str), s = ws ++ (sg.bytes ++ ds) ∧ (∀ b ∈ ws, isSpace b = true) ∧
    ds ≠ [] ∧ (∀ b ∈ ds, isDigit b = true) ∧ v = sg.apply (digitsVal ds)

/-- Split off an optional sign. -/
def takeSign : Str → Sign × Str
  | [] => (.none, [])
  | b :: s => if b = 43 then (.plus, s) else if b = 45 then (.minus, s) else (.none, b :: s)

/-- The longest numeral prefix of `s`: its value and what follows it, if there is one. -/
def scanInt (s : Str) : Option (ℤ × Str) :=
  let r := takeSign (s.dropWhile isSpace)
  if r.2.takeWhile isDigit = [] then none
  else some (r.1.apply (digitsVal (r.2.takeWhile isDigit)), r.2.dropWhile isDigit)

/-- The two ways in which `std::stoi` fails. -/
inductive StoiError
  | invalidArgument
  | outOfRange
  deriving DecidableEq

/-- `std::stoi` with its default arguments and a 32-bit `int`. -/
def stoi (s : Str) : Except StoiError ℤ :=
  match scanInt s with
  | none => .error .invalidArgument
  | some (v, _) => if -2 ^ 31 ≤ v ∧ v < 2 ^ 31 then .ok v else .error .outOfRange

/-- Splitting off the sign loses nothing. -/
lemma takeSign_bytes (s : Str) : (takeSign s).1.bytes ++ (takeSign s).2 = s := by
  cases s with
  | nil => rfl
  | cons b s =>
    rw [takeSign]
    split_ifs with h₁ h₂
    · subst h₁; rfl
    · subst h₂; rfl
    · rfl

/-- The sign in front of a digit is split off. -/
lemma takeSign_append (sg : Sign) {d : UInt8} {s : Str} (hd : isDigit d = true) :
    takeSign (sg.bytes ++ d :: s) = (sg, d :: s) := by
  have h₁ : d ≠ 43 := by rintro rfl; simp [isDigit] at hd
  have h₂ : d ≠ 45 := by rintro rfl; simp [isDigit] at hd
  cases sg with
  | none => simp [Sign.bytes, takeSign, h₁, h₂]
  | plus => rfl
  | minus => rfl

/-- Neither a sign nor a digit is white space. -/
lemma dropWhile_isSpace_sign (sg : Sign) {d : UInt8} {s : Str} (hd : isDigit d = true) :
    (sg.bytes ++ d :: s).dropWhile isSpace = sg.bytes ++ d :: s := by
  cases sg with
  | none => simp [Sign.bytes, isSpace_eq_false_of_isDigit hd]
  | plus => rfl
  | minus => rfl

/-- Digits followed by something that does not begin with a digit. -/
lemma span_isDigit {ds rest : Str} (hds : ∀ b ∈ ds, isDigit b = true)
    (hrest : ∀ b ∈ rest.head?, isDigit b = false) :
    (ds ++ rest).takeWhile isDigit = ds ∧ (ds ++ rest).dropWhile isDigit = rest := by
  rw [List.takeWhile_append_of_pos hds, List.dropWhile_append_of_pos hds]
  cases rest with
  | nil => simp
  | cons b rest => simp [hrest b (by simp)]

/-- **The scan finds the longest numeral prefix**, and hands back what follows it.

**Proof sketch.** From left to right, cut the string as the scan does: the white space in front,
the sign, the digits; what is left does not begin with a digit. From right to left, each of the
three cuts finds the part of the numeral it looks for, since the parts begin with different
bytes. -/
theorem scanInt_eq_some_iff {s : Str} {v : ℤ} {rest : Str} :
    scanInt s = some (v, rest) ↔
      ∃ p, s = p ++ rest ∧ IsNumeral p v ∧ ∀ b ∈ rest.head?, isDigit b = false := by
  constructor
  · intro h
    unfold scanInt at h
    set r := takeSign (s.dropWhile isSpace) with hr
    simp only [] at h
    split_ifs at h with hds
    obtain ⟨rfl, rfl⟩ : r.1.apply (digitsVal (r.2.takeWhile isDigit)) = v ∧
        r.2.dropWhile isDigit = rest := by simpa using h
    refine ⟨s.takeWhile isSpace ++ (r.1.bytes ++ r.2.takeWhile isDigit), ?_,
      ⟨_, _, _, rfl, fun b hb => List.mem_takeWhile_imp hb, hds,
        fun b hb => List.mem_takeWhile_imp hb, rfl⟩, fun b hb => ?_⟩
    · rw [List.append_assoc, List.append_assoc, List.takeWhile_append_dropWhile, hr,
        takeSign_bytes, List.takeWhile_append_dropWhile]
    · have := List.head?_dropWhile_not isDigit r.2
      rw [Option.mem_def.mp hb] at this
      simpa using this
  · rintro ⟨p, rfl, ⟨ws, sg, ds, rfl, hws, hne, hds, rfl⟩, hrest⟩
    obtain ⟨d, ds, rfl⟩ := List.exists_cons_of_ne_nil hne
    have hd : isDigit d = true := hds d (by simp)
    have hr : takeSign (((ws ++ (sg.bytes ++ d :: ds)) ++ rest).dropWhile isSpace) =
        (sg, (d :: ds) ++ rest) := by
      rw [List.append_assoc, List.dropWhile_append_of_pos hws, List.append_assoc,
        List.cons_append, dropWhile_isSpace_sign sg hd, takeSign_append sg hd]
    obtain ⟨htake, hdrop⟩ := span_isDigit hds hrest
    simp only [scanInt, hr, htake, hdrop, if_neg hne]

/-- A numeral is scanned as a whole. -/
lemma IsNumeral.scanInt {s : Str} {v : ℤ} (h : IsNumeral s v) : scanInt s = some (v, []) :=
  scanInt_eq_some_iff.mpr ⟨s, by simp, h, by simp⟩

/-- The scan of a numeral finds its value. -/
lemma IsNumeral.eq_of_scanInt {s rest : Str} {u v : ℤ} (hu : IsNumeral s u)
    (h : Text.scanInt s = some (v, rest)) : u = v := by
  have hs := hu.scanInt.symm.trans h
  simp only [Option.some.injEq, Prod.mk.injEq] at hs
  exact hs.1

/-- A string whose scan finds a number begins with a numeral of it. -/
lemma exists_isNumeral_of_scanInt {s rest : Str} {v : ℤ} (h : Text.scanInt s = some (v, rest)) :
    ∃ p, p <+: s ∧ IsNumeral p v := by
  obtain ⟨p, hp, hnum, -⟩ := scanInt_eq_some_iff.mp h
  exact ⟨p, ⟨rest, hp.symm⟩, hnum⟩

/-- A string whose scan leaves nothing over is a numeral. -/
lemma isNumeral_of_scanInt {s : Str} {v : ℤ} (h : scanInt s = some (v, [])) : IsNumeral s v := by
  obtain ⟨p, hp, hn, -⟩ := scanInt_eq_some_iff.mp h
  rw [List.append_nil] at hp
  exact hp ▸ hn

/-- A string of digits is a numeral. -/
lemma isNumeral_of_digits {ds : Str} (hne : ds ≠ []) (hds : ∀ b ∈ ds, isDigit b = true) :
    IsNumeral ds (digitsVal ds) :=
  ⟨[], .none, ds, rfl, by simp, hne, hds, rfl⟩

/-- The numeral of a number is one, of that value. -/
lemma isNumeral_decimal (n : ℕ) : IsNumeral (decimal n) n := by
  have h := isNumeral_of_digits (decimal_ne_nil n) fun b hb => isDigit_of_mem_decimal hb
  rwa [digitsVal_decimal] at h

/-- **`std::stoi` inverts `std::to_string`** on 32-bit integers. -/
lemma stoi_decimal {n : ℕ} (hn : n < 2 ^ 31) : stoi (decimal n) = .ok n := by
  rw [stoi, (isNumeral_decimal n).scanInt]
  exact if_pos (by omega)

end Text
