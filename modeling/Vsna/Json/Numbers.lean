import Vsna.Json.Strings

set_option relaxedAutoImplicit false
set_option autoImplicit false

/-!
# The scan of a number

`scan_number` succeeds exactly if the input begins with a numeral, and takes it as far as it goes.
A number that fits an integer type does not overflow as a float.

## Main definitions

* `Nlohmann.Typed` — what the type of the number says about the characters so far.
* `Nlohmann.TokenType.token` — the token that has been read.
* `Nlohmann.startNumber` — the state in which a number begins.

## Main results

* `Nlohmann.exists_delivers_numberLoop_iff` — numerals, from a state of `scan_number`.
* `Nlohmann.fits_of_numberLoop` — an integer does not overflow.
* `Nlohmann.exists_delivers_scanNumber_iff` — numbers.
-/

namespace Nlohmann

open Text Automata

variable {l : Lexer} {rest buffer : Str}

/-! ## Numerals -/

/-- A number goes on with a character that leads to another state. -/
lemma scanNumberBody_eq_next_iff {v v' : NumberState × TokenType} {l' : Lexer} :
    scanNumberBody v l = .ok (.inl v') l' ↔
      ∃ c s q, l.input.pending = c :: s ∧ v.1.next (some c) = .ok (some q) ∧
        (q, q.retype v.2) = v' ∧ { l.advance with tokenBuffer := l.tokenBuffer ++ [c] } = l' := by
  rw [scanNumberBody_apply]
  cases hp : l.input.pending with
  | nil =>
    refine iff_of_false ?_ (by simp)
    cases hq : v.1.next none with
    | error message => simp [hq]
    | ok q =>
      cases q with
      | some q => exact absurd hq (NumberState.next_none _ _)
      | none => simp [hq]
  | cons c s =>
    cases hq : v.1.next (some c) with
    | error message =>
      simp only [List.head?_cons, hq]
      refine iff_of_false (by simp) ?_
      rintro ⟨c', s', q', heq, hq', -⟩
      obtain ⟨rfl, rfl⟩ := List.cons.inj heq
      simp [hq] at hq'
    | ok q =>
      cases q with
      | none =>
        simp only [List.head?_cons, hq]
        refine iff_of_false (by simp) ?_
        rintro ⟨c', s', q', heq, hq', -⟩
        obtain ⟨rfl, rfl⟩ := List.cons.inj heq
        simp [hq] at hq'
      | some q =>
        simp only [List.head?_cons, hq, Option.toList_some, EStateM.Result.ok.injEq,
          Sum.inl.injEq]
        constructor
        · rintro ⟨rfl, rfl⟩
          exact ⟨c, s, q, rfl, hq, rfl, rfl⟩
        · rintro ⟨c', s', q', heq, hq', rfl, rfl⟩
          obtain ⟨rfl, rfl⟩ := List.cons.inj heq
          obtain rfl := Option.some.inj (Except.ok.inj (hq.symm.trans hq'))
          exact ⟨rfl, rfl⟩

/-- A number ends before a character that does not belong to it. -/
lemma scanNumberBody_eq_return_iff {v : NumberState × TokenType} {t : TokenType} {l' : Lexer} :
    scanNumberBody v l = .ok (.inr t) l' ↔
      v.1.next l.input.pending.head? = .ok none ∧ convert v.2 l.tokenBuffer = t ∧
        l.advance.retreat = l' := by
  rw [scanNumberBody_apply]
  cases hq : v.1.next l.input.pending.head? with
  | error message => simp
  | ok q => cases q <;> simp

/-- Putting the character back. -/
@[simp] lemma Lexer.pending_retreat_advance (l : Lexer) :
    l.advance.retreat.input.pending = l.input.pending :=
  l.input.pending_retreat_advance

/-- A numeral, from a state of `scan_number`.

**Proof sketch.** Forward by the rule for loops, and backward along the numeral. -/
lemma exists_delivers_numberLoop_iff {q : NumberState} {type : TokenType} :
    (∃ t, Delivers (numberLoop.run (q, type)) l t rest buffer) ↔
      ∃ w, q.Lang w ∧ l.input.pending = w ++ rest ∧ l.tokenBuffer ++ w = buffer ∧
        ∀ c u v, rest = c :: u → ¬ q.Lang (w ++ c :: v) := by
  constructor
  · rintro ⟨t, l', h, rfl, rfl⟩
    revert h
    refine Loop.run_induction (R := fun v l r => r = .ok t l' → ∃ w, v.1.Lang w ∧
      l.input.pending = w ++ l'.input.pending ∧ l.tokenBuffer ++ w = l'.tokenBuffer ∧
      ∀ c u s, l'.input.pending = c :: u → ¬ v.1.Lang (w ++ c :: s)) ?_ ?_ ?_ (q, type) l
    · rintro v l t l' h ⟨⟩
      obtain ⟨hq, -, rfl⟩ := scanNumberBody_eq_return_iff.mp h
      obtain ⟨hnil, hends⟩ := NumberState.next_eq_ok_none_iff.mp hq
      refine ⟨[], hnil, (Lexer.pending_retreat_advance l).symm, List.append_nil _, ?_⟩
      rwa [Lexer.pending_retreat_advance]
    · rintro v l e l' h ⟨⟩
    · intro v l v' l'' r h ih hr
      obtain ⟨c, s, q, hp, hq, rfl, rfl⟩ := scanNumberBody_eq_next_iff.mp h
      obtain ⟨w, hw, hp', hb, hends⟩ := ih hr
      have hs : s = w ++ l'.input.pending := by simpa [hp] using hp'
      refine ⟨c :: w, NumberState.lang_cons_iff.mpr ⟨q, hq, hw⟩, by rw [hp, hs]; rfl,
        by simpa using hb, fun d u s hrest hlang => ?_⟩
      obtain ⟨q', hq', hlang⟩ := NumberState.lang_cons_iff.mp hlang
      obtain rfl := Option.some.inj (Except.ok.inj (hq.symm.trans hq'))
      exact hends d u s hrest hlang
  · rintro ⟨w, hw, hp, hb, hends⟩
    induction w generalizing q type l with
    | nil =>
      have hq : q.next l.input.pending.head? = .ok none := by
        rw [hp]
        exact NumberState.next_eq_ok_none_iff.mpr ⟨hw, hends⟩
      exact ⟨_, _, Loop.run_of_return (scanNumberBody_eq_return_iff.mpr ⟨hq, rfl, rfl⟩),
        by rw [Lexer.pending_retreat_advance, hp]; rfl, by rw [← hb, List.append_nil]; rfl⟩
    | cons c w ih =>
      obtain ⟨q', hq, hw⟩ := NumberState.lang_cons_iff.mp hw
      have hbody := (scanNumberBody_eq_next_iff (v := (q, type))).mpr
        ⟨c, w ++ rest, q', hp, hq, rfl, rfl⟩
      obtain ⟨t, l', h, hrest⟩ := @ih { l.advance with tokenBuffer := l.tokenBuffer ++ [c] } q'
        (q'.retype type) hw (by simp [hp]) (by rw [← hb]; simp) fun d u v hr hlang =>
          hends d u v hr (NumberState.lang_cons_iff.mpr ⟨q', hq, hlang⟩)
      exact ⟨t, l', by rw [Loop.run_of_next hbody, h], hrest⟩

/-- The digits of the buffer, and the type of the number, by the state. -/
def Typed : NumberState → TokenType → Str → Prop
  | .minus, type, s => type = .valueInteger ∧ s = [45]
  | .zero, type, s | .any1, type, s =>
    (type = .valueUnsigned ∧ ∀ b ∈ s, isDigit b = true) ∨
      (type = .valueInteger ∧ ∃ ds, s = 45 :: ds ∧ ∀ b ∈ ds, isDigit b = true)
  | _, type, _ => type = .valueFloat

/-- A character keeps the type of the number right. -/
lemma Typed.next {q q' : NumberState} {type : TokenType} {s : Str} {c : UInt8}
    (h : Typed q type s) (hq : q.next (some c) = .ok (some q')) :
    Typed q' (q'.retype type) (s ++ [c]) := by
  cases q with
  | minus =>
    obtain ⟨rfl, rfl⟩ := h
    simp only [NumberState.next, Option.any_some, Option.some.injEq] at hq
    split_ifs at hq with h₁ h₂
    · obtain rfl := Option.some.inj (Except.ok.inj hq)
      exact .inr ⟨rfl, [c], rfl, by simp [h₁, isDigit]⟩
    · obtain rfl := Option.some.inj (Except.ok.inj hq)
      exact .inr ⟨rfl, [c], rfl, by simpa using (isNonzeroDigit_iff.mp h₂).1⟩
  | zero =>
    simp only [NumberState.next] at hq
    split_ifs at hq
    · obtain rfl := Option.some.inj (Except.ok.inj hq)
      rfl
    · obtain rfl := Option.some.inj (Except.ok.inj hq)
      rfl
    · simp at hq
  | any1 =>
    simp only [NumberState.next, Option.any_some] at hq
    split_ifs at hq with h₁
    · obtain rfl := Option.some.inj (Except.ok.inj hq)
      rcases h with ⟨rfl, hs⟩ | ⟨rfl, ds, rfl, hds⟩
      · exact .inl ⟨rfl, List.forall_mem_append.mpr ⟨hs, by simpa using h₁⟩⟩
      · exact .inr ⟨rfl, ds ++ [c], rfl, List.forall_mem_append.mpr ⟨hds, by simpa using h₁⟩⟩
    · obtain rfl := Option.some.inj (Except.ok.inj hq)
      rfl
    · obtain rfl := Option.some.inj (Except.ok.inj hq)
      rfl
    · simp at hq
  | decimal1 | decimal2 | exponent | sign | any2 =>
    obtain rfl : type = .valueFloat := h
    simp only [NumberState.next, Option.any_some] at hq
    split_ifs at hq
    all_goals first
      | (obtain rfl := Option.some.inj (Except.ok.inj hq); rfl)
      | simp at hq

/-- The value of a string of digits. -/
lemma decimalParts_of_digits {ds : Str} (h : ∀ b ∈ ds, isDigit b = true) :
    decimalParts ds = (digitsVal ds, 0) ∧ decimalParts (45 :: ds) = (digitsVal ds, 0) := by
  have htake : ds.takeWhile isDigit = ds := List.takeWhile_eq_self_iff.mpr h
  have hdrop : ds.dropWhile isDigit = [] := List.dropWhile_eq_nil_iff.mpr h
  have hhead : ds.head? ≠ some 45 := by
    intro h45
    exact absurd (h 45 (List.mem_of_mem_head? h45)) (by decide)
  constructor
  · simp [decimalParts, hhead, htake, hdrop, digitsVal]
  · simp [decimalParts, htake, hdrop, digitsVal]

/-- A string of digits overflows only if it denotes a great number. -/
lemma not_overflows_of_digits {ds : Str} (h : ∀ b ∈ ds, isDigit b = true)
    (hlt : digitsVal ds < 2 ^ 64) : ¬ Overflows ds ∧ ¬ Overflows (45 :: ds) := by
  have hgreat : (2 : ℕ) ^ 64 ≤ 2 ^ 1024 - 2 ^ 970 := by decide +kernel
  obtain ⟨h₁, h₂⟩ := decimalParts_of_digits h
  have hsmall : ¬ (2 ^ 1024 - 2 ^ 970) * 10 ^ (-(0 : ℤ)).toNat ≤
      digitsVal ds * 10 ^ (0 : ℤ).toNat := by
    rw [neg_zero, Int.toNat_zero, pow_zero, mul_one, mul_one]
    exact Nat.not_le.mpr (hlt.trans_le hgreat)
  exact ⟨by rwa [Overflows, h₁], by rwa [Overflows, h₂]⟩

/-- An integer that fits its type does not overflow. -/
lemma not_overflows_of_typed {q : NumberState} {type : TokenType} {s : Str} (h : Typed q type s)
    (hfit : convert type s ≠ .valueFloat) : ¬ Overflows s := by
  have hinteger : ∀ {ds}, (∀ b ∈ ds, isDigit b = true) →
      convert .valueInteger (45 :: ds) ≠ .valueFloat → ¬ Overflows (45 :: ds) := by
    intro ds hds hfit
    have hle : digitsVal ds ≤ 2 ^ 63 := by
      by_contra hgt
      exact hfit (if_neg hgt)
    exact (not_overflows_of_digits hds (by omega)).2
  have hunsigned : (∀ b ∈ s, isDigit b = true) → convert .valueUnsigned s ≠ .valueFloat →
      ¬ Overflows s := by
    intro hs hfit
    have hlt : digitsVal s < 2 ^ 64 := by
      by_contra hge
      exact hfit (if_neg hge)
    exact (not_overflows_of_digits hs hlt).1
  cases q with
  | minus =>
    obtain ⟨rfl, rfl⟩ := h
    exact hinteger (by simp) hfit
  | zero | any1 =>
    rcases h with ⟨rfl, hs⟩ | ⟨rfl, ds, rfl, hds⟩
    · exact hunsigned hs hfit
    · exact hinteger hds hfit
  | decimal1 | decimal2 | exponent | sign | any2 =>
    obtain rfl : type = .valueFloat := h
    exact absurd rfl hfit

/-- The token that has been read, by its type and the buffer. -/
def TokenType.token (buffer : Str) : TokenType → Option Token
  | .literalTrue => some .literalTrue
  | .literalFalse => some .literalFalse
  | .literalNull => some .literalNull
  | .valueString => some (.string buffer)
  | .valueUnsigned | .valueInteger | .valueFloat => some (.number buffer)
  | .beginArray => some .beginArray
  | .beginObject => some .beginObject
  | .endArray => some .endArray
  | .endObject => some .endObject
  | .nameSeparator => some .nameSeparator
  | .valueSeparator => some .valueSeparator
  | .uninitialized | .parseError | .endOfInput | .literalOrValue => none

/-- A number that is an integer does not overflow. -/
def Fits (type : TokenType) (buffer : Str) : Prop :=
  type = .valueUnsigned ∨ type = .valueInteger → ¬ Overflows buffer

/-- A number has one of three types, and an integer does not overflow. -/
lemma fits_of_numberLoop {v : NumberState × TokenType} {t : TokenType} {l' : Lexer}
    (h : numberLoop.run v l = .ok t l') (hv : Typed v.1 v.2 l.tokenBuffer) :
    t.token l'.tokenBuffer = some (.number l'.tokenBuffer) ∧ Fits t l'.tokenBuffer := by
  revert h hv
  refine Loop.run_induction (R := fun v l r => r = .ok t l' → Typed v.1 v.2 l.tokenBuffer →
    t.token l'.tokenBuffer = some (.number l'.tokenBuffer) ∧ Fits t l'.tokenBuffer)
    ?_ ?_ ?_ v l
  · rintro v l t l' h ⟨⟩ hv
    obtain ⟨-, rfl, rfl⟩ := scanNumberBody_eq_return_iff.mp h
    refine ⟨?_, fun hint => not_overflows_of_typed hv ?_⟩
    · unfold convert
      split <;> first | rfl | (split_ifs <;> rfl)
    · change convert v.2 l.tokenBuffer ≠ .valueFloat
      rcases hint with h | h <;> simp [h]
  · rintro v l e l' h ⟨⟩
  · intro v l v' l'' r h ih hr hv
    obtain ⟨c, s, q, -, hq, rfl, rfl⟩ := scanNumberBody_eq_next_iff.mp h
    exact ih hr (hv.next hq)

/-- The state and the type that `scan_number` begins with. -/
def startNumber (c : UInt8) : NumberState × TokenType :=
  if c = 45 then (.minus, .valueInteger)
  else if c = 48 then (.zero, .valueUnsigned)
  else (.any1, .valueUnsigned)

/-- `scan_number` begins with the current character. -/
lemma scanNumber_eq {c : UInt8} (hc : l.input.current = some c) :
    scanNumber l = numberLoop.run (startNumber c)
      { l with tokenString := [c], tokenBuffer := [c] } := by
  have h : scanNumber l = (if l.input.current = some 45 then numberLoop.run (.minus, .valueInteger)
      else if l.input.current = some 48 then numberLoop.run (.zero, .valueUnsigned)
      else numberLoop.run (.any1, .valueUnsigned))
        { l with
          tokenString := l.input.current.toList
          tokenBuffer := [] ++ l.input.current.toList } := rfl
  rw [h, hc, startNumber]
  simp only [Option.some.injEq]
  split_ifs <;> rfl

/-- What may follow the first character of a numeral. -/
lemma numeral_cons_iff {c : UInt8} (hc : c = 45 ∨ isDigit c = true) {w : Str} :
    Numeral (c :: w) ↔ (startNumber c).1.Lang w := by
  rw [numeral_iff, lang_minus_cons_iff, startNumber]
  split_ifs with h₁ h₂
  · subst h₁
    simp [isNonzeroDigit]
  · subst h₂
    simp [isNonzeroDigit, NumberState.Lang]
  · have hdigit : isNonzeroDigit c = true := isNonzeroDigit_iff.mpr ⟨hc.resolve_left h₁, h₂⟩
    simp [h₁, h₂, hdigit, NumberState.Lang]

/-- A number begins with a sign or a digit, and the buffer is right from the beginning. -/
lemma typed_startNumber {c : UInt8} (hc : c = 45 ∨ isDigit c = true) :
    Typed (startNumber c).1 (startNumber c).2 [c] := by
  rw [startNumber]
  split_ifs with h₁ h₂
  · exact ⟨rfl, by rw [h₁]⟩
  · exact .inl ⟨rfl, by simp [h₂, isDigit]⟩
  · exact .inl ⟨rfl, by simpa using hc.resolve_left h₁⟩

/-! ## Numbers -/

/-- **Numbers**: from the current character on there is a numeral, which is as long as possible. -/
lemma exists_delivers_scanNumber_iff {c : UInt8} (hl : l.input.current = some c)
    (hc : c = 45 ∨ isDigit c = true) :
    (∃ t, Delivers scanNumber l t rest buffer) ↔
      ∃ w, Numeral (c :: w) ∧ Ends (c :: w) rest ∧ l.input.pending = w ++ rest ∧
        c :: w = buffer := by
  have hstart : ∀ t, Delivers scanNumber l t rest buffer ↔
      Delivers (numberLoop.run (startNumber c))
        { l with tokenString := [c], tokenBuffer := [c] } t rest buffer := by
    intro t
    simp only [Delivers, scanNumber_eq hl]
  rw [exists_congr hstart, exists_delivers_numberLoop_iff]
  refine exists_congr fun w => ?_
  rw [numeral_cons_iff hc, Ends, List.singleton_append]
  simp only [List.cons_append, numeral_cons_iff hc]
  constructor
  · rintro ⟨hint, hp, hb, hend⟩
    exact ⟨hint, hend, hp, hb⟩
  · rintro ⟨hint, hend, hp, hb⟩
    exact ⟨hint, hp, hb, hend⟩

/-- The token of a number. -/
lemma fits_of_scanNumber {c : UInt8} (hl : l.input.current = some c)
    (hc : c = 45 ∨ isDigit c = true) {t : TokenType} {l' : Lexer} (h : scanNumber l = .ok t l') :
    t.token l'.tokenBuffer = some (.number l'.tokenBuffer) ∧ Fits t l'.tokenBuffer := by
  rw [scanNumber_eq hl] at h
  exact fits_of_numberLoop h (typed_startNumber hc)

end Nlohmann
