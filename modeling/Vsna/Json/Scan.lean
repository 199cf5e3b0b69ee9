import Vsna.Json.Numbers

set_option relaxedAutoImplicit false
set_option autoImplicit false

/-!
# The scan of a token

`scan` reads the token that the input begins with, after white space and, initially, after a byte
order mark.

## Main definitions

* `Nlohmann.Reads` — a computation of the lexer reads this token, and leaves this input.
* `Nlohmann.Begins` — the token that a character begins.
* `Nlohmann.Lexer.text` — the input without a byte order mark.
* `Nlohmann.Started` — a character has been read, so that no byte order mark is expected any more.

## Main results

* `Nlohmann.reads_scanFrom_iff` — the token that the current character begins.
* `Nlohmann.reads_scanToken_iff` — the next token.
* `Nlohmann.fits_of_scanToken` — an integer does not overflow.
-/

namespace Nlohmann

open Text Automata

variable {l l' : Lexer} {rest buffer : Str} {c : UInt8} {tok : Token} {t : TokenType}

/-! ## Lexemes -/

/-- How a lexeme begins. -/
lemma lexeme_cons_iff {w : Str} : Lexeme (c :: w) tok ↔
    (c :: w, tok) ∈ fixedLexemes ∨
      (c = 34 ∧ ∃ s cs, Body s cs ∧ w = s ++ [34] ∧ tok = .string (utf8 cs)) ∨
      ((c = 45 ∨ isDigit c = true) ∧ Numeral (c :: w) ∧ tok = .number (c :: w)) := by
  constructor
  · intro h
    generalize heq : c :: w = text at h
    cases h with
    | fixed hmem => exact .inl hmem
    | @string s cs hs =>
      obtain ⟨rfl, rfl⟩ := List.cons.inj heq
      exact .inr (.inl ⟨rfl, s, cs, hs, rfl, rfl⟩)
    | number hnum =>
      subst heq
      refine .inr (.inr ⟨?_, hnum, rfl⟩)
      rcases numeral_iff.mp hnum with h | ⟨t, heq, -⟩
      · rcases lang_minus_cons_iff.mp h with ⟨rfl, -⟩ | ⟨h, -⟩
        · exact .inr rfl
        · exact .inr (isNonzeroDigit_iff.mp h).1
      · exact .inl (List.cons.inj heq).1
  · rintro (hmem | ⟨rfl, s, cs, hs, rfl, rfl⟩ | ⟨-, hnum, rfl⟩)
    · exact .fixed hmem
    · exact .string hs
    · exact .number hnum

/-- The tokens that always look the same are told apart by their first characters, from each other
and from strings and numbers. -/
lemma fixedLexemes_head : ∀ p ∈ fixedLexemes,
    (∀ q ∈ fixedLexemes, p.1.head? = q.1.head? → p = q) ∧ p.1.head? ≠ some 34 ∧
      p.1.head? ≠ some 45 ∧ p.1.head?.any isDigit = false := by
  decide

/-- A token that always looks the same is known by its first character. -/
lemma lexeme_fixed_iff {w w' : Str} {tok' : Token} (h : (c :: w, tok) ∈ fixedLexemes) :
    Lexeme (c :: w') tok' ↔ w' = w ∧ tok' = tok := by
  obtain ⟨hunique, hquote, hminus, hdigit⟩ := fixedLexemes_head _ h
  rw [lexeme_cons_iff]
  constructor
  · rintro (hmem | ⟨rfl, -⟩ | ⟨rfl | hc, -⟩)
    · obtain ⟨heq, rfl⟩ := Prod.mk.inj (hunique _ hmem rfl)
      exact ⟨(List.cons.inj heq).2.symm, rfl⟩
    · exact absurd rfl hquote
    · exact absurd rfl hminus
    · simp [hc] at hdigit
  · rintro ⟨rfl, rfl⟩
    exact .inl h

/-- A string is known by its quote. -/
lemma lexeme_quote_iff {w : Str} : Lexeme (34 :: w) tok ↔
    ∃ s cs, Body s cs ∧ w = s ++ [34] ∧ tok = .string (utf8 cs) := by
  rw [lexeme_cons_iff]
  constructor
  · rintro (hmem | ⟨-, h⟩ | ⟨hc, -⟩)
    · exact absurd rfl (fixedLexemes_head _ hmem).2.1
    · exact h
    · exact absurd hc (by decide)
  · exact fun h => .inr (.inl ⟨rfl, h⟩)

/-- A number is known by its sign or its first digit. -/
lemma lexeme_number_iff {w : Str} (hc : c = 45 ∨ isDigit c = true) :
    Lexeme (c :: w) tok ↔ Numeral (c :: w) ∧ tok = .number (c :: w) := by
  rw [lexeme_cons_iff]
  constructor
  · rintro (hmem | ⟨rfl, -⟩ | ⟨-, h⟩)
    · obtain ⟨-, -, hminus, hdigit⟩ := fixedLexemes_head _ hmem
      rcases hc with rfl | hc
      · exact absurd rfl hminus
      · simp [hc] at hdigit
    · exact absurd hc (by decide)
    · exact h
  · exact fun h => .inr (.inr ⟨hc, h⟩)

/-! ## Literals -/

/-- A character of a literal. -/
lemma delivers_expect_iff : Delivers (expect c) l () rest buffer ↔
    l.input.pending = c :: rest ∧ l.tokenBuffer = buffer := by
  rw [expect, delivers_get_bind, delivers_ite_fail_iff, delivers_pure_iff]
  cases hp : l.input.pending with
  | nil => simp
  | cons d s =>
    simp only [List.head?_cons, Option.some.injEq, Lexer.pending_advance, hp, List.tail_cons,
      Lexer.tokenBuffer_advance, true_and, List.cons.injEq, and_assoc]

/-- The characters of a literal. -/
lemma delivers_forM_expect_iff {text : Str} : Delivers (text.forM expect) l () rest buffer ↔
    l.input.pending = text ++ rest ∧ l.tokenBuffer = buffer := by
  induction text generalizing l with
  | nil => exact delivers_pure_iff.trans (and_iff_right rfl)
  | cons c text ih =>
    change Delivers (expect c >>= fun _ => text.forM expect) l () rest buffer ↔ _
    rw [delivers_bind_iff (fun _ _ _ => delivers_expect_iff)
      (Q := fun _ s w => s = text ++ rest ∧ w = buffer) fun _ _ => ih]
    constructor
    · rintro ⟨-, s, w, ⟨hp, rfl⟩, rfl, rfl⟩
      exact ⟨hp, rfl⟩
    · rintro ⟨hp, rfl⟩
      exact ⟨(), _, _, ⟨hp, rfl⟩, rfl, rfl⟩

/-- A literal. -/
lemma delivers_scanLiteral_iff {text : Str} {type : TokenType} :
    Delivers (scanLiteral text type) l t rest buffer ↔
      type = t ∧ l.input.pending = text.tail ++ rest ∧ l.tokenBuffer = buffer := by
  rw [scanLiteral, delivers_bind_pure_iff, delivers_forM_expect_iff]

/-! ## The token that begins with a character -/

/-- A token has been read, and this input is left. -/
def Reads (x : Scan TokenType) (l : Lexer) (tok : Token) (rest : Str) : Prop :=
  ∃ t l', x l = .ok t l' ∧ t.token l'.tokenBuffer = some tok ∧ l'.input.pending = rest

/-- A token of one character. -/
lemma reads_pure_iff : Reads (pure t) l tok rest ↔
    t.token l.tokenBuffer = some tok ∧ l.input.pending = rest := by
  constructor
  · rintro ⟨t, l', h, htok⟩
    cases h
    exact htok
  · exact fun h => ⟨t, l, rfl, h⟩

/-- A failure reads nothing. -/
lemma not_reads_fail {message : Str} : ¬ Reads (fail message) l tok rest := by
  rintro ⟨t, l', h, -⟩
  cases h

/-- A literal, as a token. -/
lemma reads_scanLiteral_iff {text : Str} : Reads (scanLiteral text t) l tok rest ↔
    t.token l.tokenBuffer = some tok ∧ l.input.pending = text.tail ++ rest := by
  constructor
  · rintro ⟨t', l', h, htok, hrest⟩
    obtain ⟨rfl, hp, hb⟩ := delivers_scanLiteral_iff.mp ⟨l', h, hrest, rfl⟩
    exact ⟨hb ▸ htok, hp⟩
  · rintro ⟨htok, hp⟩
    obtain ⟨l', h, hrest, hb⟩ := delivers_scanLiteral_iff.mpr ⟨rfl, hp, rfl⟩
    exact ⟨t, l', h, hb ▸ htok, hrest⟩

/-- A string, as a token. -/
lemma reads_scanString_iff : Reads scanString l tok rest ↔
    ∃ s cs, Body s cs ∧ l.input.pending = s ++ 34 :: rest ∧ tok = .string (utf8 cs) := by
  constructor
  · rintro ⟨t, l', h, htok, hrest⟩
    obtain ⟨rfl, s, cs, hs, hp, hb⟩ := delivers_scanString_iff.mp ⟨l', h, hrest, rfl⟩
    exact ⟨s, cs, hs, hp, by rw [hb]; exact (Option.some.inj htok).symm⟩
  · rintro ⟨s, cs, hs, hp, rfl⟩
    obtain ⟨l', h, hrest, hb⟩ := delivers_scanString_iff.mpr ⟨rfl, s, cs, hs, hp, rfl⟩
    exact ⟨_, l', h, by rw [hb]; rfl, hrest⟩

/-- A number, as a token. -/
lemma reads_scanNumber_iff (hl : l.input.current = some c) (hc : c = 45 ∨ isDigit c = true) :
    Reads scanNumber l tok rest ↔ ∃ w, Numeral (c :: w) ∧ Ends (c :: w) rest ∧
      l.input.pending = w ++ rest ∧ tok = .number (c :: w) := by
  constructor
  · rintro ⟨t, l', h, htok, hrest⟩
    obtain ⟨w, hnum, hends, hp, hb⟩ :=
      (exists_delivers_scanNumber_iff hl hc).mp ⟨t, l', h, hrest, rfl⟩
    rw [(fits_of_scanNumber hl hc h).1, Option.some.injEq] at htok
    exact ⟨w, hnum, hends, hp, by rw [hb, htok]⟩
  · rintro ⟨w, hnum, hends, hp, rfl⟩
    obtain ⟨t, l', h, hrest, hb⟩ :=
      (exists_delivers_scanNumber_iff hl hc).mpr ⟨w, hnum, hends, hp, rfl⟩
    exact ⟨t, l', h, by rw [(fits_of_scanNumber hl hc h).1, hb], hrest⟩

/-- What the current character begins, with the input after it. -/
def Begins (c : UInt8) (pending : Str) (tok : Token) (rest : Str) : Prop :=
  ∃ w, Lexeme (c :: w) tok ∧ (tok = .number (c :: w) → Ends (c :: w) rest) ∧ pending = w ++ rest

/-- A token that always looks the same. -/
lemma begins_fixed_iff {w pending : Str} {tok' : Token} (h : (c :: w, tok) ∈ fixedLexemes) :
    Begins c pending tok' rest ↔ tok = tok' ∧ pending = w ++ rest := by
  simp only [Begins, lexeme_fixed_iff h]
  constructor
  · rintro ⟨w, ⟨rfl, rfl⟩, -, hp⟩
    exact ⟨rfl, hp⟩
  · rintro ⟨rfl, hp⟩
    refine ⟨w, ⟨rfl, rfl⟩, ?_, hp⟩
    rintro rfl
    exact absurd h (by simp [fixedLexemes])

/-- The token that begins with the current character.

**Proof sketch.** The code goes through the first characters that a lexeme may have; in the last
case there is no lexeme with this character. -/
lemma reads_scanFrom_iff (hl : l.input.current = some c) :
    Reads (scanFrom c) l tok rest ↔ Begins c l.input.pending tok rest := by
  have hone : ∀ {t tok'}, ([c], tok') ∈ fixedLexemes → t.token l.tokenBuffer = some tok' →
      (Reads (pure t) l tok rest ↔ Begins c l.input.pending tok rest) := fun hmem ht => by
    rw [reads_pure_iff, ht, begins_fixed_iff hmem, Option.some.injEq, List.nil_append]
  have hliteral : ∀ {t tok' w}, (c :: w, tok') ∈ fixedLexemes →
      t.token l.tokenBuffer = some tok' → (Reads (scanLiteral (c :: w) t) l tok rest ↔
        Begins c l.input.pending tok rest) := fun hmem ht => by
    rw [reads_scanLiteral_iff, ht, begins_fixed_iff hmem, Option.some.injEq, List.tail_cons]
  rcases eq_or_ne c 91 with rfl | h₁
  · exact @hone .beginArray .beginArray (by decide) rfl
  rcases eq_or_ne c 93 with rfl | h₂
  · exact @hone .endArray .endArray (by decide) rfl
  rcases eq_or_ne c 123 with rfl | h₃
  · exact @hone .beginObject .beginObject (by decide) rfl
  rcases eq_or_ne c 125 with rfl | h₄
  · exact @hone .endObject .endObject (by decide) rfl
  rcases eq_or_ne c 58 with rfl | h₅
  · exact @hone .nameSeparator .nameSeparator (by decide) rfl
  rcases eq_or_ne c 44 with rfl | h₆
  · exact @hone .valueSeparator .valueSeparator (by decide) rfl
  rcases eq_or_ne c 116 with rfl | h₇
  · exact @hliteral .literalTrue .literalTrue "rue" (by decide) rfl
  rcases eq_or_ne c 102 with rfl | h₈
  · exact @hliteral .literalFalse .literalFalse "alse" (by decide) rfl
  rcases eq_or_ne c 110 with rfl | h₉
  · exact @hliteral .literalNull .literalNull "ull" (by decide) rfl
  rw [scanFrom, if_neg h₁, if_neg h₂, if_neg h₃, if_neg h₄, if_neg h₅, if_neg h₆, if_neg h₇,
    if_neg h₈, if_neg h₉]
  rcases eq_or_ne c 34 with rfl | hquote
  · rw [if_pos rfl, reads_scanString_iff]
    simp only [Begins, lexeme_quote_iff]
    constructor
    · rintro ⟨s, cs, hs, hp, rfl⟩
      exact ⟨s ++ [34], ⟨s, cs, hs, rfl, rfl⟩, by simp, by simpa using hp⟩
    · rintro ⟨-, ⟨s, cs, hs, rfl, rfl⟩, -, hp⟩
      exact ⟨s, cs, hs, by simpa using hp, rfl⟩
  rw [if_neg hquote]
  by_cases hnumber : c = 45 ∨ isDigit c = true
  · rw [if_pos (by simpa using hnumber), reads_scanNumber_iff hl hnumber]
    simp only [Begins, lexeme_number_iff hnumber]
    constructor
    · rintro ⟨w, hnum, hends, hp, rfl⟩
      exact ⟨w, ⟨hnum, rfl⟩, fun _ => hends, hp⟩
    · rintro ⟨w, ⟨hnum, rfl⟩, hends, hp⟩
      exact ⟨w, hnum, hends rfl, hp, rfl⟩
  · rw [if_neg (by simpa using hnumber)]
    have hno : ¬ Begins c l.input.pending tok rest := by
      rintro ⟨w, hlex, -⟩
      rcases lexeme_cons_iff.mp hlex with hmem | ⟨rfl, -⟩ | ⟨hc, -⟩
      · simp [fixedLexemes, ascii, h₁, h₂, h₃, h₄, h₅, h₆, h₇, h₈, h₉] at hmem
      · exact hquote rfl
      · exact hnumber hc
    refine iff_of_false ?_ hno
    split_ifs
    · rw [reads_pure_iff]
      simp [TokenType.token]
    · exact not_reads_fail

/-! ## White space -/

/-- An iteration of the loop of `skip_whitespace`. -/
lemma blankLoop_body (l : Lexer) : blankLoop.body () l =
    .ok (if l.input.pending.head?.any isBlank then .inl () else .inr ()) l.advance := by
  change (get >>= fun c => if c.any isBlank = true then pure (Sum.inl ()) else pure (Sum.inr ())) l
    = _
  rw [get_bind]
  split_ifs <;> rfl

/-- White space is skipped, and the next character is read. -/
lemma skipWhitespace_eq (l : Lexer) : ∃ l', skipWhitespace l = .ok () l' ∧
    l'.input.current = (l.input.pending.dropWhile isBlank).head? ∧
    l'.input.pending = (l.input.pending.dropWhile isBlank).tail ∧
    l'.position.charsReadTotal ≠ 0 := by
  have hlast : ∀ l : Lexer, l.input.pending.head?.any isBlank = false →
      skipWhitespace l = .ok () l.advance := fun l h => by
    rw [skipWhitespace, Loop.run_of_return]
    rw [blankLoop_body, h]
    rfl
  have hcurrent : ∀ l : Lexer, l.advance.input.current = l.input.pending.head? :=
    fun l => l.input.current_advance
  generalize hp : l.input.pending = text
  induction text generalizing l with
  | nil =>
    exact ⟨l.advance, hlast l (by simp [hp]), by rw [hcurrent, hp]; rfl, by simp [hp],
      Nat.succ_ne_zero _⟩
  | cons c s ih =>
    by_cases hc : isBlank c = true
    · have hstep : skipWhitespace l = skipWhitespace l.advance := by
        rw [skipWhitespace, Loop.run_of_next]
        rw [blankLoop_body, hp]
        simp [hc]
      rw [hstep, List.dropWhile_cons_of_pos hc]
      exact ih _ (by simp [hp])
    · rw [List.dropWhile_cons_of_neg hc]
      exact ⟨l.advance, hlast l (by simpa [hp] using hc), by rw [hcurrent, hp], by simp [hp],
        Nat.succ_ne_zero _⟩

/-! ## The byte order mark -/

/-- A character has been read. -/
def Started (l : Lexer) : Prop := l.position.charsReadTotal ≠ 0

/-- Reading on does not undo the start. -/
lemma stable_started : Stable Started where
  advance _ _ := Nat.succ_ne_zero _
  retreat _ h := h
  write _ _ _ h := h

/-- The text that the next token is read from: initially there may be a byte order mark before it,
but not a part of one. -/
def Lexer.text (l : Lexer) : Option Str :=
  if l.position.charsReadTotal = 0 ∧ l.input.pending.head? = some 0xEF then
    if l.input.pending.tail.take 2 = [0xBB, 0xBF] then some (l.input.pending.drop 3) else none
  else some l.input.pending

/-- After the first byte of the mark there are the two others, or it is invalid. -/
lemma skipBom_eq (h : l.input.pending.head? = some 0xEF) :
    ∃ l', skipBom l = .ok (l.input.pending.tail.take 2 = [0xBB, 0xBF]) l' ∧ Started l' ∧
      (l.input.pending.tail.take 2 = [0xBB, 0xBF] →
        l'.input.pending = l.input.pending.drop 3) := by
  obtain ⟨s, hp⟩ : ∃ s, l.input.pending = 0xEF :: s := List.head?_eq_some_iff.mp h
  rw [skipBom, get_bind, if_pos h, get_bind, Lexer.pending_advance, hp, List.tail_cons]
  by_cases hd : s.head? = some 0xBB
  · obtain ⟨s, rfl⟩ : ∃ t, s = 0xBB :: t := List.head?_eq_some_iff.mp hd
    rw [if_pos hd, get_bind]
    refine ⟨l.advance.advance.advance, ?_, Nat.succ_ne_zero _, fun _ => by simp [hp]⟩
    rw [Lexer.pending_advance, Lexer.pending_advance, hp]
    cases s with
    | nil => rfl
    | cons e s => simp [pure, EStateM.pure]
  · have hno : s.take 2 ≠ [0xBB, 0xBF] := fun htake => hd (by
      cases s with
      | nil => simp at htake
      | cons d s => simpa using (List.cons.inj htake).1)
    rw [if_neg hd]
    exact ⟨l.advance.advance, by simp [pure, EStateM.pure, hno], Nat.succ_ne_zero _,
      fun htake => absurd htake hno⟩

/-- Initially, the byte order mark is skipped. -/
lemma checkBom_eq (l : Lexer) : match l.text with
    | some s => ∃ l', checkBom l = .ok () l' ∧ l'.input.pending = s
    | none => ∃ e l', checkBom l = .error e l' ∧ Started l' := by
  have hcheck : checkBom l = (if l.position.charsReadTotal = 0 then
      skipBom >>= fun found =>
        if found = true then pure () else fail "invalid BOM; must be 0xEF 0xBB 0xBF if given"
    else pure () : Scan Unit) l := rfl
  rw [Lexer.text, hcheck]
  by_cases h : l.position.charsReadTotal = 0
  · rw [if_pos h]
    by_cases hhead : l.input.pending.head? = some 0xEF
    · obtain ⟨l', hskip, hstarted, hpending⟩ := skipBom_eq hhead
      rw [if_pos ⟨h, hhead⟩, bind_of_ok hskip]
      by_cases hfound : l.input.pending.tail.take 2 = [0xBB, 0xBF]
      · simp only [hfound, decide_true, if_true]
        exact ⟨l', rfl, hpending hfound⟩
      · simp only [hfound, decide_false, if_false]
        exact ⟨_, l', rfl, hstarted⟩
    · have hskip : skipBom l = .ok true l.advance.retreat := by
        rw [skipBom, get_bind, if_neg hhead]
        rfl
      rw [if_neg fun hbom => hhead hbom.2, bind_of_ok hskip]
      exact ⟨l.advance.retreat, rfl, Lexer.pending_retreat_advance l⟩
  · rw [if_neg h, if_neg fun hbom => h hbom.1]
    exact ⟨l, rfl, rfl⟩

/-! ## Tokens -/

/-- A lexeme begins with a character that is no white space. -/
lemma Lexeme.exists_cons {s : Str} (h : Lexeme s tok) :
    ∃ c w, s = c :: w ∧ isBlank c = false := by
  cases s with
  | nil =>
    generalize heq : ([] : Str) = s at h
    cases h with
    | fixed hmem =>
      subst heq
      exact absurd hmem (by simp [fixedLexemes, ascii])
    | string => exact absurd heq (by simp [ascii])
    | number hnum =>
      subst heq
      rcases numeral_iff.mp hnum with h | ⟨t, h, -⟩
      · exact absurd (NumberState.lang_nil_iff.mp h) (by simp [NumberState.next])
      · cases h
  | cons c w =>
    refine ⟨c, w, rfl, ?_⟩
    rcases lexeme_cons_iff.mp h with hmem | ⟨rfl, -⟩ | ⟨rfl | hc, -⟩
    · have hblank : ∀ p ∈ fixedLexemes, p.1.head?.any isBlank = false := by decide
      exact hblank _ hmem
    · rfl
    · rfl
    · by_contra hblank
      simp only [isBlank, Bool.not_eq_false, Bool.or_eq_true, decide_eq_true_eq] at hblank
      rcases hblank with ((rfl | rfl) | rfl) | rfl <;> exact absurd hc (by decide)

/-- The text begins with a token after the white space. -/
lemma lexes_iff {text : Str} : Lexes text tok rest ↔
    ∃ c s, text.dropWhile isBlank = c :: s ∧ Begins c s tok rest := by
  constructor
  · rintro ⟨blanks, s, hblanks, hlex, hends, rfl⟩
    obtain ⟨c, w, rfl, hc⟩ := hlex.exists_cons
    refine ⟨c, w ++ rest, ?_, w, hlex, hends, rfl⟩
    rw [List.dropWhile_append_of_pos hblanks, List.cons_append, List.dropWhile_cons_of_neg]
    simp [hc]
  · rintro ⟨c, s, hdrop, w, hlex, hends, rfl⟩
    refine ⟨text.takeWhile isBlank, c :: w, fun b hb => List.mem_takeWhile_imp hb, hlex, hends, ?_⟩
    rw [List.cons_append, ← hdrop, List.takeWhile_append_dropWhile]

/-- Without the rest of the mark, no token is read. -/
lemma scanToken_of_text_eq_none (h : l.text = none) :
    ∃ e l', scanToken l = .error e l' ∧ Started l' := by
  have hcheck := checkBom_eq l
  rw [h] at hcheck
  obtain ⟨e, l', hcheck, hstarted⟩ := hcheck
  exact ⟨e, l', by rw [scanToken, bind_of_error hcheck], hstarted⟩

/-- The token is read from the first character that is no white space. -/
lemma scanToken_of_text_eq_some {text : Str} (h : l.text = some text) :
    ∃ l', Started l' ∧ l'.input.current = (text.dropWhile isBlank).head? ∧
      l'.input.pending = (text.dropWhile isBlank).tail ∧
      scanToken l = match text.dropWhile isBlank with
        | [] => .ok .endOfInput l'
        | c :: _ => scanFrom c l' := by
  have hcheck := checkBom_eq l
  rw [h] at hcheck
  obtain ⟨l₁, hcheck, rfl⟩ := hcheck
  obtain ⟨l₂, hskip, hcurrent, hpending, hstarted⟩ := skipWhitespace_eq l₁
  refine ⟨l₂, hstarted, hcurrent, hpending, ?_⟩
  rw [scanToken, bind_of_ok hcheck, bind_of_ok hskip]
  have hget : current l₂ = .ok (l₁.input.pending.dropWhile isBlank).head? l₂ :=
    congrArg (EStateM.Result.ok · l₂) hcurrent
  rw [bind_of_ok hget]
  cases l₁.input.pending.dropWhile isBlank <;> rfl

/-- **The next token**: it is the one that the text begins with. -/
lemma reads_scanToken_iff : Reads scanToken l tok rest ↔
    ∃ text, l.text = some text ∧ Lexes text tok rest := by
  cases htext : l.text with
  | none =>
    obtain ⟨e, l', hscan, -⟩ := scanToken_of_text_eq_none htext
    refine iff_of_false ?_ (by simp)
    rintro ⟨t, l'', h, -⟩
    rw [hscan] at h
    cases h
  | some text =>
    obtain ⟨l', -, hcurrent, hpending, hscan⟩ := scanToken_of_text_eq_some htext
    simp only [Option.some.injEq, exists_eq_left', lexes_iff]
    cases hdrop : text.dropWhile isBlank with
    | nil =>
      refine iff_of_false ?_ (by simp)
      rintro ⟨t, l'', h, htok, -⟩
      rw [hscan, hdrop] at h
      cases h
      simp [TokenType.token] at htok
    | cons c s =>
      have hfrom : Reads scanToken l tok rest ↔ Reads (scanFrom c) l' tok rest := by
        simp only [Reads, hscan, hdrop]
      rw [hfrom, reads_scanFrom_iff (by rw [hcurrent, hdrop]; rfl), hpending, hdrop]
      simp

/-- A lexer that has started reads from what is pending. -/
lemma Started.text_eq (h : Started l) : l.text = some l.input.pending :=
  if_neg fun hbom => h hbom.1

/-- After a scan the lexer has started, whether or not it has read a token. -/
lemma started_scanToken (l : Lexer) : Started (after (scanToken l)) := by
  cases htext : l.text with
  | none =>
    obtain ⟨e, l', hscan, hstarted⟩ := scanToken_of_text_eq_none htext
    rwa [hscan]
  | some text =>
    obtain ⟨l', hstarted, -, -, hscan⟩ := scanToken_of_text_eq_some htext
    rw [hscan]
    cases text.dropWhile isBlank with
    | nil => exact hstarted
    | cons c s => exact keeps_scanFrom stable_started c l' hstarted

/-- A number is read by `scan_number`. -/
lemma scanFrom_of_number (hc : c = 45 ∨ isDigit c = true) : scanFrom c = scanNumber := by
  rcases hc with rfl | hc
  · rfl
  · have hne : ∀ d, isDigit d = false → c ≠ d := by
      rintro d hd rfl
      simp [hc] at hd
    rw [scanFrom, if_neg (hne 91 rfl), if_neg (hne 93 rfl), if_neg (hne 123 rfl),
      if_neg (hne 125 rfl), if_neg (hne 58 rfl), if_neg (hne 44 rfl), if_neg (hne 116 rfl),
      if_neg (hne 102 rfl), if_neg (hne 110 rfl), if_neg (hne 34 rfl), if_pos (by simp [hc])]

/-- An integer that has been read does not overflow. -/
lemma fits_of_scanToken (h : scanToken l = .ok t l') : Fits t l'.tokenBuffer := by
  intro hint
  have htok : t.token l'.tokenBuffer = some (.number l'.tokenBuffer) := by
    rcases hint with rfl | rfl <;> rfl
  obtain ⟨text, htext, -⟩ := reads_scanToken_iff.mp ⟨t, l', h, htok, rfl⟩
  obtain ⟨l₁, -, hcurrent, -, hscan⟩ := scanToken_of_text_eq_some htext
  rw [hscan] at h
  cases hdrop : text.dropWhile isBlank with
  | nil =>
    rw [hdrop] at h
    cases h
    simp at hint
  | cons c s =>
    rw [hdrop] at h hcurrent
    obtain ⟨w, hlex, -⟩ := (reads_scanFrom_iff hcurrent).mp ⟨t, l', h, htok, rfl⟩
    have hc : c = 45 ∨ isDigit c = true := by
      rcases lexeme_cons_iff.mp hlex with hmem | ⟨-, s, cs, -, -, heq⟩ | ⟨hc, -⟩
      · exact absurd hmem (by simp [fixedLexemes])
      · cases heq
      · exact hc
    have hnumber : scanNumber l₁ = .ok t l' := by
      rw [← scanFrom_of_number hc]
      exact h
    exact (fits_of_scanNumber hcurrent hc hnumber).2 hint

/-- A token has characters. -/
lemma length_lt_of_lexes {text : Str} (h : Lexes text tok rest) : rest.length < text.length := by
  obtain ⟨blanks, s, -, hlex, -, rfl⟩ := h
  obtain ⟨c, w, rfl, -⟩ := hlex.exists_cons
  simp
  omega
end Nlohmann
