import Vsna.Text.Stream

set_option relaxedAutoImplicit false
set_option autoImplicit false

/-!
# Tokens and the white space between them

What it means that a list of tokens is the tokenization of a string, said without reference to
any function that computes it: the string is the tokens in order, each followed by white space,
after some white space in front, and between two tokens there is at least one blank. The words
of a string are its only tokenization.

## Main definitions

* `Text.IsToken`, `Text.Blank` — tokens, and runs of white space.
* `Text.spaced`, `Text.WellSpaced` — tokens with white space put around them.
* `Text.IsTokenization` — a list of tokens is the tokenization of a string.

## Main results

* `Text.words_spaced` — the words of well spaced tokens are the tokens.
* `Text.isTokenization_words` — the words of a string are a tokenization of it.
* `Text.words_eq_iff` — they are the only one.
-/

namespace Text

/-! ## Tokens, well spaced -/

/-- A run of white space, which may be empty. -/
def Blank (w : Str) : Prop := ∀ b ∈ w, isSpace b = true

/-- A token: it is not empty, and there is no white space in it. -/
structure IsToken (t : Str) : Prop where
  ne_nil : t ≠ []
  no_space : ∀ b ∈ t, isSpace b = false

/-- The string `w`, then each token of `l` followed by the string it is paired with. -/
def spaced (w : Str) (l : List (Str × Str)) : Str := w ++ l.flatMap fun p => p.1 ++ p.2

/-- Tokens, with white space in front and after each; between two tokens there is some. -/
structure WellSpaced (w : Str) (l : List (Str × Str)) : Prop where
  front : Blank w
  token : ∀ p ∈ l, IsToken p.1
  blank : ∀ p ∈ l, Blank p.2
  between : ∀ p ∈ l.dropLast, p.2 ≠ []

/-- The string is made of these tokens, with white space around them. -/
def IsTokenization (input : Str) (ts : List Str) : Prop :=
  ∃ w l, WellSpaced w l ∧ spaced w l = input ∧ l.map Prod.fst = ts

variable {w t s : Str} {l : List (Str × Str)} {p : Str × Str}

/-- One more token in front. -/
lemma spaced_cons (w : Str) (p : Str × Str) (l : List (Str × Str)) :
    spaced w (p :: l) = w ++ (p.1 ++ spaced p.2 l) := by
  simp [spaced, List.append_assoc]

/-- The tokens after the first are well spaced. -/
lemma WellSpaced.tail (h : WellSpaced w (p :: l)) : WellSpaced p.2 l where
  front := h.blank p (by simp)
  token q hq := h.token q (by simp [hq])
  blank q hq := h.blank q (by simp [hq])
  between q hq := by
    have hne : l ≠ [] := by
      rintro rfl
      simp at hq
    exact h.between q (by simp [List.dropLast_cons_of_ne_nil hne, hq])

/-- What follows the first token does not begin with a byte of a token. -/
lemma WellSpaced.head_tail (h : WellSpaced w (p :: l)) :
    ∀ b ∈ (spaced p.2 l).head?, isSpace b = true := by
  intro b hb
  cases hp : p.2 with
  | cons c r =>
    have hc : c = b := by simpa [hp, spaced] using hb
    exact hc ▸ h.blank p (by simp) c (by simp [hp])
  | nil =>
    -- without white space after it, the token is the last
    obtain rfl : l = [] := by
      by_contra hne
      exact h.between p (by simp [List.dropLast_cons_of_ne_nil hne]) hp
    simp [hp, spaced] at hb

/-! ## Words of well spaced tokens -/

/-- White space in front does not matter. -/
lemma words_blank_append (hw : Blank w) (s : Str) : words (w ++ s) = words s := by
  rw [← words_dropWhile, List.dropWhile_append_of_pos hw, words_dropWhile]

/-- A token in front, with white space or nothing after it, is the first word. -/
lemma words_token_append (ht : IsToken t) (hs : ∀ b ∈ s.head?, isSpace b = true) :
    words (t ++ s) = t :: words s := by
  obtain ⟨b, r, rfl⟩ := List.exists_cons_of_ne_nil ht.ne_nil
  have hb : isSpace b = false := ht.no_space b (by simp)
  have hall : ∀ x ∈ b :: r, (! isSpace x) = true := fun x hx => by simp [ht.no_space x hx]
  have hcut : s.takeWhile (! isSpace ·) = [] ∧ s.dropWhile (! isSpace ·) = s := by
    cases s with
    | nil => simp
    | cons c s => simp [hs c (by simp)]
  have hword := words_cons (s := r ++ s) hb
  rw [← List.cons_append, List.takeWhile_append_of_pos hall, List.dropWhile_append_of_pos hall,
    hcut.1, hcut.2, List.append_nil] at hword
  exact hword

/-- **The words of well spaced tokens are the tokens.** -/
lemma words_spaced (h : WellSpaced w l) : words (spaced w l) = l.map Prod.fst := by
  induction l generalizing w with
  | nil =>
    rw [spaced, words_blank_append h.front]
    rfl
  | cons p l ih =>
    rw [spaced_cons, words_blank_append h.front,
      words_token_append (h.token p (by simp)) h.head_tail, ih h.tail, List.map_cons]

/-! ## Every string is tokenized by its words -/

/-- **The words of a string are a tokenization of it.**

**Proof sketch.** Induction on the length. The white space in front is cut off, then the first
word. What is left is tokenized by the other words, and begins with white space unless it is
empty; so the first word can be put in front. -/
lemma isTokenization_words (input : Str) : IsTokenization input (words input) := by
  induction hn : input.length using Nat.strong_induction_on generalizing input with
  | _ n ih =>
    have hfront : Blank (input.takeWhile isSpace) := fun b hb => List.mem_takeWhile_imp hb
    have hinput := List.takeWhile_append_dropWhile (p := isSpace) (l := input)
    cases hd : input.dropWhile isSpace with
    | nil =>
      rw [hd, List.append_nil] at hinput
      refine ⟨input, [], ⟨hinput ▸ hfront, by simp, by simp, by simp⟩, by simp [spaced], ?_⟩
      rw [← words_dropWhile, hd]
      rfl
    | cons b r =>
      have hb : isSpace b = false := by
        have := List.head?_dropWhile_not isSpace input
        rw [hd] at this
        simpa using this
      set t := (b :: r).takeWhile (! isSpace ·) with ht
      set rest := (b :: r).dropWhile (! isSpace ·) with hrest
      have htoken : IsToken t :=
        ⟨by simp [ht, hb], fun x hx => by simpa using List.mem_takeWhile_imp hx⟩
      have hlen : rest.length < n := by
        have h₁ := List.length_dropWhile_le isSpace input
        have h₂ := List.length_dropWhile_le (! isSpace ·) r
        rw [hd, List.length_cons] at h₁
        rw [hrest, List.dropWhile_cons_of_pos (by simp [hb])]
        omega
      obtain ⟨w, l, hl, hspaced, hwords⟩ := ih rest.length hlen rest rfl
      refine ⟨input.takeWhile isSpace, (t, w) :: l, ⟨hfront, ?_, ?_, ?_⟩, ?_, ?_⟩
      · exact List.forall_mem_cons.mpr ⟨htoken, hl.token⟩
      · exact List.forall_mem_cons.mpr ⟨hl.front, hl.blank⟩
      · cases l with
        | nil => simp
        | cons p l =>
          rw [List.dropLast_cons_of_ne_nil (by simp)]
          refine List.forall_mem_cons.mpr ⟨?_, hl.between⟩
          -- otherwise the rest would begin with the next token
          rintro rfl
          obtain ⟨c, u, hc⟩ := List.exists_cons_of_ne_nil (hl.token p (by simp)).ne_nil
          have hspace : isSpace c = false := (hl.token p (by simp)).no_space c (by simp [hc])
          have hhead := List.head?_dropWhile_not (! isSpace ·) (b :: r)
          rw [← hrest, ← hspaced, spaced_cons, hc] at hhead
          simp [hspace] at hhead
      · rw [spaced_cons, hspaced, ht, hrest, List.takeWhile_append_dropWhile, ← hd, hinput]
      · rw [List.map_cons, hwords, ← words_dropWhile input, hd, words_cons hb]

/-- **The words of a string are its only tokenization.** -/
theorem words_eq_iff {input : Str} {ts : List Str} :
    words input = ts ↔ IsTokenization input ts := by
  constructor
  · rintro rfl
    exact isTokenization_words input
  · rintro ⟨w, l, h, rfl, rfl⟩
    exact words_spaced h

end Text
