import Vsna.Text.Numeral

set_option relaxedAutoImplicit false
set_option autoImplicit false

/-!
# Input streams: lines and words

A `std::istream` is its unread input with two state bits. `std::getline` and the extraction of a
word with `>>` are given with what they do to these bits and to the string they read into, which
matters at the end of the input:

* on a stream that is not good, both only set `failbit` and leave the string as it was;
* a last line without newline sets `eofbit` but is delivered; the same holds for a last word.

The lines of an input are its parts between newlines (`Text.lines`), and the words of a line are
its maximal parts free of white space (`Text.words`). The two main results tie the stream
operations to them, for any number of calls.

## Main definitions

* `Text.IStream`, `Text.getline`, `Text.extract` — streams and the two ways to read from them.
* `Text.lines`, `Text.words` — the lines of an input, the words of a line.
* `Text.readLines` — what the string holds after each of a number of `getline` calls.

## Main results

* `Text.readLines_eq` — the calls deliver the lines in order, and then the last part of the
  input again and again.
* `Text.extract_eq_some`, `Text.extract_eq_none` — one extraction takes one word.
-/

namespace Text

/-! ## Streams -/

/-- An input stream: the unread input, `eofbit` and `failbit`. -/
structure IStream where
  /-- The input not read yet. -/
  rest : Str
  /-- `eofbit`. -/
  eof : Bool := false
  /-- `failbit`. -/
  fail : Bool := false
  deriving DecidableEq

/-- `good()`: no state bit is set. -/
def IStream.good (is : IStream) : Bool := !is.eof && !is.fail

/-- The newline byte. -/
def newline : UInt8 := 10

/-- `std::getline(is, str)`: the stream and the string after the call. -/
def getline (is : IStream) (str : Str) : IStream × Str :=
  if is.good then
    match is.rest.dropWhile (· != newline) with
    | [] => (⟨[], true, is.rest.isEmpty⟩, is.rest)
    | _ :: rest => (⟨rest, false, false⟩, is.rest.takeWhile (· != newline))
  else ({ is with fail := true }, str)

/-- `is >> str`: the stream and the string after the call. -/
def extract (is : IStream) (str : Str) : IStream × Str :=
  if is.good then
    match is.rest.dropWhile isSpace with
    | [] => (⟨[], true, true⟩, str)
    | b :: s =>
      let rest := (b :: s).dropWhile (! isSpace ·)
      (⟨rest, rest.isEmpty, false⟩, (b :: s).takeWhile (! isSpace ·))
  else ({ is with fail := true }, str)

/-! ## Lines -/

/-- The parts of an input between newlines. The last part is not ended by a newline; it is empty
if the input is empty or ends in one. -/
def lines (input : Str) : List Str := input.splitOn newline

/-- An input has at least one part. -/
lemma lines_ne_nil (input : Str) : lines input ≠ [] := List.splitOn_ne_nil _ _

/-- The last part of an input, which no newline ends. -/
def lastPart (input : Str) : Str := (lines input).getLast (lines_ne_nil input)

/-- An input without newline is its only part. -/
lemma lines_of_no_newline {input : Str} (h : input.dropWhile (· != newline) = []) :
    lines input = [input] := by
  rw [lines, List.splitOn_eq_splitOnP]
  refine List.splitOnP_eq_singleton fun b hb => ?_
  have := List.dropWhile_eq_nil_iff.mp h b hb
  simpa using this

/-- The first newline ends the first part. -/
lemma lines_of_newline {input rest : Str} {b : UInt8}
    (h : input.dropWhile (· != newline) = b :: rest) :
    lines input = input.takeWhile (· != newline) :: lines rest := by
  have hb : b = newline := by
    have := List.head?_dropWhile_not (· != newline) input
    rw [h] at this
    simpa using this
  have hsplit : input = input.takeWhile (· != newline) ++ b :: rest := by
    rw [← h, List.takeWhile_append_dropWhile]
  conv_lhs => rw [hsplit]
  rw [lines, lines, List.splitOn_eq_splitOnP, List.splitOn_eq_splitOnP]
  refine List.splitOnP_append_cons_of_forall_mem (fun x hx => ?_) b (by simp [hb]) rest
  have := List.mem_takeWhile_imp hx
  simpa using this

/-- What the string holds after each of the next `n` calls of `getline`. -/
def readLines : ℕ → IStream → Str → List Str
  | 0, _, _ => []
  | n + 1, is, str => (getline is str).2 :: readLines n (getline is str).1 (getline is str).2

/-- A stream that is not good leaves the string alone for good. -/
lemma readLines_of_not_good (n : ℕ) {is : IStream} (h : is.good = false) (str : Str) :
    readLines n is str = List.replicate n str := by
  induction n generalizing is with
  | zero => rfl
  | succ n ih =>
    have hg : getline is str = ({ is with fail := true }, str) := by simp [getline, h]
    rw [readLines, hg, ih (by simp [IStream.good]), List.replicate_succ]

/-- **`getline` delivers the lines in order**, and from then on the string keeps the last part of
the input.

**Proof sketch.** Induction on the number of calls. If the input has a newline, the first call
delivers the part before it and leaves a good stream over the part after it. If it has none, the
first call delivers the whole input and leaves a stream that is not good. -/
theorem readLines_eq (n : ℕ) (input str : Str) :
    readLines n ⟨input, false, false⟩ str =
      (lines input ++ List.replicate n (lastPart input)).take n := by
  induction n generalizing input str with
  | zero => rfl
  | succ n ih =>
    cases h : input.dropWhile (· != newline) with
    | nil =>
      have hg : getline ⟨input, false, false⟩ str = (⟨[], true, input.isEmpty⟩, input) := by
        simp [getline, IStream.good, h]
      have hlast : lastPart input = input := by simp [lastPart, lines_of_no_newline h]
      rw [readLines, hg, readLines_of_not_good n (by simp [IStream.good]), hlast,
        lines_of_no_newline h, List.singleton_append, List.take_succ_cons, List.take_replicate]
      congr 2
      omega
    | cons b rest =>
      have hg : getline ⟨input, false, false⟩ str =
          (⟨rest, false, false⟩, input.takeWhile (· != newline)) := by
        simp [getline, IStream.good, h]
      have hlast : lastPart input = lastPart rest := by
        simp [lastPart, lines_of_newline h, List.getLast_cons (lines_ne_nil rest)]
      have htake : ((lines rest ++ List.replicate n (lastPart rest)) ++ [lastPart rest]).take n =
          (lines rest ++ List.replicate n (lastPart rest)).take n :=
        List.take_append_of_le_length (by simp)
      rw [readLines, hg, ih, hlast, lines_of_newline h, List.cons_append, List.take_succ_cons,
        List.replicate_succ', ← List.append_assoc, htake]

/-! ## Words -/

/-- The maximal parts of a string free of white space. -/
def words (s : Str) : List Str := (s.splitOnP isSpace).filter (· ≠ [])

/-- White space in front does not matter. -/
lemma words_dropWhile (s : Str) : words (s.dropWhile isSpace) = words s := by
  induction s with
  | nil => rfl
  | cons b s ih =>
    cases h : isSpace b with
    | false => rw [List.dropWhile_cons_of_neg (by simp [h])]
    | true =>
      rw [List.dropWhile_cons_of_pos h, ih, words, words, List.splitOnP_cons_eq_if_modifyHead,
        if_pos h, List.filter_cons_of_neg (by simp)]

/-- A word in front is the first of the words. -/
lemma words_cons {b : UInt8} {s : Str} (h : isSpace b = false) :
    words (b :: s) =
      (b :: s).takeWhile (! isSpace ·) :: words ((b :: s).dropWhile (! isSpace ·)) := by
  set w := (b :: s).takeWhile (! isSpace ·) with hw
  have hword : ∀ x ∈ w, isSpace x = false := fun x hx => by
    simpa using List.mem_takeWhile_imp hx
  have hne : w ≠ [] := by simp [hw, h]
  have hsplit : b :: s = w ++ (b :: s).dropWhile (! isSpace ·) := by
    rw [hw, List.takeWhile_append_dropWhile]
  rw [words, words, hsplit]
  cases hd : (b :: s).dropWhile (! isSpace ·) with
  | nil =>
    have hd' : (w ++ ([] : Str)).dropWhile (! isSpace ·) = [] := by rw [← hd, ← hsplit, hd]
    rw [hd', List.append_nil, List.splitOnP_eq_singleton hword]
    simp [hne]
  | cons c r =>
    have hc : isSpace c = true := by
      have := List.head?_dropWhile_not (! isSpace ·) (b :: s)
      rw [hd] at this
      simpa using this
    have hd' : (w ++ c :: r).dropWhile (! isSpace ·) = c :: r := by rw [← hd, ← hsplit, hd]
    rw [hd', List.splitOnP_append_cons_of_forall_mem hword c hc r,
      List.splitOnP_cons_eq_if_modifyHead, if_pos hc]
    simp [hne]

/-- A successful extraction takes the first word, and leaves fewer bytes and the other words. -/
lemma extract_eq_some {is : IStream} {str w : Str} {ws : List Str} (hg : is.good = true)
    (h : words is.rest = w :: ws) :
    (extract is str).2 = w ∧ (extract is str).1.fail = false ∧
      words (extract is str).1.rest = ws ∧
      (extract is str).1.rest.length < is.rest.length ∧
      ((extract is str).1.eof = true → ws = []) := by
  have hdrop := List.length_dropWhile_le isSpace is.rest
  rw [← words_dropWhile] at h
  cases hs : is.rest.dropWhile isSpace with
  | nil => rw [hs] at h; simp [words] at h
  | cons b s =>
    have hb : isSpace b = false := by
      have := List.head?_dropWhile_not isSpace is.rest
      rw [hs] at this
      simpa using this
    rw [hs, words_cons hb, List.cons.injEq] at h
    rw [hs] at hdrop
    have hlen := List.length_dropWhile_le (! isSpace ·) s
    simp only [extract, hg, if_true, hs]
    refine ⟨h.1, trivial, h.2, ?_, fun he => ?_⟩
    · rw [List.dropWhile_cons_of_pos (by simp [hb])]
      simp only [List.length_cons] at hdrop
      omega
    · rw [← h.2, List.isEmpty_iff.mp he]
      rfl

/-- Without words left, extraction fails. -/
lemma extract_eq_none {is : IStream} (str : Str) (h : words is.rest = []) :
    (extract is str).1.fail = true := by
  unfold extract
  split_ifs with hg
  · cases hs : is.rest.dropWhile isSpace with
    | nil => simp
    | cons b s =>
      have hb : isSpace b = false := by
        have := List.head?_dropWhile_not isSpace is.rest
        rw [hs] at this
        simpa using this
      rw [← words_dropWhile, hs, words_cons hb] at h
      simp at h
  · rfl

end Text
