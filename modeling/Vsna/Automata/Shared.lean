import Mathlib.Data.List.Basic
import Mathlib.Logic.Function.Basic

set_option relaxedAutoImplicit false
set_option autoImplicit false

/-!
# An output with several writers

Several writers write to one output. Each of them hands over text in the order it has it written,
and from there the text gets onto the output in pieces, which mix with the pieces of the other
writers in any way. What does not depend on the way they mix is what each writer has written,
together with what it is still waiting to write.

Everything is generic in the type `ω` of writers and in the type `β` of bytes.

## Main definitions

* `Automata.Shared` — the output, and what is waiting to be written.
* `Automata.Shared.hand`, `Automata.Shared.flush` — what happens to it.
* `Automata.Shared.written`, `Automata.Shared.total` — the account of one writer.

## Main results

* `Automata.Shared.total_hand_self`, `Automata.Shared.total_hand_of_ne` — handing over a text adds
  it to the account of its writer, and to no other.
* `Automata.Shared.total_flush` — writing changes no account.
-/

namespace Automata

/-- An output that several writers share. -/
structure Shared (ω β : Type*) where
  /-- What each writer has handed over and is not on the output yet. -/
  waiting : ω → List β := fun _ => []
  /-- The pieces on the output, with their writers, in order. -/
  pieces : List (ω × List β) := []

namespace Shared

variable {ω β : Type*} [DecidableEq ω] (s : Shared ω β) (v w : ω)

/-- What is to be read on the output. -/
def text : List β := s.pieces.flatMap Prod.snd

/-- What the writer `w` has written. -/
def written : List β := (s.pieces.filter (·.1 = w)).flatMap Prod.snd

/-- The account of the writer `w`: what it has written, and then what it is still waiting to write.
So what is on the output is always the first part of it, and all of it once nothing is waiting. -/
def total : List β := s.written w ++ s.waiting w

/-- The writer `w` hands over a text. -/
def hand (w : ω) (text : List β) : Shared ω β :=
  { s with waiting := Function.update s.waiting w (s.waiting w ++ text) }

/-- The next `n` bytes of the writer `w` get onto the output. -/
def flush (w : ω) (n : ℕ) : Shared ω β where
  waiting := Function.update s.waiting w ((s.waiting w).drop n)
  pieces := s.pieces ++ [(w, (s.waiting w).take n)]

/-- Handing over a text adds it to the account of its writer. -/
lemma total_hand_self (text : List β) : (s.hand w text).total w = s.total w ++ text := by
  simp [total, hand, written]

/-- Handing over a text leaves the accounts of others alone. -/
lemma total_hand_of_ne {v w : ω} (h : w ≠ v) (text : List β) :
    (s.hand v text).total w = s.total w := by
  simp [total, hand, written, Function.update_of_ne h]

/-- **Writing changes no account**: what a writer has written it is no longer waiting to write. -/
lemma total_flush (n : ℕ) : (s.flush v n).total w = s.total w := by
  unfold total flush written
  by_cases h : w = v
  · subst h
    simp [List.flatMap_append]
  · have hv : ¬ v = w := fun hvw => h hvw.symm
    simp [Function.update_of_ne h, hv]

end Shared

end Automata
