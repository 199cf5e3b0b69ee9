import Mathlib.Data.List.Basic

set_option relaxedAutoImplicit false
set_option autoImplicit false

/-!
# Loops with a measure

A loop `while (true)` whose body either goes on, with a new value of the variables of the loop, or
returns. The body is a computation with a state and exceptions, and it comes with a measure that
gets smaller whenever it goes on; so the loop ends from every state.

## Main definitions

* `Automata.Keeps` — a computation keeps an invariant, whether or not it throws.
* `Automata.Loop`, `Automata.Loop.run` — loops.

## Main results

* `Automata.Loop.run_eq` — a loop is one iteration, and then the loop again.
* `Automata.Loop.run_induction` — what the iterations hand on from the end to the beginning holds
  of the loop.
* `Automata.Loop.keeps_run` — a loop keeps what its iterations keep.
-/

namespace Automata

variable {ε σ α β : Type}

/-! ## Sequences -/

/-- After a computation that succeeds comes the next one. -/
lemma bind_of_ok {x : EStateM ε σ α} {f : α → EStateM ε σ β} {s s' : σ} {a : α}
    (h : x s = .ok a s') : (x >>= f) s = f a s' := by
  simp only [bind, EStateM.bind, h]

/-- A computation that throws is the last one. -/
lemma bind_of_error {x : EStateM ε σ α} {f : α → EStateM ε σ β} {s s' : σ} {e : ε}
    (h : x s = .error e s') : (x >>= f) s = .error e s' := by
  simp only [bind, EStateM.bind, h]

/-- What two computations in sequence return. -/
lemma seq_ok_iff {x : EStateM ε σ α} {f : α → EStateM ε σ β} {s s' : σ} {b : β} :
    (x >>= f) s = .ok b s' ↔ ∃ a t, x s = .ok a t ∧ f a t = .ok b s' := by
  cases h : x s with
  | ok a t => simp [bind_of_ok h]
  | error e t => simp [bind_of_error h]

/-- What two computations in sequence throw. -/
lemma seq_error_iff {x : EStateM ε σ α} {f : α → EStateM ε σ β} {s s' : σ} {e : ε} :
    (x >>= f) s = .error e s' ↔
      x s = .error e s' ∨ ∃ a t, x s = .ok a t ∧ f a t = .error e s' := by
  cases h : x s with
  | ok a t => simp [bind_of_ok h]
  | error e' t => simp [bind_of_error h]

/-- What a branch does. -/
lemma branch_eq_iff {p : Prop} [Decidable p] {x y : EStateM ε σ α} {s : σ}
    {r : EStateM.Result ε σ α} :
    (if p then x else y) s = r ↔ p ∧ x s = r ∨ ¬ p ∧ y s = r := by
  split_ifs with hp <;> simp [hp]

/-- What returning does. -/
lemma return_eq_ok_iff {a b : α} {s s' : σ} :
    (pure a : EStateM ε σ α) s = .ok b s' ↔ a = b ∧ s = s' := by
  simp [pure, EStateM.pure]

/-- Returning throws nothing. -/
lemma return_ne_error {a : α} {e : ε} {s s' : σ} :
    (pure a : EStateM ε σ α) s ≠ .error e s' := by
  simp [pure, EStateM.pure]

/-! ## Invariants of computations -/

/-- The state after a computation. -/
def after : EStateM.Result ε σ α → σ
  | .ok _ s => s
  | .error _ s => s

/-- The computation keeps the invariant, whether or not it throws. -/
def Keeps (I : σ → Prop) (x : EStateM ε σ α) : Prop := ∀ s, I s → I (after (x s))

variable {I : σ → Prop}

/-- Returning changes nothing. -/
lemma keeps_pure (a : α) : Keeps I (pure a : EStateM ε σ α) := fun _ h => h

/-- Two computations in sequence. -/
lemma keeps_bind {x : EStateM ε σ α} {f : α → EStateM ε σ β} (hx : Keeps I x)
    (hf : ∀ a, Keeps I (f a)) : Keeps I (x >>= f) := by
  intro s hs
  have h := hx s hs
  cases hxs : x s with
  | ok a s' =>
    rw [bind_of_ok hxs]
    exact hf a s' (by simpa [hxs, after] using h)
  | error e s' =>
    rw [bind_of_error hxs]
    simpa [hxs, after] using h

/-- A branch. -/
lemma keeps_ite {p : Prop} [Decidable p] {x y : EStateM ε σ α} (hx : Keeps I x)
    (hy : Keeps I y) : Keeps I (if p then x else y) := by
  split_ifs
  · exact hx
  · exact hy

/-! ## Loops -/

/-- A loop: its body goes on with a new value of the variables, on the left, or returns, on the
right. -/
structure Loop (ε σ β α : Type) where
  body : β → EStateM ε σ (β ⊕ α)
  measure : β → σ → ℕ
  decreases : ∀ {b s b' s'}, body b s = .ok (.inl b') s' → measure b' s' < measure b s

namespace Loop

/-- The loop, from a value of its variables. -/
def run (L : Loop ε σ β α) (b : β) (s : σ) : EStateM.Result ε σ α :=
  match _h : L.body b s with
  | .ok (.inl b') s' => L.run b' s'
  | .ok (.inr a) s' => .ok a s'
  | .error e s' => .error e s'
termination_by L.measure b s
decreasing_by exact L.decreases _h

/-- **A loop is one iteration, and then the loop again.** -/
lemma run_eq (L : Loop ε σ β α) (b : β) (s : σ) :
    L.run b s = match L.body b s with
      | .ok (.inl b') s' => L.run b' s'
      | .ok (.inr a) s' => .ok a s'
      | .error e s' => .error e s' := by
  rw [run]
  split <;> simp_all

variable {L : Loop ε σ β α} {b b' : β} {s s' : σ} {a : α} {e : ε}

/-- An iteration that goes on. -/
lemma run_of_next (h : L.body b s = .ok (.inl b') s') : L.run b s = L.run b' s' := by
  rw [run_eq, h]

/-- An iteration that returns. -/
lemma run_of_return (h : L.body b s = .ok (.inr a) s') : L.run b s = .ok a s' := by
  rw [run_eq, h]

/-- An iteration that throws. -/
lemma run_of_throw (h : L.body b s = .error e s') : L.run b s = .error e s' := by
  rw [run_eq, h]

/-- **The rule for loops.** What holds of the iterations that return or throw, and is handed on by
the iterations that go on, holds of the loop. -/
theorem run_induction {R : β → σ → EStateM.Result ε σ α → Prop}
    (hreturn : ∀ b s a s', L.body b s = .ok (.inr a) s' → R b s (.ok a s'))
    (hthrow : ∀ b s e s', L.body b s = .error e s' → R b s (.error e s'))
    (hnext : ∀ b s b' s' r, L.body b s = .ok (.inl b') s' → R b' s' r → R b s r)
    (b : β) (s : σ) : R b s (L.run b s) := by
  induction hn : L.measure b s using Nat.strongRecOn generalizing b s with
  | ind n ih =>
    cases hbody : L.body b s with
    | error e s' =>
      rw [run_of_throw hbody]
      exact hthrow b s e s' hbody
    | ok r s' =>
      cases r with
      | inr a =>
        rw [run_of_return hbody]
        exact hreturn b s a s' hbody
      | inl b' =>
        rw [run_of_next hbody]
        exact hnext b s b' s' _ hbody (ih _ (hn ▸ L.decreases hbody) b' s' rfl)

/-- **A loop keeps what its iterations keep.** -/
lemma keeps_run (h : ∀ b, Keeps I (L.body b)) (b : β) : Keeps I (L.run b) := by
  intro s
  refine run_induction (R := fun _ s r => I s → I (after r)) ?_ ?_ ?_ b s
  · intro b s a s' hbody hs
    have := h b s hs
    rwa [hbody] at this
  · intro b s e s' hbody hs
    have := h b s hs
    rwa [hbody] at this
  · intro b s b' s' r hbody hr hs
    have := h b s hs
    rw [hbody] at this
    exact hr this

end Loop

end Automata
