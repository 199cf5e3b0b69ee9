import Mathlib.Data.List.Basic
import Mathlib.Data.List.Induction

set_option relaxedAutoImplicit false
set_option autoImplicit false

/-!
# Guarded transition systems

A transition system is a family of start states and a guarded, executable step: `step s e` is
`some s'` if the event `e` is enabled in the state `s`, and `none` if it is not. The same step
function replays a concrete sequence of events (`System.run`) and carries the induction
principle for invariants (`System.Reachable.invariant`).

A *pool* (`System.pool`) runs any number of copies of one system side by side. Copies are
spawned at any time, from any start state, and their events interleave in any order. A copy
touches no state but its own, so whatever is invariant for one copy is invariant for all of
them (`System.reachable_of_mem_pool`).

## Main definitions

* `Automata.System` — a transition system; `System.run`, `System.Reachable`.
* `Automata.System.pool` — any number of copies, interleaved.
* `Automata.System.PoolStep` — the effect of one interleaved step on the list of copies.
* `Automata.System.Simulates` — one system does what another one does, in smaller steps.

## Main results

* `Automata.System.Reachable.invariant` — an inductive invariant holds in every reachable state.
* `Automata.System.run_invariant` — the same along a run whose events all meet a condition.
* `Automata.System.run_induction` — the same for a relation between state and events.
* `Automata.System.not_run_iff_allSteps` — the runs that end without a defect.
* `Automata.System.PoolStep.reachable`, `Automata.System.reachable_of_mem_pool` — every copy in
  a pool is in a state that is reachable for it alone.
* `Automata.System.Simulates.run` — a simulation carries over to runs.
-/

namespace Automata

/-- A transition system with start states indexed by `κ`, states `σ` and events `ε`. -/
structure System (κ σ ε : Type*) where
  /-- The start state for each way of starting the system. -/
  start : κ → σ
  /-- The state after an event, `none` if the event is not enabled. -/
  step : σ → ε → Option σ

namespace System

variable {κ σ ε : Type*} (A : System κ σ ε)

/-! ## Runs -/

/-- The state after a list of events, `none` if one of them is not enabled. -/
def run : σ → List ε → Option σ
  | s, [] => some s
  | s, e :: es => (A.step s e).bind fun s' => run s' es

/-- The empty run stays where it is. -/
@[simp] lemma run_nil (s : σ) : A.run s [] = some s := rfl

/-- A run is one step followed by a run. -/
@[simp] lemma run_cons (s : σ) (e : ε) (es : List ε) :
    A.run s (e :: es) = (A.step s e).bind fun s' => A.run s' es := rfl

/-- A run of a concatenation is a run followed by a run. -/
lemma run_append (s : σ) (es fs : List ε) :
    A.run s (es ++ fs) = (A.run s es).bind fun s' => A.run s' fs := by
  induction es generalizing s with
  | nil => rfl
  | cons e es ih =>
    rw [List.cons_append, run_cons, run_cons, Option.bind_assoc]
    congr 1
    funext s'
    exact ih s'

/-- Inversion of a nonempty run. -/
lemma run_cons_eq_some {s t : σ} {e : ε} {es : List ε} :
    A.run s (e :: es) = some t ↔ ∃ s', A.step s e = some s' ∧ A.run s' es = some t := by
  rw [run_cons, Option.bind_eq_some_iff]

/-- Inversion of a run of a concatenation. -/
lemma run_append_eq_some {s t : σ} {es fs : List ε} :
    A.run s (es ++ fs) = some t ↔ ∃ s', A.run s es = some s' ∧ A.run s' fs = some t := by
  rw [run_append, Option.bind_eq_some_iff]

/-- A property preserved by every step whose event meets `Q` holds after every run whose events
all meet `Q`. -/
lemma run_invariant {P : σ → Prop} {Q : ε → Prop}
    (hstep : ∀ s e s', P s → Q e → A.step s e = some s' → P s') {s t : σ} {es : List ε}
    (hs : P s) (hes : ∀ e ∈ es, Q e) (h : A.run s es = some t) : P t := by
  induction es generalizing s with
  | nil =>
    obtain rfl : s = t := by simpa using h
    exact hs
  | cons e es ih =>
    obtain ⟨s', hs', ht⟩ := A.run_cons_eq_some.mp h
    exact ih (hstep s e s' hs (hes e (by simp)) hs') (fun f hf => hes f (by simp [hf])) ht

/-- A relation between the events so far and the state, if it holds at the start and every step
preserves it, holds after every run. -/
lemma run_induction {P : List ε → σ → Prop} {s t : σ} {es : List ε} (hs : P [] s)
    (hstep : ∀ es s e s', P es s → A.step s e = some s' → P (es ++ [e]) s')
    (h : A.run s es = some t) : P es t := by
  induction es using List.reverseRecOn generalizing t with
  | nil =>
    obtain rfl : s = t := by simpa using h
    exact hs
  | append_singleton es e ih =>
    obtain ⟨s', hs', ht⟩ := A.run_append_eq_some.mp h
    exact hstep es s' e t (ih hs') (by simpa using ht)

/-- Does every step of a run meet a condition on the event and the state before it? -/
def AllSteps (Q : σ → ε → Prop) : σ → List ε → Prop
  | _, [] => True
  | s, e :: es => Q s e ∧ ∀ s', A.step s e = some s' → AllSteps Q s' es

/-- **A defect and the condition that rules it out.** If a step brings in the defect `F` exactly
when it does not meet `Q`, and never removes it, then a run that starts without the defect ends
without it exactly if all its steps meet `Q`. -/
lemma not_run_iff_allSteps {F : σ → Prop} {Q : σ → ε → Prop}
    (hstep : ∀ s e s', A.step s e = some s' → (F s' ↔ F s ∨ ¬ Q s e)) {s t : σ} {es : List ε}
    (hs : ¬ F s) (h : A.run s es = some t) : ¬ F t ↔ A.AllSteps Q s es := by
  induction es generalizing s with
  | nil =>
    obtain rfl : s = t := by simpa using h
    exact iff_of_true hs trivial
  | cons e es ih =>
    obtain ⟨s', hs', ht⟩ := A.run_cons_eq_some.mp h
    by_cases hQ : Q s e
    · have hnot : ¬ F s' := fun hF => ((hstep s e s' hs').mp hF).elim hs fun hnQ => hnQ hQ
      rw [ih hnot ht]
      constructor
      · intro hall
        refine ⟨hQ, fun s'' hs'' => ?_⟩
        obtain rfl : s' = s'' := Option.some.inj (hs'.symm.trans hs'')
        exact hall
      · intro hall
        exact hall.2 s' hs'
    · -- the defect is there from now on
      have hF : F t := A.run_invariant (Q := fun _ => True)
        (fun s e s' hF _ he => (hstep s e s' he).mpr (Or.inl hF))
        ((hstep s e s' hs').mpr (Or.inr hQ)) (fun _ _ => trivial) ht
      exact iff_of_false (fun hnF => hnF hF) fun hall => hQ hall.1

/-! ## Reachable states -/

/-- The states reached from a start state by enabled events. -/
inductive Reachable : σ → Prop
  | start (k : κ) : Reachable (A.start k)
  | step {s s' : σ} {e : ε} (hs : Reachable s) (he : A.step s e = some s') : Reachable s'

variable {A}

/-- An inductive invariant holds in every reachable state. -/
lemma Reachable.invariant {P : σ → Prop} {s : σ} (h : A.Reachable s) (hstart : ∀ k, P (A.start k))
    (hstep : ∀ s e s', P s → A.step s e = some s' → P s') : P s := by
  induction h with
  | start k => exact hstart k
  | step _ he ih => exact hstep _ _ _ ih he

/-- Running on from a reachable state stays among the reachable states. -/
lemma Reachable.run {s t : σ} {es : List ε} (hs : A.Reachable s) (h : A.run s es = some t) :
    A.Reachable t :=
  A.run_invariant (Q := fun _ => True) (fun _ _ _ hs _ he => hs.step he) hs (fun _ _ => trivial) h

/-- A run from a start state ends in a reachable state. -/
lemma reachable_of_run {k : κ} {t : σ} {es : List ε} (h : A.run (A.start k) es = some t) :
    A.Reachable t :=
  (Reachable.start k).run h

/-! ## Pools -/

variable (A)

/-- Any number of copies of a system side by side: `inl k` spawns a copy in the start state `k`,
`inr (i, e)` is the event `e` of copy `i`. -/
def pool : System Unit (List σ) (κ ⊕ ℕ × ε) where
  start _ := []
  step l
    | .inl k => some (l ++ [A.start k])
    | .inr (i, e) => do
      let s ← l[i]?
      let s' ← A.step s e
      return l.set i s'

/-- What a step of a larger system may do to a list of copies of `A`: leave it alone, spawn one
copy, or step one copy. -/
inductive PoolStep : List σ → List σ → Prop
  | idle (l : List σ) : PoolStep l l
  | spawn (l : List σ) (k : κ) : PoolStep l (l ++ [A.start k])
  | step {l : List σ} {i : ℕ} {s s' : σ} {e : ε} (hi : l[i]? = some s)
      (he : A.step s e = some s') : PoolStep l (l.set i s')

variable {A}

/-- Every copy stays in a state that is reachable for it alone. -/
lemma PoolStep.reachable {l l' : List σ} (h : A.PoolStep l l')
    (hl : ∀ s ∈ l, A.Reachable s) : ∀ s ∈ l', A.Reachable s := by
  cases h with
  | idle => exact hl
  | spawn k =>
    intro s hs
    rcases List.mem_append.mp hs with hs | hs
    · exact hl s hs
    · obtain rfl : s = A.start k := by simpa using hs
      exact Reachable.start k
  | step hi he =>
    intro s hs
    rcases List.mem_or_eq_of_mem_set hs with hs | rfl
    · exact hl s hs
    · exact (hl _ (List.mem_of_getElem? hi)).step he

/-- A step of the pool is a step on the list of copies. -/
lemma poolStep_of_step {l l' : List σ} {e : κ ⊕ ℕ × ε} (h : A.pool.step l e = some l') :
    A.PoolStep l l' := by
  rcases e with k | ⟨i, e⟩
  · obtain rfl : l ++ [A.start k] = l' := by simpa [pool] using h
    exact PoolStep.spawn l k
  · simp only [pool, Option.bind_eq_bind, Option.bind_eq_some_iff] at h
    obtain ⟨s, hi, s', he, hl'⟩ := h
    obtain rfl : l.set i s' = l' := by simpa using hl'
    exact PoolStep.step hi he

/-- In every reachable state of the pool, every copy is in a state reachable for it alone. -/
theorem reachable_of_mem_pool {l : List σ} (h : A.pool.Reachable l) {s : σ} (hs : s ∈ l) :
    A.Reachable s :=
  h.invariant (P := fun l => ∀ s ∈ l, A.Reachable s) (fun _ _ hs => by simp [pool] at hs)
    (fun _ _ _ ih he => (poolStep_of_step he).reachable ih) s hs

/-! ## Simulations -/

variable {κ' τ δ : Type*}

/-- The relation `R` shows that `B` can follow `A`: an event of `A` that `f` maps to one of `B` is
this event of `B`, and any other event of `A` is none of `B`. -/
def Simulates (A : System κ σ ε) (B : System κ' τ δ) (f : ε → Option δ) (R : σ → τ → Prop) : Prop :=
  ∀ s t e s', R s t → A.step s e = some s' → ∃ t', B.run t (f e).toList = some t' ∧ R s' t'

/-- A run that is followed is followed by a run of the events that count. -/
lemma Simulates.run {B : System κ' τ δ} {f : ε → Option δ} {R : σ → τ → Prop}
    (h : A.Simulates B f R) {s s' : σ} {t : τ} {es : List ε} (hR : R s t)
    (hrun : A.run s es = some s') : ∃ t', B.run t (es.filterMap f) = some t' ∧ R s' t' := by
  induction es generalizing s t with
  | nil =>
    obtain rfl : s = s' := by simpa using hrun
    exact ⟨t, rfl, hR⟩
  | cons e es ih =>
    obtain ⟨s₁, hs₁, hrun⟩ := A.run_cons_eq_some.mp hrun
    obtain ⟨t₁, ht₁, hR₁⟩ := h s t e s₁ hR hs₁
    obtain ⟨t', ht', hR'⟩ := ih hR₁ hrun
    refine ⟨t', ?_, hR'⟩
    have hsplit : (e :: es).filterMap f = (f e).toList ++ es.filterMap f := by
      cases hf : f e <;> simp [hf]
    rw [hsplit]
    exact B.run_append_eq_some.mpr ⟨t₁, ht₁, ht'⟩

end System

end Automata
