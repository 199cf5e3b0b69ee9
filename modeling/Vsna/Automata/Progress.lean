import Mathlib.Data.Nat.Init
import Mathlib.Order.Basic
import Vsna.Automata.System

set_option relaxedAutoImplicit false
set_option autoImplicit false

/-!
# Runs that come to an end

Termination by a measure. If every event of a certain kind lowers a natural number, then a run of
such events is no longer than the number it starts with, and every such run can be continued to
one that no event of the kind continues.

## Main results

* `Automata.System.length_le_of_run` — a run is bounded by the measure.
* `Automata.System.exists_maximal_run` — a run that cannot be continued exists.
-/

namespace Automata

namespace System

variable {κ σ ε : Type*} {A : System κ σ ε} {P : σ → Prop} {Q : ε → Prop} {m : σ → ℕ}

/-- Events that meet `Q` keep `P` and lower the measure `m`. -/
def Lowers (A : System κ σ ε) (P : σ → Prop) (Q : ε → Prop) (m : σ → ℕ) : Prop :=
  ∀ s e s', P s → Q e → A.step s e = some s' → P s' ∧ m s' < m s

/-- Along a run whose events meet `Q` the property is kept. -/
lemma Lowers.run (h : A.Lowers P Q m) {s t : σ} {es : List ε} (hs : P s) (hes : ∀ e ∈ es, Q e)
    (hrun : A.run s es = some t) : P t :=
  A.run_invariant (fun s e s' hs he hstep => (h s e s' hs he hstep).1) hs hes hrun

/-- **A run is bounded by the measure**: it takes at most as many events as it is lowered by. -/
lemma length_le_of_run (h : A.Lowers P Q m) {s t : σ} {es : List ε} (hs : P s)
    (hes : ∀ e ∈ es, Q e) (hrun : A.run s es = some t) : m t + es.length ≤ m s := by
  induction es generalizing s with
  | nil =>
    obtain rfl : s = t := by simpa using hrun
    simp
  | cons e es ih =>
    obtain ⟨s', hs', hrun'⟩ := A.run_cons_eq_some.mp hrun
    obtain ⟨hP, hlt⟩ := h s e s' hs (hes e (by simp)) hs'
    have hle := ih hP (fun f hf => hes f (by simp [hf])) hrun'
    rw [List.length_cons]
    omega

/-- **A run that cannot be continued exists** from every state.

**Proof sketch.** Strong induction on the measure. If an event is enabled, it leads to a state with
a lower one. -/
lemma exists_maximal_run (h : A.Lowers P Q m) {s : σ} (hs : P s) :
    ∃ es t, A.run s es = some t ∧ (∀ e ∈ es, Q e) ∧ ∀ e, Q e → A.step t e = none := by
  induction hm : m s using Nat.strong_induction_on generalizing s with
  | _ n ih =>
    by_cases hstuck : ∀ e, Q e → A.step s e = none
    · exact ⟨[], s, rfl, by simp, hstuck⟩
    · obtain ⟨e, he, hne⟩ : ∃ e, Q e ∧ A.step s e ≠ none := by simpa using hstuck
      obtain ⟨s', hs'⟩ := Option.ne_none_iff_exists'.mp hne
      obtain ⟨hP, hlt⟩ := h s e s' hs he hs'
      obtain ⟨es, t, hrun, hes, ht⟩ := ih (m s') (hm ▸ hlt) hP rfl
      refine ⟨e :: es, t, A.run_cons_eq_some.mpr ⟨s', hs', hrun⟩, ?_, ht⟩
      rintro f hf
      rcases List.mem_cons.mp hf with rfl | hf
      · exact he
      · exact hes f hf

end System

end Automata
