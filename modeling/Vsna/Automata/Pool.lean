import Mathlib.Data.List.Basic
import Vsna.Automata.System

set_option relaxedAutoImplicit false
set_option autoImplicit false

/-!
# Schedules of a pool

The events of a pool (`Automata.System.pool`) are the events of its copies in some order, with the
spawns in between. Such a *schedule* is put together from the starting states in the order of the
spawns and, for every copy, the sequence of its own events. This module shows that nothing else
of the schedule matters: it can be run exactly if every event comes after the spawn of its copy
and every copy alone can run its own events, and the pool ends in the states the copies end in.

## Main definitions

* `Automata.spawns`, `Automata.eventsOf` — what a schedule is put together from.
* `Automata.Addressed` — every event comes after the spawn of its copy.

## Main results

* `Automata.System.pool_run_eq_some_iff` — a run of the pool is a run of every copy alone.
* `Automata.System.pool_run_reorder` — any reordering of a run is a run to the same end.
-/

namespace Automata

variable {κ σ ε : Type*}

/-! ## Schedules -/

/-- The start state of a copy that an event spawns. -/
def spawned : κ ⊕ ℕ × ε → Option κ
  | .inl k => some k
  | .inr _ => none

/-- The event of copy `i` that an event of the pool is, if it is one. -/
def eventOf (i : ℕ) : κ ⊕ ℕ × ε → Option ε
  | .inl _ => none
  | .inr (j, e) => if j = i then some e else none

/-- The starts of the copies that a schedule spawns, in order. -/
def spawns (es : List (κ ⊕ ℕ × ε)) : List κ := es.filterMap spawned

/-- The events of copy `i` in a schedule, in order. -/
def eventsOf (i : ℕ) (es : List (κ ⊕ ℕ × ε)) : List ε := es.filterMap (eventOf i)

/-- With `n` copies to begin with, every event comes after the spawn of its copy. -/
def Addressed : ℕ → List (κ ⊕ ℕ × ε) → Prop
  | _, [] => True
  | n, .inl _ :: es => Addressed (n + 1) es
  | n, .inr (i, _) :: es => i < n ∧ Addressed n es

/-- An empty schedule spawns nothing. -/
@[simp] lemma spawns_nil : spawns ([] : List (κ ⊕ ℕ × ε)) = [] := rfl

/-- A spawn, and what follows it. -/
@[simp] lemma spawns_inl (k : κ) (es : List (κ ⊕ ℕ × ε)) :
    spawns (.inl k :: es) = k :: spawns es := rfl

/-- An event of a copy spawns nothing. -/
@[simp] lemma spawns_inr (r : ℕ × ε) (es : List (κ ⊕ ℕ × ε)) :
    spawns (.inr r :: es) = spawns es := rfl

/-- The spawns of one schedule after another. -/
@[simp] lemma spawns_append (es fs : List (κ ⊕ ℕ × ε)) :
    spawns (es ++ fs) = spawns es ++ spawns fs :=
  List.filterMap_append

/-- An empty schedule has no events. -/
@[simp] lemma eventsOf_nil (i : ℕ) : eventsOf i ([] : List (κ ⊕ ℕ × ε)) = [] := rfl

/-- A spawn is no event of a copy. -/
@[simp] lemma eventsOf_inl (i : ℕ) (k : κ) (es : List (κ ⊕ ℕ × ε)) :
    eventsOf i (.inl k :: es) = eventsOf i es := rfl

/-- An event of copy `i` itself. -/
@[simp] lemma eventsOf_inr_self (i : ℕ) (e : ε) (es : List (κ ⊕ ℕ × ε)) :
    eventsOf i (.inr (i, e) :: es) = e :: eventsOf i es := by
  simp [eventsOf, eventOf]

/-- An event of another copy. -/
lemma eventsOf_inr_of_ne {i j : ℕ} (h : j ≠ i) (e : ε) (es : List (κ ⊕ ℕ × ε)) :
    eventsOf i (.inr (j, e) :: es) = eventsOf i es := by
  simp [eventsOf, eventOf, h]

/-- The events in one schedule after another. -/
@[simp] lemma eventsOf_append (i : ℕ) (es fs : List (κ ⊕ ℕ × ε)) :
    eventsOf i (es ++ fs) = eventsOf i es ++ eventsOf i fs :=
  List.filterMap_append

/-! ## Runs of a pool -/

namespace System

variable (A : System κ σ ε) {l l' : List σ} {es fs : List (κ ⊕ ℕ × ε)}

/-- Spawns append copies. -/
lemma pool_run_spawns (l : List σ) (ks : List κ) (es : List (κ ⊕ ℕ × ε)) :
    A.pool.run l (ks.map .inl ++ es) = A.pool.run (l ++ ks.map A.start) es := by
  induction ks generalizing l with
  | nil => rw [List.map_nil, List.map_nil, List.nil_append, List.append_nil]
  | cons k ks ih =>
    have hstep : A.pool.step l (.inl k) = some (l ++ [A.start k]) := rfl
    rw [List.map_cons, List.cons_append, run_cons, hstep, Option.bind_some, ih,
      List.append_assoc, List.singleton_append, List.map_cons]

/-- **A run of the pool is a run of every copy alone**, on the sequence of its own events.

**Proof sketch.** Induction on the schedule. A spawn appends a copy, which from then on is one of
those to begin with. An event steps the one copy it is addressed to, and is the first of its
events. -/
lemma pool_run_eq_some_iff :
    A.pool.run l es = some l' ↔ Addressed l.length es ∧
      l'.length = l.length + (spawns es).length ∧
      ∀ i, l'[i]? = (l ++ (spawns es).map A.start)[i]?.bind (A.run · (eventsOf i es)) := by
  induction es generalizing l with
  | nil =>
    simp only [run_nil, Option.some.injEq, Addressed, spawns_nil, List.length_nil, Nat.add_zero,
      List.map_nil, List.append_nil, eventsOf_nil, true_and]
    constructor
    · rintro rfl
      exact ⟨rfl, fun i => by cases l[i]? <;> rfl⟩
    · rintro ⟨-, h⟩
      refine List.ext_getElem? fun i => ?_
      rw [h i]
      cases l[i]? <;> rfl
  | cons e es ih =>
    rcases e with k | ⟨j, e⟩
    · -- a copy is spawned
      have hstep : A.pool.step l (.inl k) = some (l ++ [A.start k]) := rfl
      rw [run_cons, hstep, Option.bind_some, ih]
      simp only [Addressed, List.length_append, List.length_cons, List.length_nil, spawns_inl,
        List.map_cons, List.append_assoc, List.singleton_append, eventsOf_inl]
      refine and_congr Iff.rfl (and_congr ?_ Iff.rfl)
      omega
    · rw [run_cons, Addressed, spawns_inr]
      by_cases hj : j < l.length
      · -- copy `j` takes a step, if it can
        have hstep : A.pool.step l (.inr (j, e)) =
            (A.step l[j] e).map fun s' => l.set j s' := by
          simp only [pool, List.getElem?_eq_getElem hj, Option.bind_eq_bind, Option.bind_some]
          cases A.step l[j] e <;> rfl
        have hself : ∀ M : List σ, (l ++ M)[j]? = some l[j] := fun M => by
          rw [List.getElem?_append_left hj, List.getElem?_eq_getElem hj]
        rw [hstep]
        cases hs : A.step l[j] e with
        | none =>
          refine iff_of_false (by simp) ?_
          rintro ⟨-, hlen, hall⟩
          have hnone : l'[j]? = none := by
            rw [hall j, hself, eventsOf_inr_self, Option.bind_some, run_cons, hs]
            rfl
          rw [List.getElem?_eq_none_iff] at hnone
          omega
        | some s' =>
          rw [Option.map_some, Option.bind_some, ih, List.length_set]
          simp only [hj, true_and]
          refine and_congr Iff.rfl (and_congr Iff.rfl (forall_congr' fun i => ?_))
          by_cases hij : j = i
          · subst hij
            rw [hself, eventsOf_inr_self, Option.bind_some, run_cons, hs, Option.bind_some,
              List.getElem?_append_left (by simpa using hj), List.getElem?_set_self hj,
              Option.bind_some]
          · rw [eventsOf_inr_of_ne hij]
            have hset : (l.set j s' ++ (spawns es).map A.start)[i]? =
                (l ++ (spawns es).map A.start)[i]? := by
              rw [List.getElem?_append, List.getElem?_append, List.length_set,
                List.getElem?_set_ne hij]
            rw [hset]
      · -- there is no copy `j` yet
        have hstep : A.pool.step l (.inr (j, e)) = none := by
          simp only [pool, List.getElem?_eq_none (Nat.not_lt.mp hj), Option.bind_eq_bind,
            Option.bind_none]
        rw [hstep]
        exact iff_of_false (by simp) fun h => hj h.1.1

/-- In a run of the pool every event comes after the spawn of its copy. -/
lemma addressed_of_pool_run (h : A.pool.run l es = some l') : Addressed l.length es :=
  (A.pool_run_eq_some_iff.mp h).1

/-- What a copy ends in is what it ends in alone. -/
lemma getElem?_of_pool_run (h : A.pool.run l es = some l') (i : ℕ) :
    l'[i]? = (l ++ (spawns es).map A.start)[i]?.bind (A.run · (eventsOf i es)) :=
  (A.pool_run_eq_some_iff.mp h).2.2 i

/-- **Any reordering of a run is a run to the same end**, as long as the copies are spawned in the
same order, every copy has the same events in the same order, and no event comes before the
spawn of its copy. -/
lemma pool_run_reorder (h : A.pool.run l es = some l') (hspawns : spawns fs = spawns es)
    (hevents : ∀ i, eventsOf i fs = eventsOf i es) (haddr : Addressed l.length fs) :
    A.pool.run l fs = some l' := by
  obtain ⟨-, hlen, hall⟩ := A.pool_run_eq_some_iff.mp h
  refine A.pool_run_eq_some_iff.mpr ⟨haddr, by rw [hspawns]; exact hlen, fun i => ?_⟩
  rw [hspawns, hevents i]
  exact hall i

end System

end Automata
