import Vsna.Websocket.Discipline

set_option relaxedAutoImplicit false
set_option autoImplicit false

/-!
# Failures and complaints

The operations that have failed in a log, and what was written to standard error about them. A
fact that only concerns the log of a session can be shown handler by handler
(`Websocket.Program.log_rule`), whatever the other operations of the session are doing.

## Main definitions

* `Websocket.failures`, `Websocket.complaints` — failed operations, and the texts written to
  standard error.

## Main results

* `Websocket.length_failures` — a chain of operations ends at its first failure.
* `Websocket.Program.log_rule` — the rule for facts about logs.
-/

namespace Websocket

variable {μ β κ : Type*}

/-- The operation that an entry says has failed, with its error. -/
def Entry.failure : Entry β → Option (OpKind × Error β)
  | .finished k (some e) => some (k, e)
  | _ => none

/-- The operations that have failed, in order. -/
def failures (log : List (Entry β)) : List (OpKind × Error β) := log.filterMap Entry.failure

/-- The text an entry writes to standard error. -/
def Entry.complaint : Entry β → Option (List β)
  | .cerr text => some text
  | _ => none

/-- The texts written to standard error, in order. -/
def complaints (log : List (Entry β)) : List (List β) := log.filterMap Entry.complaint

/-- Nothing has failed in an empty log. -/
@[simp] lemma failures_nil : failures ([] : List (Entry β)) = [] := rfl

/-- The failures in an entry, and then in a log. -/
@[simp] lemma failures_cons (e : Entry β) (log : List (Entry β)) :
    failures (e :: log) = e.failure.toList ++ failures log := by
  cases h : e.failure <;> simp [failures, h]

/-- The failures in one log after another. -/
@[simp] lemma failures_append (l₁ l₂ : List (Entry β)) :
    failures (l₁ ++ l₂) = failures l₁ ++ failures l₂ :=
  List.filterMap_append

/-- An empty log does not complain. -/
@[simp] lemma complaints_nil : complaints ([] : List (Entry β)) = [] := rfl

/-- The complaints in an entry, and then in a log. -/
@[simp] lemma complaints_cons (e : Entry β) (log : List (Entry β)) :
    complaints (e :: log) = e.complaint.toList ++ complaints log := by
  cases h : e.complaint <;> simp [complaints, h]

/-- The complaints in one log after another. -/
@[simp] lemma complaints_append (l₁ l₂ : List (Entry β)) :
    complaints (l₁ ++ l₂) = complaints l₁ ++ complaints l₂ :=
  List.filterMap_append

/-! ## Failures of a chain -/

/-- A step of the chain automaton is either a failure, which stops the chain, or no failure, which
neither stops it nor sets it going again. -/
lemma failure_of_next {st₁ st₂ : Status} {e : Entry β} (h : st₁.next e = some st₂) :
    (e.failure.isSome = true ∧ st₁ ≠ .stopped ∧ st₂ = .stopped) ∨
      (e.failure = none ∧ (st₁ = .stopped ↔ st₂ = .stopped)) := by
  cases e with
  | finished k ec =>
    cases st₁ with
    | ready => simp [Status.next] at h
    | stopped => simp [Status.next] at h
    | busy k' =>
      obtain ⟨rfl, rfl⟩ : k' = k ∧ (if ec.isNone then Status.ready else .stopped) = st₂ := by
        cases k' <;> simpa [Status.next] using h
      cases ec with
      | none => exact Or.inr ⟨rfl, by simp⟩
      | some e => exact Or.inl ⟨rfl, by simp, rfl⟩
  | started op others =>
    refine Or.inr ⟨rfl, ?_⟩
    cases others <;> cases st₁ <;> simp [Status.next] at h
    simp [← h]
  | consumed n others =>
    refine Or.inr ⟨rfl, ?_⟩
    cases others <;> cases st₁ <;> simp [Status.next] at h
    simp [← h]
  | filled bytes others =>
    refine Or.inr ⟨rfl, ?_⟩
    cases others with
    | nil =>
      cases st₁ with
      | busy k => cases k <;> simp [Status.next] at h; simp [← h]
      | _ => simp [Status.next] at h
    | cons k others => cases st₁ <;> simp [Status.next] at h
  | _ =>
    obtain rfl : st₁ = st₂ := by simpa [Status.next] using h
    exact Or.inr ⟨rfl, Iff.rfl⟩

/-- **A chain of operations ends at its first failure**: it is stopped if there has been one, and
there is never another. -/
lemma length_failures {log : List (Entry β)} {st : Status} (h : replay log = some st) :
    (failures log).length = if st = .stopped then 1 else 0 := by
  induction log using List.reverseRecOn generalizing st with
  | nil =>
    obtain rfl : Status.ready = st := by simpa using h
    rfl
  | append_singleton log e ih =>
    rw [replay_snoc, Option.bind_eq_some_iff] at h
    obtain ⟨st₁, h₁, h₂⟩ := h
    have hlen := ih h₁
    rcases failure_of_next h₂ with ⟨he, hne, rfl⟩ | ⟨he, hiff⟩
    · obtain ⟨f, hf⟩ := Option.isSome_iff_exists.mp he
      rw [if_neg hne] at hlen
      simp [hf, hlen]
    · by_cases hst : st = .stopped
      · rw [if_pos (hiff.mpr hst)] at hlen
        simp [he, hlen, hst]
      · rw [if_neg (mt hiff.mp hst)] at hlen
        simp [he, hlen, hst]

/-! ## Facts about logs -/

/-- **The rule for facts about logs**: it is to hold of the log a session starts with, not to
depend on what reads put into the buffer, and to be kept by every handler. -/
lemma Program.log_rule {P : Program κ μ β} {Q : List (Entry β) → Prop}
    (hstart : ∀ k, Q (P.start k).log)
    (hfilled : ∀ log bytes others, Q log → Q (log ++ [.filled bytes others]))
    (hhandler : ∀ s i t ec, Q s.log → Q (P.handler (Session.retire s i t ec) t.kind ec).log)
    {s : Session μ β} (h : P.system.Reachable s) : Q s.log := by
  refine h.invariant (P := fun s => Q s.log) hstart fun s e s' hs he => ?_
  cases e with
  | arrive f =>
    obtain rfl : s.arrive f = s' := Option.some.inj he
    exact hs
  | receive i =>
    obtain ⟨f, fs, -, -, rfl⟩ := Session.receive_eq_some he
    exact hfilled _ _ _ hs
  | emit i n fin =>
    obtain ⟨src, text, sent, -, -, -, rfl⟩ := Session.emit_eq_some he
    exact hs
  | complete i ec =>
    obtain ⟨⟨k, r⟩, hfin, rfl⟩ := Option.map_eq_some_iff.mp he
    obtain ⟨t, -, -, rfl, rfl⟩ := Session.finish_eq_some hfin
    exact hhandler s i t ec hs

end Websocket
