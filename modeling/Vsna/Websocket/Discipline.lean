import Vsna.Websocket.Session

set_option relaxedAutoImplicit false
set_option autoImplicit false

/-!
# One operation at a time

A session whose handlers start one operation on success and none on error runs as a chain: at
any moment it is *ready* (a handler has the floor and no operation is outstanding), *busy* with
exactly one operation, or *stopped* by an error. The log of such a session is accepted by a
three-state automaton (`Websocket.replay`), from which it follows that every operation was
started alone, that the buffer was never touched while another operation was outstanding, and
that nothing was started after an error.

## Main definitions

* `Websocket.Status`, `Websocket.replay` — the chain automaton and its run over a log.
* `Websocket.handed`, `Websocket.started`, `Websocket.printed`, `Websocket.completed` — the
  messages handed to writes, the operations started, the output, and the number of successful
  completions of an operation kind.

## Main results

* `Websocket.others_eq_nil` — nothing overlaps.
* `Websocket.quiet_after_error` — after an error only output follows.
-/

namespace Websocket

variable {μ β : Type*}

/-! ## The chain automaton -/

/-- Where a chain of operations stands. -/
inductive Status
  /-- A handler may start an operation. -/
  | ready
  /-- One operation of this kind is outstanding. -/
  | busy (k : OpKind)
  /-- An operation failed. -/
  | stopped
  deriving DecidableEq

/-- Read one log entry; `none` if it breaks the discipline. -/
def Status.next : Status → Entry β → Option Status
  | st, .cout _ => some st
  | st, .cerr _ => some st
  | st, .option _ => some st
  | .ready, .started op [] => some (.busy op.kind)
  | .ready, .consumed _ [] => some .ready
  | .busy .read, .filled _ [] => some (.busy .read)
  | .busy k, .finished k' ec =>
    if k = k' then some (if ec.isNone then .ready else .stopped) else none
  | _, _ => none

/-- Read a whole log. -/
def replay (log : List (Entry β)) : Option Status := log.foldlM Status.next .ready

/-- The empty log leaves the chain ready. -/
@[simp] lemma replay_nil : replay ([] : List (Entry β)) = some .ready := rfl

/-- Reading a log and one more entry. -/
lemma replay_snoc (log : List (Entry β)) (e : Entry β) :
    replay (log ++ [e]) = (replay log).bind fun st => st.next e := by
  simp [replay, List.foldlM_append]

/-- Every entry of an accepted log is accepted in some status. -/
lemma next_of_mem {log : List (Entry β)} {st : Status} (h : replay log = some st) {e : Entry β}
    (he : e ∈ log) : ∃ st₁ st₂ : Status, st₁.next e = some st₂ := by
  induction log using List.reverseRecOn generalizing st with
  | nil => simp at he
  | append_singleton log x ih =>
    rw [replay_snoc, Option.bind_eq_some_iff] at h
    obtain ⟨st₁, h₁, h₂⟩ := h
    rcases List.mem_append.mp he with he | he
    · exact ih h₁ he
    · obtain rfl : e = x := by simpa using he
      exact ⟨st₁, st, h₂⟩

/-- The operations that were outstanding beside the one that acts. -/
def Entry.others : Entry β → List OpKind
  | .started _ others | .filled _ others | .consumed _ others => others
  | _ => []

/-- **Nothing overlaps**: an operation was started, and the buffer was filled or consumed, only
while no other operation was outstanding. -/
lemma others_eq_nil {log : List (Entry β)} {st : Status} (h : replay log = some st)
    {e : Entry β} (he : e ∈ log) : e.others = [] := by
  obtain ⟨st₁, st₂, hn⟩ := next_of_mem h he
  cases e with
  | started op others => cases others <;> cases st₁ <;> simp_all [Status.next, Entry.others]
  | filled bytes others => cases others <;> cases st₁ <;> simp_all [Status.next, Entry.others]
  | consumed n others => cases others <;> cases st₁ <;> simp_all [Status.next, Entry.others]
  | finished => rfl
  | cout => rfl
  | cerr => rfl
  | option => rfl

/-- Entries that only write output or set options. -/
def Entry.isOutput : Entry β → Bool
  | .cout _ | .cerr _ | .option _ => true
  | _ => false

/-- A stopped chain accepts output only, and stays stopped. -/
lemma foldlM_stopped {log : List (Entry β)} {st : Status}
    (h : log.foldlM Status.next .stopped = some st) :
    st = .stopped ∧ ∀ e ∈ log, e.isOutput = true := by
  induction log with
  | nil => simpa using h.symm
  | cons e log ih =>
    rw [List.foldlM_cons] at h
    cases e <;> simp [Status.next, Entry.isOutput] at h ⊢ <;> exact ih h

/-- **After an error only output follows.** -/
lemma quiet_after_error {l₁ l₂ : List (Entry β)} {k : OpKind} {e : Error β} {st : Status}
    (h : replay (l₁ ++ .finished k (some e) :: l₂) = some st) :
    st = .stopped ∧ ∀ x ∈ l₂, x.isOutput = true := by
  rw [replay, List.foldlM_append, Option.bind_eq_bind, Option.bind_eq_some_iff] at h
  obtain ⟨st₁, -, h⟩ := h
  rw [List.foldlM_cons, Option.bind_eq_bind, Option.bind_eq_some_iff] at h
  obtain ⟨st₂, h₂, h⟩ := h
  have hst : st₂ = .stopped := by
    cases st₁ with
    | ready => simp [Status.next] at h₂
    | stopped => simp [Status.next] at h₂
    | busy k' => cases k' <;> simp [Status.next] at h₂ <;> exact h₂.2.symm
  subst hst
  exact foldlM_stopped h

/-! ## What a log says -/

/-- The message an entry hands to a write. -/
def Entry.handed : Entry β → Option (Message β)
  | .started (.write m) _ => some m
  | _ => none

/-- The messages handed to writes, in order. -/
def handed (log : List (Entry β)) : List (Message β) := log.filterMap Entry.handed

/-- The kind of the operation an entry starts. -/
def Entry.startedKind : Entry β → Option OpKind
  | .started op _ => some op.kind
  | _ => none

/-- The kinds of the operations started, in order. -/
def started (log : List (Entry β)) : List OpKind := log.filterMap Entry.startedKind

/-- The text an entry writes to standard output. -/
def Entry.printedText : Entry β → Option (List β)
  | .cout text => some text
  | _ => none

/-- The texts written to standard output, in order. -/
def printed (log : List (Entry β)) : List (List β) := log.filterMap Entry.printedText

/-- Is this the success of an operation of kind `k`? -/
def Entry.succeeded (k : OpKind) : Entry β → Bool
  | .finished k' none => decide (k = k')
  | _ => false

/-- The number of successful completions of operations of kind `k`. -/
def completed (k : OpKind) (log : List (Entry β)) : ℕ := log.countP (Entry.succeeded k)

/-- An empty log hands no message. -/
@[simp] lemma handed_nil : handed ([] : List (Entry β)) = [] := rfl

/-- The messages handed by an entry, and then by a log. -/
@[simp] lemma handed_cons (e : Entry β) (log : List (Entry β)) :
    handed (e :: log) = e.handed.toList ++ handed log := by
  cases h : e.handed <;> simp [handed, h]

/-- The messages handed by one log after another. -/
@[simp] lemma handed_append (l₁ l₂ : List (Entry β)) :
    handed (l₁ ++ l₂) = handed l₁ ++ handed l₂ :=
  List.filterMap_append

/-- An empty log starts no operation. -/
@[simp] lemma started_nil : started ([] : List (Entry β)) = [] := rfl

/-- The operations started by an entry, and then by a log. -/
@[simp] lemma started_cons (e : Entry β) (log : List (Entry β)) :
    started (e :: log) = e.startedKind.toList ++ started log := by
  cases h : e.startedKind <;> simp [started, h]

/-- The operations started by one log after another. -/
@[simp] lemma started_append (l₁ l₂ : List (Entry β)) :
    started (l₁ ++ l₂) = started l₁ ++ started l₂ :=
  List.filterMap_append

/-- An empty log prints nothing. -/
@[simp] lemma printed_nil : printed ([] : List (Entry β)) = [] := rfl

/-- The texts printed by an entry, and then by a log. -/
@[simp] lemma printed_cons (e : Entry β) (log : List (Entry β)) :
    printed (e :: log) = e.printedText.toList ++ printed log := by
  cases h : e.printedText <;> simp [printed, h]

/-- The texts printed by one log after another. -/
@[simp] lemma printed_append (l₁ l₂ : List (Entry β)) :
    printed (l₁ ++ l₂) = printed l₁ ++ printed l₂ :=
  List.filterMap_append

/-- Nothing is completed in an empty log. -/
@[simp] lemma completed_nil (k : OpKind) : completed k ([] : List (Entry β)) = 0 := rfl

/-- The completions in an entry, and then in a log. -/
@[simp] lemma completed_cons (k : OpKind) (e : Entry β) (log : List (Entry β)) :
    completed k (e :: log) = completed k log + if e.succeeded k then 1 else 0 :=
  List.countP_cons

/-- The completions in one log after another. -/
@[simp] lemma completed_append (k : OpKind) (l₁ l₂ : List (Entry β)) :
    completed k (l₁ ++ l₂) = completed k l₁ + completed k l₂ :=
  List.countP_append

end Websocket
