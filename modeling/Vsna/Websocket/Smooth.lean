import Vsna.Websocket.Failures
import Vsna.Websocket.Orderly

set_option relaxedAutoImplicit false
set_option autoImplicit false

/-!
# Sessions on which nothing fails

What can happen to an orderly session as long as no operation fails, and what it takes for something
to happen: an operation that waits neither for the peer to do its part in a handshake nor for a
message can go on by itself.

A stream could send empty frames that are not final without end. It does not do so, and such events
are left out with the failures.

## Main definitions

* `Websocket.Event.smooth` — events that are no failures and send no empty frames.
* `Websocket.Session.permits` — the same, with a condition on the operations that may complete.
* `Websocket.Session.load` — what the frames on the way cost.

## Main results

* `Websocket.Program.smooth_cases` — what a smooth event of an orderly session is.
* `Websocket.Program.failures_step` — smooth events add no failure.
* `Websocket.Program.exists_step_of_busy` — when a session can go on by itself.
-/

namespace Websocket

variable {μ β κ : Type*}

/-! ## Events -/

/-- Is the event neither a failure, nor the sending of an empty frame that is not final? -/
def Event.smooth : Event β → Bool
  | .complete _ ec => ec.isNone
  | .emit _ n fin => n ≠ 0 || fin
  | _ => true

/-- Is the event possible if nothing fails, and if only those operations complete that are `ready`
to? A stream sends no empty frame that is not final. -/
def Session.permits (s : Session μ β) (ready : Task β → Bool) : Event β → Bool
  | .complete i none => (s.pending[i]?).all ready
  | .complete _ (some _) => false
  | .emit _ n fin => n ≠ 0 || fin
  | _ => true

/-- Such events are smooth. -/
lemma Session.smooth_of_permits {s : Session μ β} {ready : Task β → Bool} {e : Event β}
    (h : s.permits ready e = true) : e.smooth = true := by
  cases e with
  | complete i ec => cases ec <;> simp_all [permits, Event.smooth]
  | _ => exact h

/-- An operation that completes is ready to. -/
lemma Session.ready_of_permits {s : Session μ β} {ready : Task β → Bool} {t : Task β}
    (h : s.permits ready (.complete 0 none) = true) (hb : s.Busy t) : ready t = true := by
  simpa [permits, hb.pending] using h

/-! ## Sessions -/

/-- What the frames on the way cost: two for each frame sent, which is to be delivered and then
taken, and one for each that has been delivered. -/
def Session.load (s : Session μ β) : ℕ := 2 * s.outbound.length + s.inbound.length

/-- A handler leaves the frames on the way alone. -/
lemma Session.Handled.load {s s' : Session μ β} (h : s.Handled s') : s'.load = s.load := by
  rw [Session.load, h.outbound, h.inbound, Session.load]

/-- One message is handed for each write that is started. -/
lemma length_handed (log : List (Entry β)) :
    (handed log).length = (started log).count .write := by
  induction log with
  | nil => rfl
  | cons e log ih =>
    rw [handed_cons, started_cons, List.length_append, List.count_append, ih]
    congr 1
    cases e with
    | started op others => cases op <;> rfl
    | _ => rfl

/-- While an operation is outstanding no handler has the floor. -/
lemma Session.Busy.replay_ne {s : Session μ β} {t : Task β} (h : s.Busy t) :
    replay s.log ≠ some .ready := by
  rw [h.log]
  simp

/-- After an error no handler has the floor. -/
lemma Session.Stopped.replay_ne {s : Session μ β} (h : s.Stopped) :
    replay s.log ≠ some .ready := by
  rw [h.log]
  simp

/-! ## Programs -/

namespace Program

variable {P : Program κ μ β} {s s' : Session μ β}

/-- What a smooth event of an orderly session is, other than an arrival: the one outstanding
operation takes a frame, sends a frame, or completes. -/
lemma smooth_cases (h : s.Orderly) {e : Event β} (he : e.isArrival = false)
    (hsmooth : e.smooth = true) (hstep : P.step s e = some s') :
    (∃ f fs, s.Busy (.read false) ∧ s.inbound = f :: fs ∧ s' = s.take 0 f fs) ∨
      (∃ src text sent n fin, s.Busy (.write src text sent false) ∧
        sent + n ≤ (src.bytes s.buffer).length ∧ (n ≠ 0 ∨ fin = true) ∧
        s' = s.send 0 src text sent n fin) ∨
      ∃ t, s.Busy t ∧ t.done = true ∧ e = .complete 0 none ∧
        s' = P.handler (s.retire 0 t none) t.kind none := by
  cases e with
  | arrive f => simp [Event.isArrival] at he
  | receive i =>
    obtain ⟨f, fs, hp, hin, rfl⟩ := Session.receive_eq_some hstep
    obtain ⟨rfl, hb⟩ := h.busy hp
    exact Or.inl ⟨f, fs, hb, hin, rfl⟩
  | emit i n fin =>
    obtain ⟨src, text, sent, hp, hn, -, rfl⟩ := Session.emit_eq_some hstep
    obtain ⟨rfl, hb⟩ := h.busy hp
    exact Or.inr (Or.inl ⟨src, text, sent, n, fin, hb, hn, by simpa [Event.smooth] using hsmooth,
      rfl⟩)
  | complete i ec =>
    obtain rfl : ec = none := by simpa [Event.smooth] using hsmooth
    obtain ⟨⟨k, r⟩, hfin, rfl⟩ := Option.map_eq_some_iff.mp hstep
    obtain ⟨t, hp, hdone, rfl, rfl⟩ := Session.finish_eq_some hfin
    obtain ⟨rfl, hb⟩ := h.busy hp
    exact Or.inr (Or.inr ⟨t, hb, hdone rfl, rfl, rfl⟩)

/-- A smooth event adds no failure to the log, if no handler that is called with success does. -/
lemma failures_step
    (hP : ∀ s i t, failures (P.handler (Session.retire s i t none) t.kind none).log =
      failures s.log)
    (h : s.Orderly) {e : Event β} (he : e.isArrival = false) (hsmooth : e.smooth = true)
    (hstep : P.step s e = some s') : failures s'.log = failures s.log := by
  rcases smooth_cases h he hsmooth hstep with
    ⟨f, fs, -, -, rfl⟩ | ⟨src, text, sent, n, fin, -, -, -, rfl⟩ | ⟨t, -, -, -, rfl⟩
  · simp [Entry.failure]
  · rfl
  · exact hP s 0 t

/-- Completing the one outstanding operation. -/
lemma step_complete {t : Task β} (h : s.Busy t) (ht : t.done = true) :
    P.step s (.complete 0 none) = some (P.handler (s.retire 0 t none) t.kind none) := by
  simp [step, Session.finish, h.pending, ht]

/-- Sending what is left of the one message that is being written. -/
lemma exists_step_emit {src : Source β} {text : Bool} {sent : ℕ}
    (h : s.Busy (.write src text sent false)) :
    ∃ n s', P.step s (.emit 0 n true) = some s' := by
  have hle := h.sides.2.sent_le
  obtain ⟨n, hn⟩ : ∃ n, sent + n = (src.bytes s.buffer).length := ⟨_, Nat.add_sub_of_le hle⟩
  exact ⟨n, s.send 0 src text sent n true, by simp [step, Session.emit, h.pending, hn]⟩

/-- Taking the next frame that has arrived. -/
lemma step_receive (h : s.Busy (.read false)) {f : Frame β} {fs : List (Frame β)}
    (hin : s.inbound = f :: fs) : P.step s (.receive 0) = some (s.take 0 f fs) := by
  simp [step, Session.receive, h.pending, hin]

/-- A session that is busy can go on, unless it is not ready to complete, or waits for a message of
which nothing has arrived. -/
lemma exists_step_of_busy {t : Task β} {ready : Task β → Bool} (hb : s.Busy t)
    (hready : ready t = true) (hnot : ¬ (t = .read false ∧ s.inbound = [])) :
    ∃ e s', e.isArrival = false ∧ s.permits ready e = true ∧ P.step s e = some s' := by
  by_cases hdone : t.done = true
  · exact ⟨_, _, rfl, by simp [Session.permits, hb.pending, hready],
      step_complete hb hdone⟩
  · cases t with
    | write src text sent fin =>
      obtain rfl : fin = false := by simpa [Task.done] using hdone
      obtain ⟨n, s', hs'⟩ := exists_step_emit (P := P) hb
      exact ⟨_, s', rfl, by simp [Session.permits], hs'⟩
    | read whole =>
      obtain rfl : whole = false := by simpa [Task.done] using hdone
      cases hin : s.inbound with
      | nil => exact absurd ⟨rfl, hin⟩ hnot
      | cons f fs => exact ⟨_, _, rfl, rfl, step_receive hb hin⟩
    | _ => exact absurd rfl hdone

end Program

end Websocket
