import Vsna.Common.Env
import Vsna.Common.Utils

set_option relaxedAutoImplicit false
set_option autoImplicit false

/-!
# `ServerSession`

The class `ServerSession` of `server/session.h` and `server/session.cpp`: it accepts the
websocket handshake on a socket and then echoes every message it reads.

## Main definitions

* `Vsna.Socket`, `Vsna.ServerSession` — an accepted socket, and a session on it.
* `Vsna.ServerSession.run`, `onAccept`, `doRead`, `onRead`, `onWrite` — the class.
* `Vsna.ServerSession.program` — its transition system.
* `Vsna.ServerSession.EchoInv`, `EchoContract` — the invariant of the echo protocol, and what it
  promises.

## Main results

* `Vsna.ServerSession.ran_of_reachable` — every session was run.
* `Vsna.ServerSession.echoInv_of_reachable` — the invariant holds in every reachable state.
* `Vsna.ServerSession.EchoInv.contract` — it implies the protocol.
-/

namespace Vsna

open Text Websocket

/-- A socket that was accepted. `on_accept` calls `remote_endpoint()` twice, and each call may
throw a `system_error`, since the peer can be gone by then. -/
structure Socket where
  /-- The result of the first call. -/
  remote₁ : Except Str TcpEndpoint
  /-- The result of the second call. -/
  remote₂ : Except Str TcpEndpoint
  deriving DecidableEq

/-- Is the peer gone when `on_accept` asks for it? -/
def Socket.gone (k : Socket) : Bool := !k.remote₁.toBool || !k.remote₂.toBool

/-- If the peer is there, both calls return. -/
lemma Socket.eq_of_gone_eq_false {k : Socket} (hk : k.gone = false) :
    ∃ ep₁ ep₂, k = ⟨.ok ep₁, .ok ep₂⟩ := by
  obtain ⟨_ | ep₁, _ | ep₂⟩ := k
  · simp [gone, Except.toBool] at hk
  · simp [gone, Except.toBool] at hk
  · simp [gone, Except.toBool] at hk
  · exact ⟨ep₁, ep₂, rfl⟩

/-- A `ServerSession`: its only member beside stream and buffer is the socket in the stream. -/
abbrev ServerSession := Session Socket UInt8

namespace ServerSession

/-! ## The class -/

/-- `run()`. -/
def run (s : ServerSession) : ServerSession :=
  ((s.setOption (.suggestedTimeout false)).setOption
    (.decorator "Server" " websocket-server-async")).asyncAccept

/-- `do_read`. -/
def doRead (s : ServerSession) : ServerSession := s.asyncRead

/-- `on_accept`. -/
def onAccept (s : ServerSession) : ErrorCode UInt8 → ServerSession
  | some e => s.fail e "accept"
  | none => doRead s

/-- `on_read`. -/
def onRead (s : ServerSession) : ErrorCode UInt8 → ServerSession
  | some e => if e.kind = .closed then s else s.fail e "read"
  | none =>
    ((s.cout ("Received: " ++ s.buffer ++ "\n")).setText s.gotText).asyncWriteBuffer

/-- `on_write`. -/
def onWrite (s : ServerSession) : ErrorCode UInt8 → ServerSession
  | some e => s.fail e "write"
  | none => doRead (s.consume s.buffer.length)

/-- The handler that is bound to each operation the class starts. -/
def handler (s : ServerSession) : OpKind → ErrorCode UInt8 → ServerSession
  | .accept, ec => onAccept s ec
  | .read, ec => onRead s ec
  | .write, ec => onWrite s ec
  | _, _ => s

/-- Sessions are made of an accepted socket, and run. -/
def program : Program Socket Socket UInt8 where
  start socket := run { members := socket }
  handler := handler

/-- The handlers leave alone what is not theirs. -/
lemma proper_program : program.Proper := by
  intro s k ec
  cases k with
  | accept =>
    cases ec with
    | none => exact s.handled_begin _ _
    | some e => exact s.handled_fail e "accept"
  | read =>
    cases ec with
    | none =>
      exact ((s.handled_note _).trans (Session.handled_setText _ _)).trans
        (Session.handled_begin _ _ _)
    | some e =>
      change s.Handled (if e.kind = .closed then s else s.fail e "read")
      split_ifs
      · exact .refl s
      · exact s.handled_fail e "read"
  | write =>
    cases ec with
    | none => exact (s.handled_consume _).trans (Session.handled_begin _ _ _)
    | some e => exact s.handled_fail e "write"
  | _ => exact .refl s

/-- The session was run on its socket: its log begins as `run` makes it begin. -/
def Ran (s : ServerSession) : Prop := (program.start s.members).log <+: s.log

/-- Every session that was created by `program` was run. -/
lemma ran_of_reachable {s : ServerSession} (h : program.system.Reachable s) : Ran s := by
  refine h.invariant (P := Ran) (fun _ => List.prefix_rfl) fun s e s' hs he => ?_
  obtain ⟨hlog, -, hmem⟩ := proper_program.step he
  exact (show (program.start s'.members).log <+: s.log from hmem ▸ hs).trans hlog

/-! ## The echo protocol -/

/-- Successful reads so far. -/
def reads (s : ServerSession) : ℕ := completed .read s.log

/-- Successful writes so far. -/
def writes (s : ServerSession) : ℕ := completed .write s.log

/-- What the outstanding operation says about the numbers of reads and writes. -/
def Phase (s : ServerSession) : Websocket.Task UInt8 → Prop
  | .accept => s.buffer = [] ∧ reads s = writes s
  | .read _ => reads s = writes s
  | .write _ _ _ _ => reads s = writes s + 1
  | _ => False

/-- The invariant of the echo protocol: an orderly session that has handed to writes exactly the
messages whose reads have completed. -/
structure EchoInv (s : ServerSession) : Prop where
  orderly : s.Orderly
  handed : handed s.log = (assemble s.taken).complete.take (reads s)
  balance : writes s ≤ reads s ∧ reads s ≤ writes s + 1
  phase : ∀ t ∈ s.pending, Phase s t

variable {s s' : ServerSession}

/-- A session that has just been created and run. -/
lemma echoInv_start (socket : Socket) : EchoInv (program.start socket) := by
  have h₀ : Session.Ready ({ members := socket } : ServerSession) :=
    ⟨rfl, rfl, ⟨rfl, rfl, rfl⟩, rfl⟩
  have hrun : (program.start socket).Busy .accept :=
    ((h₀.note rfl).note rfl).begin_plain rfl rfl
  refine ⟨Or.inr (Or.inr ⟨_, hrun⟩), rfl, ⟨le_rfl, Nat.zero_le _⟩, fun t ht => ?_⟩
  rw [hrun.pending, List.mem_singleton] at ht
  exact ht ▸ ⟨rfl, rfl⟩

/-- The arrival of a frame keeps the invariant. -/
lemma EchoInv.arrive (h : EchoInv s) (f : Frame UInt8) : EchoInv (s.arrive f) :=
  ⟨h.orderly.arrive f, h.handed, h.balance, fun t ht => by
    have := h.phase t ht
    cases t <;> exact this⟩

/-- A read that takes a frame keeps the invariant. -/
lemma EchoInv.take (h : EchoInv s) {f : Frame UInt8} {fs : List (Frame UInt8)}
    (hb : s.Busy (.read false)) (hb' : (s.take 0 f fs).Busy (.read f.fin)) :
    EchoInv (s.take 0 f fs) := by
  have hr : reads (s.take 0 f fs) = reads s := by simp [reads, Entry.succeeded]
  have hw : writes (s.take 0 f fs) = writes s := by simp [writes, Entry.succeeded]
  refine ⟨Or.inr (Or.inr ⟨_, hb'⟩), ?_, ?_, fun t ht => ?_⟩
  · obtain ⟨ms, hms⟩ : (assemble s.taken).complete <+: (assemble (s.taken ++ [f])).complete :=
      prefix_assemble_complete (List.prefix_append _ _)
    have hh : Websocket.handed (s.take 0 f fs).log = Websocket.handed s.log := by
      simp [Entry.handed]
    rw [hr, hh, h.handed, Session.take, ← hms]
    exact (List.take_append_of_le_length h.orderly.completed_le).symm
  · rw [hr, hw]
    exact h.balance
  · rw [hb'.pending, List.mem_singleton] at ht
    subst ht
    have := h.phase (.read false) (by simp [hb.pending])
    simpa only [Phase, hr, hw] using this

/-- A write that sends a frame keeps the invariant. -/
lemma EchoInv.send (h : EchoInv s) {src : Source UInt8} {text : Bool} {sent n : ℕ} {fin : Bool}
    (hb : s.Busy (.write src text sent false))
    (hb' : (s.send 0 src text sent n fin).Busy (.write src text (sent + n) fin)) :
    EchoInv (s.send 0 src text sent n fin) := by
  refine ⟨Or.inr (Or.inr ⟨_, hb'⟩), h.handed, h.balance, fun t ht => ?_⟩
  rw [hb'.pending, List.mem_singleton] at ht
  exact ht ▸ h.phase (.write src text sent false) (by simp [hb.pending])

/-- A session that is stopped has an echo invariant if the log says so. -/
lemma EchoInv.fail (h : EchoInv s) (hs : s.Stopped) (e : Error UInt8) (op : Str) :
    EchoInv (s.fail e op) := by
  unfold Session.fail
  split
  · exact h
  · next text _ =>
    refine ⟨Or.inr (Or.inl (hs.note rfl)), ?_, ?_, ?_⟩
    · simpa [Session.cerr, reads, Entry.handed, Entry.succeeded] using h.handed
    · simpa [Session.cerr, reads, writes, Entry.succeeded] using h.balance
    · simp [Session.cerr, hs.pending]

/-- An operation that ends in an error keeps the invariant. -/
lemma EchoInv.error (h : EchoInv s) {t : Websocket.Task UInt8} {e : Error UInt8}
    (hst : (s.retire 0 t (some e)).Stopped) :
    EchoInv (handler (s.retire 0 t (some e)) t.kind (some e)) := by
  have hinv : EchoInv (s.retire 0 t (some e)) := by
    refine ⟨Or.inr (Or.inl hst), ?_, ?_, by simp [hst.pending]⟩
    · simpa [reads, Entry.handed, Entry.succeeded] using h.handed
    · simpa [reads, writes, Entry.succeeded] using h.balance
  cases t with
  | accept => exact hinv.fail hst e _
  | read whole =>
    simp only [Task.kind, handler, onRead]
    split_ifs
    · exact hinv
    · exact hinv.fail hst e _
  | write src text sent fin => exact hinv.fail hst e _
  | _ => exact hinv

/-- Reading on, with the floor and an empty buffer, once every message that was read has been
written. -/
lemma echoInv_doRead (hs : s.Ready) (hbuf : s.buffer = [])
    (hh : Websocket.handed s.log = (assemble s.taken).complete.take (reads s))
    (hrw : reads s = writes s) : EchoInv (doRead s) := by
  have hbusy := hs.asyncRead hbuf
  have hr : reads (doRead s) = reads s := by
    simp [reads, doRead, Session.asyncRead, Entry.succeeded]
  have hw : writes (doRead s) = writes s := by
    simp [writes, doRead, Session.asyncRead, Entry.succeeded]
  refine ⟨Or.inr (Or.inr ⟨_, hbusy⟩), ?_, by omega, fun t ht => ?_⟩
  · rw [hr, doRead, Session.asyncRead, Session.begin]
    simpa [Entry.handed] using hh
  · rw [doRead, hbusy.pending, List.mem_singleton] at ht
    subst ht
    simpa only [Phase, hr, hw] using hrw

/-- Reading on after a write: the handler has consumed all of the buffer. -/
lemma echoInv_onWrite (hs : s.Ready)
    (hh : Websocket.handed s.log = (assemble s.taken).complete.take (reads s))
    (hrw : reads s = writes s) : EchoInv (onWrite s none) := by
  have hr : reads (s.consume s.buffer.length) = reads s := by
    simp [reads, Entry.succeeded]
  have hw : writes (s.consume s.buffer.length) = writes s := by
    simp [writes, Entry.succeeded]
  refine echoInv_doRead (hs.consume s.buffer.length) ?_ ?_ (by omega)
  · simp [Session.consume]
  · rw [hr]
    simpa [Entry.handed] using hh

/-- Echoing, with the floor, the message that was read last, which is what the buffer holds. -/
lemma echoInv_onRead (hs : s.Ready)
    (hlast : (assemble s.taken).complete.getLast? = some ⟨s.gotText, s.buffer⟩)
    (hh : Websocket.handed s.log = (assemble s.taken).complete.take (writes s))
    (hrw : reads s = writes s + 1) : EchoInv (onRead s none) := by
  have hcout : (s.cout ("Received: " ++ s.buffer ++ "\n")).Ready := hs.note rfl
  have hbusy := (hcout.setText s.gotText).asyncWriteBuffer
  have hr : reads (onRead s none) = reads s := by
    simp [reads, onRead, Session.asyncWriteBuffer, Session.setText, Session.cout,
      Entry.succeeded]
  have hw : writes (onRead s none) = writes s := by
    simp [writes, onRead, Session.asyncWriteBuffer, Session.setText, Session.cout,
      Entry.succeeded]
  have hcount : (assemble s.taken).complete.length = writes s + 1 :=
    hs.reading.count.trans hrw
  have hcomplete : Websocket.handed s.log ++ [⟨s.gotText, s.buffer⟩] =
      (assemble s.taken).complete := by
    have hsplit := List.dropLast_append_getLast? _ hlast
    rwa [List.dropLast_eq_take, hcount, Nat.add_sub_cancel, ← hh] at hsplit
  refine ⟨Or.inr (Or.inr ⟨_, hbusy⟩), ?_, by omega, fun t ht => ?_⟩
  · have htaken : (onRead s none).taken = s.taken := rfl
    rw [hr, htaken, hrw, ← hcount, List.take_length, ← hcomplete]
    simp [onRead, Session.asyncWriteBuffer, Session.setText, Session.cout,
      Entry.handed]
  · rw [onRead, hbusy.pending, List.mem_singleton] at ht
    subst ht
    simpa only [Phase, hr, hw] using hrw

/-- An operation that succeeds keeps the invariant.

**Proof sketch.** After the handshake and after a write the next read starts on an empty buffer.
After a read the buffer holds exactly the message that was completed last, and this is what is
handed to the write. -/
lemma EchoInv.success (h : EchoInv s) {t : Websocket.Task UInt8} (hb : s.Busy t)
    (hready : (s.retire 0 t none).Ready)
    (hread : t.kind = .read →
      (assemble s.taken).complete.getLast? = some ⟨s.gotText, s.buffer⟩) :
    EchoInv (handler (s.retire 0 t none) t.kind none) := by
  have hphase := h.phase t (by simp [hb.pending])
  have hh : Websocket.handed (s.retire 0 t none).log =
      (assemble s.taken).complete.take (reads s) := by
    simpa [Entry.handed] using h.handed
  have hr : reads (s.retire 0 t none) = reads s + if .read = t.kind then 1 else 0 := by
    simp [reads, Entry.succeeded]
  have hw : writes (s.retire 0 t none) = writes s + if .write = t.kind then 1 else 0 := by
    simp [writes, Entry.succeeded]
  cases t with
  | accept => exact echoInv_doRead hready hphase.1 (hr ▸ hh) (hr.trans (hphase.2.trans hw.symm))
  | read whole =>
    have hrw : reads s = writes s := hphase
    refine echoInv_onRead hready (hread rfl) ?_ (by simp [hr, hw, Task.kind, hrw])
    rw [hh, hrw, hw, if_neg (by simp [Task.kind]), Nat.add_zero]
    rfl
  | write src text sent fin =>
    have hrw : reads s = writes s + 1 := hphase
    refine echoInv_onWrite hready ?_ (by simp [hr, hw, Task.kind, hrw])
    rw [hh, hr, if_neg (by simp [Task.kind]), Nat.add_zero]
    rfl
  | _ => exact hphase.elim

/-- The invariant follows the rule for chains of operations. -/
lemma chainRule_echoInv : program.ChainRule EchoInv where
  orderly _ h := h.orderly
  start := echoInv_start
  arrive _ f h := h.arrive f
  take _ _ _ h hb hb' := h.take hb hb'
  send _ _ _ _ _ _ h hb hb' := h.send hb hb'
  success _ _ h hb hready hread := h.success hb hready hread
  error _ _ _ h _ hst := h.error hst

/-- **The invariant of the echo protocol holds in every reachable state.** -/
lemma echoInv_of_reachable (h : program.system.Reachable s) : EchoInv s :=
  chainRule_echoInv.invariant h

/-- The echo protocol, as it shows in the operations and the log of a session. -/
structure EchoContract (s : ServerSession) : Prop where
  /-- At most one operation is outstanding. -/
  pending : s.pending.length ≤ 1
  /-- Every operation was started, and the buffer was filled and consumed, while no other
  operation was outstanding. -/
  alone : ∀ e ∈ s.log, e.others = []
  /-- The messages handed to writes are a prefix of the complete messages the peer has sent. -/
  echoed : Websocket.handed s.log <+: (assemble s.arrived).complete
  /-- Every message that was read has been handed to exactly one write. -/
  handed : (Websocket.handed s.log).length = reads s
  /-- Writes complete in turn with reads. -/
  balance : writes s ≤ reads s ∧ reads s ≤ writes s + 1
  /-- The messages on the wire are a prefix of those handed to writes. -/
  wire : (assemble s.outbound).complete <+: Websocket.handed s.log
  /-- After an error, nothing is outstanding and nothing but output has happened. -/
  quiet : ∀ l₁ k e l₂, s.log = l₁ ++ .finished k (some e) :: l₂ →
    s.pending = [] ∧ ∀ x ∈ l₂, x.isOutput = true

/-- The invariant implies the protocol. -/
lemma EchoInv.contract (h : EchoInv s) : EchoContract s where
  pending := h.orderly.pending_length_le
  alone _ he := h.orderly.others_eq_nil he
  echoed := by
    rw [h.handed]
    exact (List.take_prefix _ _).trans
      (prefix_assemble_complete (List.prefix_append s.taken s.inbound))
  handed := by
    rw [h.handed, List.length_take]
    exact Nat.min_eq_left h.orderly.completed_le
  balance := h.balance
  wire := h.orderly.outbound_prefix
  quiet _ _ _ _ hlog := h.orderly.quiet_after_error hlog

end ServerSession

end Vsna
