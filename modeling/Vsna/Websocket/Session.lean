import Mathlib.Tactic.Simps.Basic
import Vsna.Automata.System
import Vsna.Websocket.Frames

set_option relaxedAutoImplicit false
set_option autoImplicit false

/-!
# Sessions driven by completion handlers

A session owns a websocket stream and a dynamic buffer. It starts asynchronous operations, and
its handlers run when an operation completes; a handler may start the next operation. This
module is the runtime such a session lives in: the operations in progress, the frames that
arrive and that are sent, and the completion of an operation with success or with an error.

The environment is as free as it can be. The peer sends any frames at any time, an operation
may fail at any moment with any error, and the events come in any order. What the runtime does
promise is what the stream's documentation promises:

* a read takes frames in order, appends their payload to the buffer, and succeeds once it has
  taken the last frame of a message;
* a write sends the bytes of the buffer sequence it was given, read from memory as they are
  sent, and succeeds once it has sent the last of them;
* closing takes no frame into the buffer.

Every session keeps a log of what it did (`Websocket.Entry`). Claims about a session are claims
about its log.

## Main definitions

* `Websocket.Op`, `Websocket.Task` — an operation as started, and as it progresses.
* `Websocket.Session` — members, stream, buffer and log of a session.
* `Websocket.Session.asyncRead` and its siblings — the initiating functions.
* `Websocket.Program`, `Websocket.Program.system` — how a session starts and what its handlers
  do, and the transition system this gives.
-/

namespace Websocket

/-! ## Errors, operations, log entries -/

/-- The error conditions that handlers tell apart. -/
inductive ErrorKind
  /-- `websocket::error::closed`. -/
  | closed
  /-- `asio::error::operation_aborted`. -/
  | operationAborted
  /-- Any other error. -/
  | other
  deriving DecidableEq

/-- An error with the text `message()` gives for it. -/
structure Error (β : Type*) where
  /-- Which error it is. -/
  kind : ErrorKind
  /-- The text of the error. -/
  message : List β
  deriving DecidableEq

/-- The result of an operation: `none` is success. -/
abbrev ErrorCode (β : Type*) := Option (Error β)

/-- The kinds of asynchronous operations. -/
inductive OpKind
  | resolve
  | connect
  | handshake
  | accept
  | write
  | read
  | close
  deriving DecidableEq

/-- An operation with the arguments it is started with. -/
inductive Op (β : Type*)
  | resolve (host service : List β)
  | connect
  | handshake (host target : List β)
  | accept
  | write (m : Message β)
  | read
  | close
  deriving DecidableEq

/-- The memory a write sends from. -/
inductive Source (β : Type*)
  /-- The first `size` bytes of the session's dynamic buffer, as they are when sent. -/
  | dynamic (size : ℕ)
  /-- Memory that nobody changes. -/
  | fixed (data : List β)
  deriving DecidableEq

/-- An operation in progress. -/
inductive Task (β : Type*)
  | resolve
  | connect
  | handshake
  | accept
  /-- A write that has sent `sent` bytes of `src`, and the last frame if `fin`. -/
  | write (src : Source β) (text : Bool) (sent : ℕ) (fin : Bool)
  /-- A read, which has taken the last frame of a message if `whole`. -/
  | read (whole : Bool)
  | close
  deriving DecidableEq

/-- The options a session sets on its stream. -/
inductive StreamOption (β : Type*)
  | expiresAfter (seconds : ℕ)
  | expiresNever
  | suggestedTimeout (client : Bool)
  /-- Sets the named handshake field to the library version followed by `suffix`. -/
  | decorator (field suffix : List β)
  deriving DecidableEq

/-- What a session did. `others` are the operations outstanding at that moment, apart from the
one that acts. -/
inductive Entry (β : Type*)
  | started (op : Op β) (others : List OpKind)
  /-- A read appended `bytes` to the buffer. -/
  | filled (bytes : List β) (others : List OpKind)
  /-- A handler removed `n` bytes from the front of the buffer. -/
  | consumed (n : ℕ) (others : List OpKind)
  /-- An operation completed and its handler was invoked. -/
  | finished (k : OpKind) (ec : ErrorCode β)
  | cout (text : List β)
  | cerr (text : List β)
  | option (o : StreamOption β)
  deriving DecidableEq

variable {μ β κ : Type*}

/-- The kind of an operation. -/
def Op.kind : Op β → OpKind
  | .resolve _ _ => .resolve
  | .connect => .connect
  | .handshake _ _ => .handshake
  | .accept => .accept
  | .write _ => .write
  | .read => .read
  | .close => .close

/-- The kind of an operation in progress. -/
def Task.kind : Task β → OpKind
  | .resolve => .resolve
  | .connect => .connect
  | .handshake => .handshake
  | .accept => .accept
  | .write _ _ _ _ => .write
  | .read _ => .read
  | .close => .close

/-- May the operation complete with success now, as far as this end of the stream can tell? Whether
the other end has done its part in a handshake is not asked here. -/
def Task.done : Task β → Bool
  | .write _ _ _ fin => fin
  | .read whole => whole
  | _ => true

/-- Operations that use neither the buffer nor the messages of the stream. -/
def Task.isPlain : Task β → Bool
  | .read _ | .write _ _ _ _ => false
  | _ => true

/-- The bytes a write sends, given the present contents of the dynamic buffer. -/
def Source.bytes (buffer : List β) : Source β → List β
  | .dynamic size => buffer.take size
  | .fixed data => data

/-! ## Sessions -/

/-- A session with members of type `μ` beside its stream and its buffer. -/
structure Session (μ β : Type*) where
  /-- The members of the session other than stream and buffer. -/
  members : μ
  /-- The operations in progress. -/
  pending : List (Task β) := []
  /-- The dynamic buffer given to reads. -/
  buffer : List β := []
  /-- The kind of the message read last (`got_text()`). -/
  gotText : Bool := true
  /-- The kind of the next message to be written (`text()`). -/
  text : Bool := true
  /-- Has the stream taken part of a message, but not its last frame? -/
  fragmented : Bool := false
  /-- Frames that have arrived and that no read has taken. -/
  inbound : List (Frame β) := []
  /-- Frames taken by reads so far. -/
  taken : List (Frame β) := []
  /-- Frames sent so far. -/
  outbound : List (Frame β) := []
  /-- What the session did so far, oldest entry first. -/
  log : List (Entry β) := []
  deriving DecidableEq

namespace Session

variable (s : Session μ β)

/-- All frames that have arrived from the peer, in order. -/
def arrived : List (Frame β) := s.taken ++ s.inbound

/-- The kinds of the outstanding operations. -/
def outstanding : List OpKind := s.pending.map Task.kind

/-- Add an entry to the log. -/
@[simps]
def note (e : Entry β) : Session μ β := { s with log := s.log ++ [e] }

/-- Start the operation `op`, which begins as the task `t`. -/
@[simps log]
def begin (op : Op β) (t : Task β) : Session μ β :=
  { s with pending := s.pending ++ [t], log := s.log ++ [.started op s.outstanding] }

/-! ### What handlers do -/

/-- Start resolving a host and a service. -/
def asyncResolve (host service : List β) : Session μ β := s.begin (.resolve host service) .resolve

/-- Start connecting to the resolved endpoints. -/
def asyncConnect : Session μ β := s.begin .connect .connect

/-- Start the client's side of the websocket handshake. -/
def asyncHandshake (host target : List β) : Session μ β :=
  s.begin (.handshake host target) .handshake

/-- Start the server's side of the websocket handshake. -/
def asyncAccept : Session μ β := s.begin .accept .accept

/-- Start reading a message into the buffer. -/
def asyncRead : Session μ β := s.begin .read (.read false)

/-- Start writing the readable bytes of the buffer as one message
(`async_write(_buffer.data())`). -/
def asyncWriteBuffer : Session μ β :=
  s.begin (.write ⟨s.text, s.buffer⟩) (.write (.dynamic s.buffer.length) s.text 0 false)

/-- Start writing `data` as one message (`async_write(buffer(data))`). -/
def asyncWrite (data : List β) : Session μ β :=
  s.begin (.write ⟨s.text, data⟩) (.write (.fixed data) s.text 0 false)

/-- Start the closing handshake. -/
def asyncClose : Session μ β := s.begin .close .close

/-- Remove `n` bytes from the front of the buffer. -/
@[simps taken log]
def consume (n : ℕ) : Session μ β :=
  { s with buffer := s.buffer.drop n, log := s.log ++ [.consumed n s.outstanding] }

/-- Set the kind of the next message to be written. -/
def setText (b : Bool) : Session μ β := { s with text := b }

/-- Set a stream option. -/
def setOption (o : StreamOption β) : Session μ β := s.note (.option o)

/-- Write to standard output. -/
def cout (text : List β) : Session μ β := s.note (.cout text)

/-- Write to standard error. -/
def cerr (text : List β) : Session μ β := s.note (.cerr text)

/-- What a handler may leave behind: it adds to the log, and leaves alone the members and the
frames on their way. -/
structure Handled (s s' : Session μ β) : Prop where
  log : s.log <+: s'.log
  members : s'.members = s.members
  taken : s'.taken = s.taken
  inbound : s'.inbound = s.inbound
  outbound : s'.outbound = s.outbound

/-- A handler may do nothing. -/
lemma Handled.refl : s.Handled s := ⟨List.prefix_rfl, rfl, rfl, rfl, rfl⟩

variable {s} in
/-- A handler may do one thing after another. -/
lemma Handled.trans {s₁ s₂ : Session μ β} (h₁ : s.Handled s₁) (h₂ : s₁.Handled s₂) :
    s.Handled s₂ :=
  ⟨h₁.log.trans h₂.log, h₂.members.trans h₁.members, h₂.taken.trans h₁.taken,
    h₂.inbound.trans h₁.inbound, h₂.outbound.trans h₁.outbound⟩

/-- A handler may add an entry to the log, by output or by setting an option. -/
lemma handled_note (e : Entry β) : s.Handled (s.note e) :=
  ⟨List.prefix_append _ _, rfl, rfl, rfl, rfl⟩

/-- A handler may start an operation. -/
lemma handled_begin (op : Op β) (t : Task β) : s.Handled (s.begin op t) :=
  ⟨List.prefix_append _ _, rfl, rfl, rfl, rfl⟩

/-- A handler may consume the buffer. -/
lemma handled_consume (n : ℕ) : s.Handled (s.consume n) :=
  ⟨List.prefix_append _ _, rfl, rfl, rfl, rfl⟩

/-- A handler may set the kind of the next message. -/
lemma handled_setText (b : Bool) : s.Handled (s.setText b) := ⟨List.prefix_rfl, rfl, rfl, rfl, rfl⟩

/-! ### What the stream does -/

/-- A frame arrives from the peer. -/
def arrive (f : Frame β) : Session μ β := { s with inbound := s.inbound ++ [f] }

/-- The frame comes after those that had arrived. -/
@[simp] lemma arrived_arrive (f : Frame β) : (s.arrive f).arrived = s.arrived ++ [f] := by
  simp [arrived, arrive]

/-- The state after the read at index `i` has taken the frame `f` and left `fs`. -/
@[simps members log]
def take (i : ℕ) (f : Frame β) (fs : List (Frame β)) : Session μ β :=
  { s with
    pending := s.pending.set i (.read f.fin)
    buffer := s.buffer ++ f.payload
    gotText := if s.fragmented then s.gotText else f.text
    fragmented := !f.fin
    inbound := fs
    taken := s.taken ++ [f]
    log := s.log ++ [.filled f.payload ((s.pending.eraseIdx i).map Task.kind)] }

/-- The read at index `i` takes the next frame that has arrived. -/
def receive (i : ℕ) : Option (Session μ β) :=
  match s.pending[i]?, s.inbound with
  | some (.read false), f :: fs => some (s.take i f fs)
  | _, _ => none

/-- The state after the write of `src` at index `i` has sent the next `n` bytes. -/
def send (i : ℕ) (src : Source β) (text : Bool) (sent n : ℕ) (fin : Bool) : Session μ β :=
  { s with
    pending := s.pending.set i (.write src text (sent + n) fin)
    outbound := s.outbound ++ [⟨fin, text, ((src.bytes s.buffer).drop sent).take n⟩] }

/-- The write at index `i` sends its next `n` bytes as a frame, the last one if `fin`. -/
def emit (i n : ℕ) (fin : Bool) : Option (Session μ β) :=
  match s.pending[i]? with
  | some (.write src text sent false) =>
    if sent + n ≤ (src.bytes s.buffer).length ∧
        (fin = true → sent + n = (src.bytes s.buffer).length) then
      some (s.send i src text sent n fin)
    else none
  | _ => none

/-- The state after the operation `t` at index `i` has completed, before its handler runs. -/
@[simps members taken log]
def retire (i : ℕ) (t : Task β) (ec : ErrorCode β) : Session μ β :=
  { s with pending := s.pending.eraseIdx i, log := s.log ++ [.finished t.kind ec] }

/-- The operation at index `i` completes with `ec`. Success needs the operation to be done; an
error may strike at any moment. -/
def finish (i : ℕ) (ec : ErrorCode β) : Option (OpKind × Session μ β) :=
  match s.pending[i]? with
  | some t => if ec = none ∧ t.done = false then none else some (t.kind, s.retire i t ec)
  | none => none

variable {s}

/-- Inversion of `receive`. -/
lemma receive_eq_some {i : ℕ} {s' : Session μ β} (h : s.receive i = some s') :
    ∃ f fs, s.pending[i]? = some (.read false) ∧ s.inbound = f :: fs ∧ s' = s.take i f fs := by
  unfold receive at h
  split at h
  · next f fs hp hin => exact ⟨f, fs, hp, hin, by simpa using h.symm⟩
  · simp at h

/-- Inversion of `emit`. -/
lemma emit_eq_some {i n : ℕ} {fin : Bool} {s' : Session μ β} (h : s.emit i n fin = some s') :
    ∃ src text sent, s.pending[i]? = some (.write src text sent false) ∧
      sent + n ≤ (src.bytes s.buffer).length ∧
      (fin = true → sent + n = (src.bytes s.buffer).length) ∧
      s' = s.send i src text sent n fin := by
  unfold emit at h
  split at h
  · next src text sent hp =>
    split_ifs at h with hc
    exact ⟨src, text, sent, hp, hc.1, hc.2, by simpa using h.symm⟩
  · simp at h

/-- Inversion of `finish`. -/
lemma finish_eq_some {i : ℕ} {ec : ErrorCode β} {k : OpKind} {s' : Session μ β}
    (h : s.finish i ec = some (k, s')) :
    ∃ t, s.pending[i]? = some t ∧ (ec = none → t.done = true) ∧ k = t.kind ∧
      s' = s.retire i t ec := by
  unfold finish at h
  split at h
  · next t hp =>
    split_ifs at h with hc
    simp only [Option.some.injEq, Prod.mk.injEq] at h
    refine ⟨t, hp, fun hec => ?_, h.1.symm, h.2.symm⟩
    by_contra hd
    exact hc ⟨hec, by simpa using hd⟩
  · simp at h

end Session

/-! ## Programs -/

/-- What can happen to a session. -/
inductive Event (β : Type*)
  /-- A frame arrives from the peer. -/
  | arrive (f : Frame β)
  /-- The read at index `i` takes a frame. -/
  | receive (i : ℕ)
  /-- The write at index `i` sends a frame of `n` bytes. -/
  | emit (i n : ℕ) (fin : Bool)
  /-- The operation at index `i` completes and its handler runs. -/
  | complete (i : ℕ) (ec : ErrorCode β)
  deriving DecidableEq

/-- Is the event the arrival of a frame? -/
def Event.isArrival : Event β → Bool
  | .arrive _ => true
  | _ => false

/-- A session class: how its objects are started, and what its handlers do. -/
structure Program (κ μ β : Type*) where
  /-- The session right after it was created and started. -/
  start : κ → Session μ β
  /-- The handler of an operation kind, run when such an operation completes. -/
  handler : Session μ β → OpKind → ErrorCode β → Session μ β

namespace Program

variable (P : Program κ μ β)

/-- One event of a session of the class `P`. -/
def step (s : Session μ β) : Event β → Option (Session μ β)
  | .arrive f => some (s.arrive f)
  | .receive i => s.receive i
  | .emit i n fin => s.emit i n fin
  | .complete i ec => (s.finish i ec).map fun r => P.handler r.2 r.1 ec

/-- The transition system of one session of the class `P`. -/
def system : Automata.System κ (Session μ β) (Event β) := ⟨P.start, P.step⟩

variable {P}

/-- The handlers of a class leave alone what is not theirs. -/
def Proper (P : Program κ μ β) : Prop := ∀ s k ec, Session.Handled s (P.handler s k ec)

variable {s s' : Session μ β} {e : Event β}

/-- An event only adds to the log and to the frames sent, and leaves the members alone. -/
lemma Proper.step (hP : P.Proper) (h : P.step s e = some s') :
    s.log <+: s'.log ∧ s.outbound <+: s'.outbound ∧ s'.members = s.members := by
  cases e with
  | arrive f =>
    obtain rfl : s.arrive f = s' := Option.some.inj h
    exact ⟨List.prefix_rfl, List.prefix_rfl, rfl⟩
  | receive i =>
    obtain ⟨f, fs, -, -, rfl⟩ := Session.receive_eq_some h
    exact ⟨List.prefix_append _ _, List.prefix_rfl, rfl⟩
  | emit i n fin =>
    obtain ⟨src, text, sent, -, -, -, rfl⟩ := Session.emit_eq_some h
    exact ⟨List.prefix_rfl, List.prefix_append _ _, rfl⟩
  | complete i ec =>
    obtain ⟨⟨k, r⟩, hfin, rfl⟩ := Option.map_eq_some_iff.mp h
    obtain ⟨t, -, -, rfl, rfl⟩ := Session.finish_eq_some hfin
    have hh := hP (s.retire i t ec) t.kind ec
    exact ⟨(List.prefix_append _ _).trans hh.log, by rw [hh.outbound]; exact List.prefix_rfl,
      hh.members⟩

/-- No event but an arrival changes which frames have arrived. -/
lemma Proper.arrived (hP : P.Proper) (h : P.step s e = some s') (he : e.isArrival = false) :
    s'.arrived = s.arrived := by
  cases e with
  | arrive f => simp [Event.isArrival] at he
  | receive i =>
    obtain ⟨f, fs, -, hin, rfl⟩ := Session.receive_eq_some h
    simp [Session.arrived, Session.take, hin]
  | emit i n fin =>
    obtain ⟨src, text, sent, -, -, -, rfl⟩ := Session.emit_eq_some h
    rfl
  | complete i ec =>
    obtain ⟨⟨k, r⟩, hfin, rfl⟩ := Option.map_eq_some_iff.mp h
    obtain ⟨t, -, -, rfl, rfl⟩ := Session.finish_eq_some hfin
    have hh := hP (s.retire i t ec) t.kind ec
    rw [Session.arrived, hh.taken, hh.inbound]
    rfl

end Program

end Websocket
