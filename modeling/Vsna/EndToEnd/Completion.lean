import Vsna.Automata.Progress
import Vsna.EndToEnd.Measure
import Vsna.EndToEnd.Output

set_option relaxedAutoImplicit false
set_option autoImplicit false

/-!
# Connections come to their end

The two ends wait for each other: the handshake of the client for the server to answer it, a read
for a message, and the closing handshake of the client for the server to read on and to answer it.
Here nothing completes without the other end. Still the code waits for nothing that does not come:
as long as nothing fails a connection cannot get stuck, and it cannot go on for ever. Whatever the
order of events, after a bounded number of them the client session has printed its text and both
ends have come to their end.

What is taken for granted is what lies outside of the two sessions. The lookup of the host is
answered, the connection is made, and the server accepts it. A stream sends no empty frames that are
not final. And no operation fails, but for the last read of the server, which the closing handshake
is to end.

## Main definitions

* `Vsna.Link`, `Vsna.Link.system` — a connection with the two handshakes on it.
* `Vsna.Link.Kept` — the invariant of a link.
* `Vsna.Link.measure` — how many events there can be before the end.
* `Vsna.Link.Completes` — every way of going on leads to the end.

## Main results

* `Vsna.Link.kept_of_reachable` — the invariant holds in every reachable state.
* `Vsna.Link.lowers_measure` — every event lowers the measure.
* `Vsna.Link.exists_step` — before the end, some event is enabled.
* `Vsna.Link.completes_of_reachable` — every link completes.
-/

namespace Vsna

open Text Websocket

/-! ## Client sessions -/

namespace ClientSession

variable {s s' : ClientSession}

/-- A handler that is called with success records no failure. -/
lemma failures_handler (s : ClientSession) (i : ℕ) (t : Websocket.Task UInt8) :
    failures (program.handler (s.retire i t none) t.kind none).log = failures s.log := by
  cases t <;> simp [program, handler, Task.kind, onResolve, onConnect, onHandshake, onWrite, onRead,
    onClose, Session.setOption, Session.asyncConnect, Session.asyncHandshake, Session.asyncWrite,
    Session.asyncRead, Session.asyncClose, Session.cout, Entry.failure]

/-- While a client session waits for its reply, it has handed its message to a write. -/
lemma length_handed_of_read (h : ClientInv s) {whole : Bool} (hb : s.Busy (.read whole)) :
    (handed s.log).length = 1 := by
  obtain ⟨hstarted, -⟩ : Phase s (.read whole) := h.phase _ (by simp [hb.pending])
  rw [length_handed, hstarted]
  rfl

/-- How the one outstanding operation of a client session goes on. -/
inductive Next : Websocket.Task UInt8 → List (Websocket.Task UInt8) → Prop
  | take (fin : Bool) : Next (.read false) [.read fin]
  | send (src : Source UInt8) (text : Bool) (sent n : ℕ) (fin : Bool) :
      Next (.write src text sent false) [.write src text (sent + n) fin]
  | resolve : Next .resolve [.connect]
  | connect : Next .connect [.handshake]
  | handshake (src : Source UInt8) (text : Bool) : Next .handshake [.write src text 0 false]
  | write (src : Source UInt8) (text : Bool) (sent : ℕ) :
      Next (.write src text sent true) [.read false]
  | read : Next (.read true) [.close]
  | close : Next .close []

/-- What an event does to the outstanding operation, if nothing fails. The two handshakes complete
only if they are ready to, and send no frame. -/
lemma next_of_step (h : ClientInv s) {ready : Websocket.Task UInt8 → Bool} {e : Event UInt8}
    (he : e.isArrival = false) (hpermits : s.permits ready e = true)
    (hstep : program.step s e = some s') :
    ∃ t, s.pending = [t] ∧ Next t s'.pending ∧
      (t = .handshake ∨ t = .close → ready t = true ∧ s'.outbound = s.outbound) := by
  rcases Program.smooth_cases h.orderly he (Session.smooth_of_permits hpermits) hstep with
    ⟨f, fs, hb, -, rfl⟩ | ⟨src, text, sent, n, fin, hb, -, -, rfl⟩ | ⟨t, hb, hdone, rfl, rfl⟩
  · refine ⟨_, hb.pending, ?_, by simp⟩
    simpa [Session.take, hb.pending] using Next.take f.fin
  · refine ⟨_, hb.pending, ?_, by simp⟩
    simpa [Session.send, hb.pending] using Next.send src text sent n fin
  · have hout := (proper_program (s.retire 0 t none) t.kind none).outbound
    refine ⟨t, hb.pending, ?_, fun _ => ⟨Session.ready_of_permits hpermits hb, hout⟩⟩
    have hnil : (s.retire 0 t none).pending = [] := by simp [Session.retire, hb.pending]
    have hphase := h.phase t (by simp [hb.pending])
    cases t with
    | accept => exact hphase.elim
    | resolve => simpa [program, handler, Task.kind, onResolve, Session.setOption, Session.note,
        Session.asyncConnect, Session.begin, hnil] using Next.resolve
    | connect => simpa [program, handler, Task.kind, onConnect, Session.setOption, Session.note,
        Session.asyncHandshake, Session.begin, hnil] using Next.connect
    | handshake => simpa [program, handler, Task.kind, onHandshake, Session.asyncWrite,
        Session.begin, hnil] using Next.handshake _ _
    | write src text sent fin =>
      obtain rfl : fin = true := hdone
      simpa [program, handler, Task.kind, onWrite, Session.asyncRead, Session.begin, hnil]
        using Next.write src text sent
    | read whole =>
      obtain rfl : whole = true := hdone
      simpa [program, handler, Task.kind, onRead, Session.asyncClose, Session.begin, hnil]
        using Next.read
    | close => simpa [program, handler, Task.kind, onClose, Session.cout, Session.note, hnil]
        using Next.close

end ClientSession

/-! ## Sessions of the server -/

namespace ServerSession

variable {s s' : ServerSession}

/-- A handler that is called with success records no failure. -/
lemma failures_handler (s : ServerSession) (i : ℕ) (t : Websocket.Task UInt8) :
    failures (program.handler (s.retire i t none) t.kind none).log = failures s.log := by
  cases t <;> simp [program, handler, Task.kind, onAccept, onRead, onWrite, doRead,
    Session.asyncRead, Session.asyncWriteBuffer, Session.setText, Session.cout, Session.consume,
    Entry.failure]

/-- **A session of the server always has an operation outstanding**, until one fails: it is never
left with the floor.

**Proof sketch.** Every handler that is called with success starts an operation, and none that is
called with an error does. -/
lemma chainRule_working : program.ChainRule fun s => EchoInv s ∧ replay s.log ≠ some .ready where
  orderly _ h := h.1.orderly
  start socket := by
    refine ⟨echoInv_start socket, ?_⟩
    have hlog : replay (program.start socket).log = some (.busy .accept) := rfl
    simp [hlog]
  arrive _ f h := ⟨h.1.arrive f, h.2⟩
  take _ _ _ h hb hb' := ⟨h.1.take hb hb', hb'.replay_ne⟩
  send _ _ _ _ _ _ h hb hb' := ⟨h.1.send hb hb', hb'.replay_ne⟩
  success s t h hb hready hread := by
    have hinv := h.1.success hb hready hread
    have hbusy : ∀ {t'}, t' ∈ (program.handler (s.retire 0 t none) t.kind none).pending →
        replay (program.handler (s.retire 0 t none) t.kind none).log ≠ some .ready := by
      intro t' ht'
      obtain ⟨i, hi⟩ := List.mem_iff_getElem?.mp ht'
      exact (hinv.orderly.busy hi).2.replay_ne
    refine ⟨hinv, ?_⟩
    have hphase := h.1.phase t (by simp [hb.pending])
    cases t with
    | accept => exact hbusy (List.mem_append_right _ (List.mem_singleton_self _))
    | read => exact hbusy (List.mem_append_right _ (List.mem_singleton_self _))
    | write => exact hbusy (List.mem_append_right _ (List.mem_singleton_self _))
    | _ => exact hphase.elim
  error s t e h hb hst := by
    refine ⟨h.1.error hst, ?_⟩
    have hphase := h.1.phase t (by simp [hb.pending])
    cases t with
    | accept => exact (hst.fail e "accept").replay_ne
    | write => exact (hst.fail e "write").replay_ne
    | read whole =>
      change replay (if e.kind = .closed then s.retire 0 (.read whole) (some e) else
        (s.retire 0 (.read whole) (some e)).fail e "read").log ≠ some .ready
      split_ifs
      · exact hst.replay_ne
      · exact (hst.fail e "read").replay_ne
    | _ => exact hphase.elim

/-- A session of the server in which nothing has failed is busy. -/
lemma exists_busy (h : program.system.Reachable s) (hf : failures s.log = []) :
    ∃ t, s.Busy t := by
  obtain ⟨hinv, hready⟩ := chainRule_working.invariant h
  rcases hinv.orderly with hs | hs | hs
  · exact absurd hs.log hready
  · have := length_failures hs.log
    simp [hf] at this
  · exact hs

/-- What an event needs, if nothing fails: the handshake completes only if it is ready to, and a
read goes on only with a frame that has arrived. -/
lemma needs_of_step (h : EchoInv s) {ready : Websocket.Task UInt8 → Bool} {e : Event UInt8}
    (he : e.isArrival = false) (hpermits : s.permits ready e = true)
    (hstep : program.step s e = some s') :
    ∃ t, s.pending = [t] ∧ (t = .accept → ready t = true) ∧ (t = .read false → s.inbound ≠ []) := by
  rcases Program.smooth_cases h.orderly he (Session.smooth_of_permits hpermits) hstep with
    ⟨f, fs, hb, hin, -⟩ | ⟨src, text, sent, n, fin, hb, -⟩ | ⟨t, hb, hdone, rfl, -⟩
  · exact ⟨_, hb.pending, by simp, fun _ => by simp [hin]⟩
  · exact ⟨_, hb.pending, by simp, by simp⟩
  · refine ⟨t, hb.pending, fun _ => Session.ready_of_permits hpermits hb, ?_⟩
    rintro rfl
    simp [Task.done] at hdone

end ServerSession

/-! ## Links -/

/-- A connection with the two handshakes on it. -/
structure Link where
  connection : Connection
  /-- The stream of the server has answered the handshake of the client. -/
  answered : Bool := false
  /-- The stream of the server has taken the close frame of the client, and has answered it. -/
  parted : Bool := false

/-- What can happen on a link. -/
inductive LinkEvent
  /-- An event of the connection. -/
  | step (e : ConnectionEvent)
  /-- The handshake of the client arrives at the server, and is answered. -/
  | answer
  /-- The close frame of the client arrives at the server, and is answered. -/
  | part

namespace Link

/-- The handshakes of the client complete when they are answered. -/
def clientReady (l : Link) : Websocket.Task UInt8 → Bool
  | .handshake => l.answered
  | .close => l.parted
  | _ => true

/-- The handshake of the server completes when it has answered. -/
def serverReady (l : Link) : Websocket.Task UInt8 → Bool
  | .accept => l.answered
  | _ => true

/-- Is this the end of the last read of the server, because the other end has closed? -/
def ends (l : Link) (s : ServerSession) : Event UInt8 → Bool
  | .complete i (some e) =>
    l.parted && decide (e.kind = .closed) && decide (s.pending[i]? = some (.read false))
  | _ => false

/-- Is an event of the connection possible, if nothing fails? A connection is accepted only if the
client has begun to connect. -/
def permits (l : Link) : ConnectionEvent → Bool
  | .client e => l.connection.client.permits l.clientReady e
  | .accepted _ => (started l.connection.client.log).contains .connect
  | .server e => l.connection.server.any fun s => s.permits l.serverReady e || l.ends s e
  | .toServer | .toClient => true

/-- One event of a link. The server answers the handshake of the client when both are at it, and the
close frame when it reads on and has taken everything that came before. -/
def step (l : Link) : LinkEvent → Option Link
  | .step e =>
    if l.permits e then (l.connection.step e).map fun c => { l with connection := c } else none
  | .answer =>
    if l.answered = false ∧ l.connection.client.pending = [.handshake] ∧
        l.connection.server.any (fun s => s.pending = [.accept]) then
      some { l with answered := true }
    else none
  | .part =>
    if l.parted = false ∧ l.connection.client.pending = [.close] ∧
        l.connection.server.any (fun s => s.pending = [.read false] ∧
          s.taken = l.connection.client.outbound) then
      some { l with parted := true }
    else none

/-- The transition system of one link, which begins with the client session alone. -/
def system : Automata.System ClientMembers Link LinkEvent where
  start args := { connection := Connection.system.start args }
  step := step

/-- What one event may do to a link. -/
inductive Flow (l : Link) : Link → Prop
  | client {e : Event UInt8} {s' : ClientSession} (he : e.isArrival = false)
      (hpermits : l.connection.client.permits l.clientReady e = true)
      (hs : ClientSession.program.step l.connection.client e = some s') :
      Flow l { l with connection := { l.connection with client := s' } }
  | accepted (socket : Socket) (hn : l.connection.server = none) :
      Flow l { l with
        connection := { l.connection with server := some (ServerSession.program.start socket) } }
  | server {e : Event UInt8} {s s' : ServerSession} (he : e.isArrival = false)
      (hc : l.connection.server = some s) (hpermits : s.permits l.serverReady e = true)
      (hs : ServerSession.program.step s e = some s') :
      Flow l { l with connection := { l.connection with server := some s' } }
  | ended {i : ℕ} {e : Error UInt8} {s : ServerSession} (hc : l.connection.server = some s)
      (hparted : l.parted = true) (hkind : e.kind = .closed)
      (hi : s.pending[i]? = some (.read false)) :
      Flow l { l with
        connection := { l.connection with server := some (s.retire i (.read false) (some e)) } }
  | toServer {s : ServerSession} {f : Frame UInt8} (hc : l.connection.server = some s)
      (hf : l.connection.client.outbound[s.arrived.length]? = some f) :
      Flow l { l with connection := { l.connection with server := some (s.arrive f) } }
  | toClient {s : ServerSession} {f : Frame UInt8} (hc : l.connection.server = some s)
      (hf : s.outbound[l.connection.client.arrived.length]? = some f) :
      Flow l { l with
        connection := { l.connection with client := l.connection.client.arrive f } }
  | answer {s : ServerSession} (hnot : l.answered = false) (hc : l.connection.server = some s) :
      Flow l { l with answered := true }
  | part {s : ServerSession} (hnot : l.parted = false)
      (hclient : l.connection.client.pending = [.close]) (hc : l.connection.server = some s)
      (hserver : s.pending = [.read false]) (htaken : s.taken = l.connection.client.outbound) :
      Flow l { l with parted := true }

variable {l l' : Link}

/-- The end of the last read of the server. -/
lemma step_ended {s s' : ServerSession} {e : Event UInt8} (h : l.ends s e = true)
    (hs : ServerSession.program.step s e = some s') :
    ∃ i err, l.parted = true ∧ err.kind = .closed ∧ s.pending[i]? = some (.read false) ∧
      s' = s.retire i (.read false) (some err) := by
  cases e with
  | complete i ec =>
    cases ec with
    | none => simp [ends] at h
    | some err =>
      obtain ⟨⟨hparted, hkind⟩, hi⟩ : (l.parted = true ∧ err.kind = .closed) ∧
          s.pending[i]? = some (.read false) := by simpa [ends] using h
      obtain ⟨⟨k, r⟩, hfin, rfl⟩ := Option.map_eq_some_iff.mp hs
      obtain ⟨t, hp, -, rfl, rfl⟩ := Session.finish_eq_some hfin
      obtain rfl : t = .read false := Option.some.inj (hp.symm.trans hi)
      exact ⟨i, err, hparted, hkind, hi, if_pos hkind⟩
  | _ => simp [ends] at h

/-- Inversion of an event. -/
lemma flow_of_step {e : LinkEvent} (h : l.step e = some l') : Flow l l' := by
  cases e with
  | step e =>
    simp only [step] at h
    split_ifs at h with hpermits
    obtain ⟨c, hc, rfl⟩ := Option.map_eq_some_iff.mp h
    cases e with
    | client e =>
      simp only [Connection.step] at hc
      split_ifs at hc with he
      obtain ⟨s', hs, rfl⟩ := Option.map_eq_some_iff.mp hc
      exact .client (by simpa using he) hpermits hs
    | accepted socket =>
      simp only [Connection.step] at hc
      split_ifs at hc with hn
      obtain rfl := Option.some.inj hc
      exact .accepted socket (by simpa using hn)
    | server e =>
      simp only [Connection.step] at hc
      split_ifs at hc with he
      obtain ⟨s', hb, rfl⟩ := Option.map_eq_some_iff.mp hc
      obtain ⟨s, hserver, hs⟩ := Option.bind_eq_some_iff.mp hb
      have hor : s.permits l.serverReady e = true ∨ l.ends s e = true := by
        simpa [permits, hserver] using hpermits
      rcases hor with hsmooth | hends
      · exact .server (by simpa using he) hserver hsmooth hs
      · obtain ⟨i, err, hparted, hkind, hi, rfl⟩ := step_ended hends hs
        exact .ended hserver hparted hkind hi
    | toServer =>
      simp only [Connection.step, Option.bind_eq_bind, Option.bind_eq_some_iff] at hc
      obtain ⟨s, hserver, f, hf, hc⟩ := hc
      exact Option.some.inj hc ▸ .toServer hserver hf
    | toClient =>
      simp only [Connection.step, Option.bind_eq_bind, Option.bind_eq_some_iff] at hc
      obtain ⟨s, hserver, f, hf, hc⟩ := hc
      exact Option.some.inj hc ▸ .toClient hserver hf
  | answer =>
    simp only [step] at h
    split_ifs at h with hc
    obtain ⟨hnot, -, hany⟩ := hc
    obtain ⟨s, hs, -⟩ := (Option.any_eq_true _ _).mp hany
    exact Option.some.inj h ▸ .answer hnot hs
  | part =>
    simp only [step] at h
    split_ifs at h with hc
    obtain ⟨hnot, hclient, hany⟩ := hc
    obtain ⟨s, hs, hp⟩ := (Option.any_eq_true _ _).mp hany
    obtain ⟨hpending, htaken⟩ : s.pending = [.read false] ∧
        s.taken = l.connection.client.outbound := by simpa using hp
    exact Option.some.inj h ▸ .part hnot hclient hs hpending htaken

/-! ## The invariant -/

/-- What has happened at a session of the server: nothing has failed, or the last read has ended
because the other end has closed. -/
def Fared (l : Link) (s : ServerSession) : Prop :=
  failures s.log = [] ∨ l.parted = true ∧ s.pending = [] ∧
    ∃ e, failures s.log = [(.read, e)] ∧ e.kind = .closed

/-- The invariant of a link. -/
structure Kept (l : Link) : Prop where
  reachable : Connection.system.Reachable l.connection
  client : failures l.connection.client.log = []
  server : ∀ s ∈ l.connection.server, l.Fared s
  /-- Only a server that is there can answer. -/
  answered : l.answered = true → l.connection.server.isSome = true
  /-- Both ends wait for the answer. -/
  waiting : l.answered = false →
    (l.connection.client.pending = [.resolve] ∨ l.connection.client.pending = [.connect] ∨
      l.connection.client.pending = [.handshake]) ∧
    ∀ s ∈ l.connection.server, s.pending = [.accept]
  /-- The client does not end before the server has parted. -/
  together : l.connection.client.pending = [] → l.parted = true
  /-- When the server has parted, there is nothing left to do but to end. -/
  parted : l.parted = true →
    (l.connection.client.pending = [.close] ∨ l.connection.client.pending = []) ∧
    ∃ s, l.connection.server = some s ∧ s.taken = l.connection.client.outbound ∧
      (s.pending = [.read false] ∨ s.pending = [])

/-- A client session that was just run. -/
lemma kept_start (args : ClientMembers) : Kept (system.start args) where
  reachable := .start args
  client := rfl
  server _ hs := by simp [system, Connection.system] at hs
  answered h := by simp [system] at h
  waiting _ := ⟨Or.inl rfl, fun _ hs => by simp [system, Connection.system] at hs⟩
  together h := by
    have hp : (system.start args).connection.client.pending = [.resolve] := rfl
    simp [hp] at h
  parted h := by simp [system] at h

/-- When the server has parted, everything that the client has sent has been taken. -/
lemma Kept.inbound (h : Kept l) (hparted : l.parted = true) {s : ServerSession}
    (hc : l.connection.server = some s) :
    s.inbound = [] ∧ s.arrived.length = l.connection.client.outbound.length := by
  obtain ⟨-, t, ht, htaken, -⟩ := h.parted hparted
  obtain rfl := Option.some.inj (hc.symm.trans ht)
  have hle := ((Connection.inv_of_reachable h.reachable).toServer s hc).length_le
  rw [Session.arrived, List.length_append, ← htaken] at hle
  have hin : s.inbound = [] := List.length_eq_zero_iff.mp (by omega)
  exact ⟨hin, by rw [Session.arrived, hin, List.append_nil, htaken]⟩

/-- An event of the client session keeps the invariant. -/
lemma Kept.client_step (h : Kept l) {e : Event UInt8} {s' : ClientSession}
    (hreach : Connection.system.Reachable { l.connection with client := s' })
    (he : e.isArrival = false) (hpermits : l.connection.client.permits l.clientReady e = true)
    (hs : ClientSession.program.step l.connection.client e = some s') :
    Kept { l with connection := { l.connection with client := s' } } := by
  have hinv := (Connection.inv_of_reachable h.reachable).client
  have hfailures := Program.failures_step ClientSession.failures_handler hinv.orderly he
    (Session.smooth_of_permits hpermits) hs
  obtain ⟨t, hp, hnext, hready⟩ := ClientSession.next_of_step hinv he hpermits hs
  refine ⟨hreach, hfailures.trans h.client, h.server, h.answered, fun hnot => ?_, fun hnil => ?_,
    fun hparted => ?_⟩
  · obtain ⟨hclient, hserver⟩ := h.waiting hnot
    refine ⟨?_, hserver⟩
    rw [hp] at hclient
    simp only [List.cons.injEq, and_true] at hclient
    rcases hclient with rfl | rfl | rfl
    · generalize s'.pending = q at hnext
      cases hnext
      exact Or.inr (Or.inl rfl)
    · generalize s'.pending = q at hnext
      cases hnext
      exact Or.inr (Or.inr rfl)
    · have hans : l.answered = true := (hready (Or.inl rfl)).1
      simp [hans] at hnot
  · rw [show s'.pending = [] from hnil] at hnext
    cases hnext
    exact (hready (Or.inr rfl)).1
  · obtain ⟨hclient, s, hc, htaken, hserver⟩ := h.parted hparted
    rw [hp] at hclient
    simp only [List.cons.injEq, and_true, List.cons_ne_nil, or_false] at hclient
    subst hclient
    generalize s'.pending = q at hnext
    cases hnext
    exact ⟨Or.inr rfl, s, hc, htaken.trans (hready (Or.inr rfl)).2.symm, hserver⟩

/-- An event of the session of the server keeps the invariant. -/
lemma Kept.server_step (h : Kept l) {e : Event UInt8} {s s' : ServerSession}
    (hreach : Connection.system.Reachable { l.connection with server := some s' })
    (he : e.isArrival = false) (hc : l.connection.server = some s)
    (hpermits : s.permits l.serverReady e = true)
    (hs : ServerSession.program.step s e = some s') :
    Kept { l with connection := { l.connection with server := some s' } } := by
  have hinv := (Connection.inv_of_reachable h.reachable).server s hc
  have hfailures := Program.failures_step ServerSession.failures_handler hinv.orderly he
    (Session.smooth_of_permits hpermits) hs
  obtain ⟨t, hp, haccept, hread⟩ := ServerSession.needs_of_step hinv he hpermits hs
  have hnone : failures s.log = [] :=
    (h.server s hc).resolve_right fun hended => by simp [hp] at hended
  refine ⟨hreach, h.client, fun r hr => Or.inl ?_, fun _ => rfl, fun hnot => ?_, h.together,
    fun hparted => ?_⟩
  · obtain rfl := Option.some.inj hr
    exact hfailures.trans hnone
  · have ht := (h.waiting hnot).2 s hc
    rw [hp] at ht
    obtain rfl : t = .accept := (List.cons.inj ht).1
    have hans : l.answered = true := haccept rfl
    simp [hans] at hnot
  · obtain ⟨-, r, hr, -, hserver⟩ := h.parted hparted
    obtain rfl := Option.some.inj (hc.symm.trans hr)
    rw [hp] at hserver
    simp only [List.cons.injEq, and_true, List.cons_ne_nil, or_false] at hserver
    exact absurd (h.inbound hparted hc).1 (hread hserver)

/-- Every event keeps the invariant. -/
lemma Kept.flow (h : Kept l) (hreach : Connection.system.Reachable l'.connection)
    (hflow : Flow l l') : Kept l' := by
  cases hflow with
  | client he hpermits hs => exact h.client_step hreach he hpermits hs
  | server he hc hpermits hs => exact h.server_step hreach he hc hpermits hs
  | accepted socket hn =>
    refine ⟨hreach, h.client, fun s hs => ?_, fun _ => rfl, fun hnot => ?_, h.together,
      fun hparted => ?_⟩
    · obtain rfl := Option.some.inj hs
      exact Or.inl rfl
    · refine ⟨(h.waiting hnot).1, fun s hs => ?_⟩
      obtain rfl := Option.some.inj hs
      rfl
    · obtain ⟨-, s, hs, -⟩ := h.parted hparted
      simp [hn] at hs
  | @ended i e s hc hparted hkind hi =>
    obtain ⟨rfl, hb⟩ := ((Connection.inv_of_reachable h.reachable).server s hc).orderly.busy hi
    have hnil : (s.retire 0 (.read false) (some e)).pending = [] := by
      simp [Session.retire, hb.pending]
    have hnone : failures s.log = [] :=
      (h.server s hc).resolve_right fun hended => by simp [hb.pending] at hended
    refine ⟨hreach, h.client, fun r hr => ?_, fun _ => rfl, fun hnot => ?_, h.together, fun _ => ?_⟩
    · obtain rfl := Option.some.inj hr
      refine Or.inr ⟨hparted, hnil, e, ?_, hkind⟩
      simp [hnone, Entry.failure, Task.kind]
    · have ht := (h.waiting hnot).2 s hc
      simp [hb.pending] at ht
    · obtain ⟨hclient, r, hr, htaken, -⟩ := h.parted hparted
      obtain rfl := Option.some.inj (hc.symm.trans hr)
      exact ⟨hclient, _, rfl, htaken, Or.inr hnil⟩
  | @toServer s f hc hf =>
    refine ⟨hreach, h.client, fun r hr => ?_, fun _ => rfl, fun hnot => ?_, h.together,
      fun hparted => ?_⟩
    · obtain rfl := Option.some.inj hr
      exact h.server s hc
    · refine ⟨(h.waiting hnot).1, fun r hr => ?_⟩
      obtain rfl := Option.some.inj hr
      exact (h.waiting hnot).2 s hc
    · rw [(h.inbound hparted hc).2, List.getElem?_eq_none le_rfl] at hf
      cases hf
  | toClient hc hf =>
    exact ⟨hreach, h.client, h.server, h.answered, h.waiting, h.together, h.parted⟩
  | answer hnot hc =>
    exact ⟨hreach, h.client, h.server, fun _ => by simp [hc], fun hans => by simp at hans,
      h.together, h.parted⟩
  | @part s hnot hclient hc hserver htaken =>
    refine ⟨hreach, h.client, fun r hr => ?_, h.answered, h.waiting, fun _ => rfl, fun _ => ?_⟩
    · refine Or.inl ((h.server r hr).resolve_right fun hended => ?_)
      simp [hnot] at hended
    · exact ⟨Or.inl hclient, s, hc, htaken, Or.inl hserver⟩

/-- The connection of a link does what a connection can do. -/
lemma reachable_step {e : LinkEvent} (h : Connection.system.Reachable l.connection)
    (hstep : l.step e = some l') : Connection.system.Reachable l'.connection := by
  cases e with
  | step e =>
    simp only [step] at hstep
    split_ifs at hstep
    obtain ⟨c, hc, rfl⟩ := Option.map_eq_some_iff.mp hstep
    exact h.step hc
  | _ =>
    simp only [step] at hstep
    split_ifs at hstep
    exact Option.some.inj hstep ▸ h

/-- One step keeps the invariant. -/
lemma Kept.step (h : Kept l) {e : LinkEvent} (hstep : l.step e = some l') : Kept l' :=
  h.flow (reachable_step h.reachable hstep) (flow_of_step hstep)

/-- **The invariant holds in every reachable state.** -/
lemma kept_of_reachable (h : system.Reachable l) : Kept l :=
  h.invariant kept_start fun _ _ _ hl hstep => hl.step hstep

/-! ## No livelock -/

/-- How many events there can be before the end. -/
def measure (l : Link) : ℕ :=
  l.connection.measure + (if l.answered then 0 else 1) + (if l.parted then 0 else 1)

/-- The end of the last read of the server lowers the measure of the connection. -/
lemma measure_ended {c : Connection} (hinv : Connection.Inv c) {s : ServerSession}
    (hc : c.server = some s) (hb : s.Busy (.read false)) (e : Error UInt8) :
    Connection.measure { c with server := some (s.retire 0 (.read false) (some e)) } <
      Connection.measure c := by
  have hle := hinv.toClient.length_le
  rw [Connection.replies, hc, Option.map_some, Option.getD_some] at hle
  have hrank : 0 < ServerSession.rank c.args.text.length s := by
    simp only [ServerSession.rank, hb.pending]
    split_ifs <;> simp_all
  have hzero : ServerSession.rank c.args.text.length (s.retire 0 (.read false) (some e)) = 0 := by
    simp [ServerSession.rank, Session.retire, hb.pending]
  have hload : (s.retire 0 (.read false) (some e)).load = s.load := rfl
  have harr : (s.retire 0 (.read false) (some e)).arrived = s.arrived := rfl
  simp only [Connection.measure, hc, hzero, hload, harr]
  unfold Session.load at *
  omega

/-- **Every event lowers the measure.** -/
lemma lowers_measure : system.Lowers Kept (fun _ => True) measure := by
  intro l e l' h _ hstep
  refine ⟨h.step hstep, ?_⟩
  have hinv := Connection.inv_of_reachable h.reachable
  have hlt : ∀ c, Connection.measure c < l.connection.measure →
      measure { l with connection := c } < measure l := by
    intro c hc
    simp only [measure]
    omega
  cases flow_of_step hstep with
  | client he hpermits hs =>
    exact hlt _ (Connection.measure_flow hinv (.client he (Session.smooth_of_permits hpermits) hs))
  | accepted socket hn => exact hlt _ (Connection.measure_flow hinv (.accepted socket hn))
  | server he hc hpermits hs =>
    exact hlt _ (Connection.measure_flow hinv
      (.server he (Session.smooth_of_permits hpermits) hc hs))
  | ended hc _ _ hi =>
    obtain ⟨rfl, hb⟩ := (hinv.server _ hc).orderly.busy hi
    exact hlt _ (measure_ended hinv hc hb _)
  | toServer hc hf => exact hlt _ (Connection.measure_flow hinv (.toServer hc hf))
  | toClient hc hf => exact hlt _ (Connection.measure_flow hinv (.toClient hc hf))
  | answer hnot => simp [measure, hnot]
  | part hnot => simp [measure, hnot]

/-! ## No deadlock -/

/-- The client session has printed its text, and both ends have come to their end, without a
complaint. -/
structure Finished (l : Link) : Prop where
  printed : printed l.connection.client.log = [l.connection.args.text ++ "\n"]
  complaints : complaints l.connection.client.log = []
  client : l.connection.client.pending = []
  server : ∃ s, l.connection.server = some s ∧ s.pending = [] ∧ Websocket.complaints s.log = []

/-- If the client session and the session of the server both wait for a message, a frame is on its
way between them.

**Proof sketch.** Otherwise the server has taken all frames that the client has sent, and the client
all frames that the server has sent. The client has sent one message in full. So the server has
read one message, and has sent it back in full; but the client has not read one. -/
lemma not_both_waiting {c : Connection} (hinv : Connection.Inv c) {s : ServerSession}
    (hc : c.server = some s) (hclient : c.client.Busy (.read false))
    (hserver : s.Busy (.read false))
    (hin : c.client.inbound = []) (hin' : s.inbound = [])
    (hle : c.client.outbound.length ≤ s.arrived.length)
    (hle' : s.outbound.length ≤ c.client.arrived.length) : False := by
  have htaken : s.taken = c.client.outbound := by
    have heq := (hinv.toServer s hc).eq_of_length_le hle
    rwa [Session.arrived, hin', List.append_nil] at heq
  have htaken' : c.client.taken = s.outbound := by
    have hpre := hinv.toClient
    rw [Connection.replies, hc] at hpre
    have heq := hpre.eq_of_length_le hle'
    rwa [Session.arrived, hin, List.append_nil] at heq
  -- the client has sent one message in full
  have hsent : assemble c.client.outbound = ⟨handed c.client.log, none⟩ := hclient.sides.2
  have hone := ClientSession.length_handed_of_read hinv.client hclient
  -- the server has read it, and has handed it to a write
  have hread := hserver.sides.1.count
  rw [htaken, hsent, hone, Bool.toNat_false, Nat.add_zero] at hread
  have hhanded := (hinv.server s hc).contract.handed
  have hreads : ServerSession.reads s = 1 := hread.symm
  -- it has sent it back in full, and the client has taken all of it
  have hback : assemble s.outbound = ⟨handed s.log, none⟩ := hserver.sides.2
  have hcount := hclient.sides.1.count
  obtain ⟨-, hnone⟩ : ClientSession.Phase c.client (.read false) :=
    hinv.client.phase _ (by simp [hclient.pending])
  rw [htaken', hback, hhanded, hreads, hnone] at hcount
  simp at hcount

/-- The client session goes on by itself, unless it waits for the server. -/
lemma exists_client_step {t : Websocket.Task UInt8} (hb : l.connection.client.Busy t)
    (hready : l.clientReady t = true)
    (hnot : ¬ (t = .read false ∧ l.connection.client.inbound = [])) : ∃ e, l.step e ≠ none := by
  obtain ⟨e, s', he, hpermits, hs⟩ :=
    Program.exists_step_of_busy (P := ClientSession.program) hb hready hnot
  exact ⟨.step (.client e), by simp [step, permits, Connection.step, he, hpermits, hs]⟩

/-- The session of the server goes on by itself, once it has answered and before it has parted,
unless it waits for the client. -/
lemma exists_server_step (h : Kept l) (hans : l.answered = true) (hparted : l.parted = false)
    {s : ServerSession} (hc : l.connection.server = some s)
    (hnot : ¬ (s.Busy (.read false) ∧ s.inbound = [])) : ∃ e, l.step e ≠ none := by
  have hnone : failures s.log = [] :=
    (h.server s hc).resolve_right fun hended => by simp [hparted] at hended
  obtain ⟨t, hb⟩ := ServerSession.exists_busy
    ((Connection.sessions_reachable h.reachable).2 s hc) hnone
  have hready : l.serverReady t = true := by
    cases t with
    | accept => exact hans
    | _ => rfl
  obtain ⟨e, s', he, hpermits, hs⟩ := Program.exists_step_of_busy (P := ServerSession.program) hb
    hready fun hwait => hnot ⟨hwait.1 ▸ hb, hwait.2⟩
  exact ⟨.step (.server e), by simp [step, permits, Connection.step, he, hc, hpermits, hs]⟩

/-- A client session that has shaken hands was answered. -/
lemma Kept.answered_of_pending (h : Kept l) {t : Websocket.Task UInt8}
    (hp : l.connection.client.pending = [t]) (h₁ : t ≠ .resolve) (h₂ : t ≠ .connect)
    (h₃ : t ≠ .handshake) : l.answered = true := by
  by_contra hnot
  have hclient := (h.waiting (by simpa using hnot)).1
  simp [hp, h₁, h₂, h₃] at hclient

/-- While the handshake of the client is not answered, the server can accept the connection, or
answer. -/
lemma exists_step_of_handshake (h : Kept l) (hb : l.connection.client.Busy .handshake)
    (hans : l.answered = false) : ∃ e, l.step e ≠ none := by
  have hinv := Connection.inv_of_reachable h.reachable
  cases hc : l.connection.server with
  | none =>
    refine ⟨.step (.accepted ⟨.ok ⟨.v4 127 0 0 1, 0⟩, .ok ⟨.v4 127 0 0 1, 0⟩⟩), ?_⟩
    obtain ⟨hstarted, -⟩ : ClientSession.Phase l.connection.client .handshake :=
      hinv.client.phase _ (by simp [hb.pending])
    simp [step, permits, Connection.step, hc, hstarted, ClientSession.stages]
  | some s =>
    have hs := (h.waiting hans).2 s hc
    exact ⟨.answer, by simp [step, hans, hb.pending, hc, hs]⟩

/-- While the client waits for its reply, the server can go on, or a frame can be delivered. -/
lemma exists_step_of_read (h : Kept l) (hb : l.connection.client.Busy (.read false))
    (hin : l.connection.client.inbound = []) : ∃ e, l.step e ≠ none := by
  have hinv := Connection.inv_of_reachable h.reachable
  have hans := h.answered_of_pending hb.pending (by simp) (by simp) (by simp)
  have hparted : l.parted = false := by
    by_contra hp
    have hclient := (h.parted (by simpa using hp)).1
    simp [hb.pending] at hclient
  obtain ⟨s, hc⟩ := Option.isSome_iff_exists.mp (h.answered hans)
  by_cases hwait : s.Busy (.read false) ∧ s.inbound = []
  swap
  · exact exists_server_step h hans hparted hc hwait
  -- both wait: there is a frame to be delivered
  by_cases hle : l.connection.client.outbound.length ≤ s.arrived.length
  swap
  · refine ⟨.step .toServer, ?_⟩
    simp [step, permits, Connection.step, hc, List.getElem?_eq_getElem (Nat.lt_of_not_le hle)]
  by_cases hle' : s.outbound.length ≤ l.connection.client.arrived.length
  · exact (not_both_waiting hinv hc hb hwait.1 hin hwait.2 hle hle').elim
  · refine ⟨.step .toClient, ?_⟩
    simp [step, permits, Connection.step, hc, List.getElem?_eq_getElem (Nat.lt_of_not_le hle')]

/-- While the closing handshake of the client is not answered, the server can go on until it reads
the close frame. -/
lemma exists_step_of_close (h : Kept l) (hb : l.connection.client.Busy .close)
    (hparted : l.parted = false) : ∃ e, l.step e ≠ none := by
  have hinv := Connection.inv_of_reachable h.reachable
  have hans := h.answered_of_pending hb.pending (by simp) (by simp) (by simp)
  obtain ⟨s, hc⟩ := Option.isSome_iff_exists.mp (h.answered hans)
  by_cases hwait : s.Busy (.read false) ∧ s.inbound = []
  swap
  · exact exists_server_step h hans hparted hc hwait
  by_cases hle : l.connection.client.outbound.length ≤ s.arrived.length
  swap
  · refine ⟨.step .toServer, ?_⟩
    simp [step, permits, Connection.step, hc, List.getElem?_eq_getElem (Nat.lt_of_not_le hle)]
  have htaken : s.taken = l.connection.client.outbound := by
    have heq := (hinv.toServer s hc).eq_of_length_le hle
    rwa [Session.arrived, hwait.2, List.append_nil] at heq
  exact ⟨.part, by simp [step, hparted, hb.pending, hc, hwait.1.pending, htaken]⟩

/-- When the client session has ended, the server is at its end too, or can get there. -/
lemma exists_step_of_ended (h : Kept l) (hnot : ¬ Finished l)
    (hclient : l.connection.client.pending = []) : ∃ e, l.step e ≠ none := by
  have hinv := Connection.inv_of_reachable h.reachable
  have hparted := h.together hclient
  obtain ⟨hreachable, hserver⟩ := Connection.sessions_reachable h.reachable
  obtain ⟨-, s, hc, -, hs | hs⟩ := h.parted hparted
  · refine ⟨.step (.server (.complete 0 (some ⟨.closed, []⟩))), ?_⟩
    simp [step, permits, ends, Session.permits, Connection.step, Event.isArrival, hc, hparted, hs,
      ServerSession.program, Program.step, Session.finish]
  · refine absurd ?_ hnot
    have hquiet : complaints s.log = [] := by
      have htold := ServerSession.told_of_reachable (hserver s hc)
      rcases htold.complaints with ⟨hnone, -⟩ | ⟨f, hf, ht⟩
      · exact hnone
      · rcases h.server s hc with hfared | ⟨-, -, e, hfared, hkind⟩
        · simp [hf] at hfared
        · obtain rfl : f = (.read, e) := by simpa [hf] using hfared
          simpa [ServerSession.report, hkind] using ht
    cases ClientSession.outcome_of_reachable hreachable with
    | running hp => simp [hclient] at hp
    | failed _ hf => simp [h.client] at hf
    | aborted _ hf => simp [h.client] at hf
    | replied _ _ _ hprinted hcomplaints =>
      refine ⟨hinv.printed.resolve_left ?_, hcomplaints, hclient, s, hc, hs, hquiet⟩
      simp [hprinted]

/-- **A link does not get stuck**: before the end, some event is enabled.

**Proof sketch.** The client session goes on by itself, unless it waits for the server: for an
answer to one of its handshakes, or for its reply. In each case the server can go on, or a frame is
on its way. When the client session has ended, the last read of the server can end. -/
lemma exists_step (h : Kept l) (hnot : ¬ Finished l) : ∃ e, l.step e ≠ none := by
  have hinv := Connection.inv_of_reachable h.reachable
  by_cases hclient : l.connection.client.pending = []
  · exact exists_step_of_ended h hnot hclient
  obtain ⟨t, ht⟩ := List.exists_mem_of_ne_nil _ hclient
  obtain ⟨i, hi⟩ := List.mem_iff_getElem?.mp ht
  obtain ⟨-, hb⟩ := hinv.client.orderly.busy hi
  cases t with
  | handshake =>
    cases hans : l.answered with
    | true => exact exists_client_step hb hans (by simp)
    | false => exact exists_step_of_handshake h hb hans
  | close =>
    cases hparted : l.parted with
    | true => exact exists_client_step hb hparted (by simp)
    | false => exact exists_step_of_close h hb hparted
  | read whole =>
    by_cases hwait : whole = false ∧ l.connection.client.inbound = []
    · obtain ⟨rfl, hin⟩ := hwait
      exact exists_step_of_read h hb hin
    · exact exists_client_step hb rfl (by simpa using hwait)
  | _ => exact exists_client_step hb rfl (by simp)

/-! ## Completion -/

/-- Every way of going on leads to the end. -/
structure Completes (l : Link) : Prop where
  /-- No run is longer than the measure says. -/
  bounded : ∀ es l', system.run l es = some l' → es.length ≤ measure l
  /-- A run that cannot be continued has come to the end. -/
  finished : ∀ es l', system.run l es = some l' → (∀ e, l'.step e = none) → Finished l'
  /-- There is such a run. -/
  exists_run : ∃ es l', system.run l es = some l' ∧ Finished l'

/-- **Every link completes**: from each state that it can reach, and in whatever order events come,
the client session prints its text after a bounded number of them, and both ends come to their end.

**Proof sketch.** Every event lowers the measure, and before the end there is one that is
enabled. -/
theorem completes_of_reachable (h : system.Reachable l) : Completes l := by
  have hl := kept_of_reachable h
  have hfinished : ∀ es l', system.run l es = some l' → (∀ e, l'.step e = none) → Finished l' := by
    intro es l' hrun hstuck
    by_contra hnot
    obtain ⟨e, hne⟩ := exists_step (lowers_measure.run hl (fun _ _ => trivial) hrun) hnot
    exact hne (hstuck e)
  refine ⟨fun es l' hrun => ?_, hfinished, ?_⟩
  · have := Automata.System.length_le_of_run lowers_measure hl (fun _ _ => trivial) hrun
    omega
  · obtain ⟨es, l', hrun, -, hstuck⟩ := Automata.System.exists_maximal_run lowers_measure hl
    exact ⟨es, l', hrun, hfinished es l' hrun fun e => hstuck e trivial⟩

/-- Events that carry a message to the server and back, up to the moment when the server has read on
and has answered the close frame. -/
def almostThere : List LinkEvent :=
  (Connection.roundTrip.take 3).map .step ++ .answer ::
    ((Connection.roundTrip.drop 3).take 12).map .step ++ [.part]

/-- A link on which both ends have still to come to their end. -/
theorem completes_almostThere :
    ∃ l, system.run (system.start ⟨"localhost", "5555", "hi"⟩) almostThere = some l ∧
      l.connection.client.pending = [.close] ∧ printed l.connection.client.log = [] ∧
      Completes l := by
  obtain ⟨l, hrun, hp, hprinted⟩ : ∃ l,
      system.run (system.start ⟨"localhost", "5555", "hi"⟩) almostThere = some l ∧
        l.connection.client.pending = [.close] ∧ printed l.connection.client.log = [] :=
    ⟨_, rfl, rfl, rfl⟩
  exact ⟨l, hrun, hp, hprinted, completes_of_reachable (Automata.System.reachable_of_run hrun)⟩

end Link

end Vsna
