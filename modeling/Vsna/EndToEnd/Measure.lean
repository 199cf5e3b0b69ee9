import Vsna.EndToEnd.Connection
import Vsna.Websocket.Smooth

set_option relaxedAutoImplicit false
set_option autoImplicit false

/-!
# How far a connection has to go

A bound on what can still happen on a connection on which nothing fails. It counts the operations of
the two sessions that are still to come, the bytes they have still to send, and the frames that are
still to be delivered and taken.

## Main definitions

* `Vsna.ClientSession.rank`, `Vsna.ServerSession.rank` — what each session has before it.
* `Vsna.Connection.Flow`, `Vsna.Connection.measure` — the smooth events of a connection, and how
  many of them there can be.

## Main results

* `Vsna.ClientSession.rank_step`, `Vsna.ServerSession.rank_step` — every smooth event of a session
  lowers its rank.
* `Vsna.Connection.measure_flow` — every smooth event lowers the measure.
-/

namespace Vsna

open Text Websocket

/-! ## Client sessions -/

namespace ClientSession

/-- How many smooth events a client session has before it, apart from frames on the way. -/
def rank (s : ClientSession) : ℕ :=
  match s.pending with
  | [] => 0
  | .resolve :: _ => 3 * s.members.text.length + 10
  | .connect :: _ => 3 * s.members.text.length + 9
  | .handshake :: _ => 3 * s.members.text.length + 8
  | .write src _ sent fin :: _ =>
    if fin then 4 else 3 * ((src.bytes s.buffer).length - sent) + 7
  | .read whole :: _ => if whole then 2 else 3
  | .close :: _ => 1
  | .accept :: _ => 0

variable {s s' : ClientSession}

/-- Every smooth event of a client session lowers its rank by more than it adds to the frames on
the way. -/
lemma rank_step (h : ClientInv s) {e : Event UInt8} (he : e.isArrival = false)
    (hsmooth : e.smooth = true) (hstep : program.step s e = some s') :
    rank s' + s'.load < rank s + s.load := by
  rcases Program.smooth_cases h.orderly he hsmooth hstep with
    ⟨f, fs, hb, hin, rfl⟩ | ⟨src, text, sent, n, fin, hb, hn, hfin, rfl⟩ | ⟨t, hb, hdone, -, rfl⟩
  · cases hf : f.fin <;> simp [rank, hb.pending, hf, Session.load, hin, Session.take]
    omega
  · simp only [rank, hb.pending, Session.load, Session.send, List.length_append]
    cases fin with
    | true => simp; omega
    | false =>
      have hn₀ : n ≠ 0 := hfin.resolve_right (by simp)
      simp
      omega
  · have hload : Session.load (program.handler (s.retire 0 t none) t.kind none) = s.load :=
      (proper_program (s.retire 0 t none) t.kind none).load
    rw [hload, Nat.add_lt_add_iff_right]
    have hphase := h.phase t (by simp [hb.pending])
    cases t with
    | accept => exact hphase.elim
    | resolve => simp [rank, hb.pending, program, handler, Task.kind, onResolve, Session.setOption,
        Session.note, Session.asyncConnect, Session.begin, Session.retire]
    | connect => simp [rank, hb.pending, program, handler, Task.kind, onConnect,
        Session.setOption, Session.note, Session.asyncHandshake, Session.begin, Session.retire]
    | handshake => simp [rank, hb.pending, program, handler, Task.kind, onHandshake,
        Session.asyncWrite, Session.begin, Session.retire, Source.bytes]
    | write src text sent fin =>
      obtain rfl : fin = true := hdone
      simp [rank, hb.pending, program, handler, Task.kind, onWrite, Session.asyncRead,
        Session.begin, Session.retire]
    | read whole =>
      obtain rfl : whole = true := hdone
      simp [rank, hb.pending, program, handler, Task.kind, onRead, Session.asyncClose,
        Session.begin, Session.retire]
    | close => simp [rank, hb.pending, program, handler, Task.kind, onClose, Session.cout,
        Session.note, Session.retire]

end ClientSession

/-! ## Sessions of the server -/

namespace ServerSession

/-- How many smooth events a session of the server has before it, apart from frames on the way, if
it reads one message of at most `n` bytes. -/
def rank (n : ℕ) (s : ServerSession) : ℕ :=
  match s.pending with
  | .accept :: _ => 3 * n + 9
  | .read whole :: _ =>
    if reads s = 0 then (if whole then 3 * n + 7 else 3 * n + 8) else (if whole then 0 else 1)
  | .write src _ sent fin :: _ =>
    if fin then 2 else 3 * ((src.bytes s.buffer).length - sent) + 5
  | _ => 0

variable {s s' : ServerSession} {n : ℕ}

/-- Every smooth event of a session of the server lowers its rank by more than it adds to the
frames on the way, if it has taken at most one message. -/
lemma rank_step (h : EchoInv s) (hone : (assemble s.taken).complete.length ≤ 1)
    (hlen : ∀ m ∈ (assemble s.taken).complete, m.data.length ≤ n) {e : Event UInt8}
    (he : e.isArrival = false) (hsmooth : e.smooth = true) (hstep : program.step s e = some s') :
    rank n s' + s'.load < rank n s + s.load := by
  rcases Program.smooth_cases h.orderly he hsmooth hstep with
    ⟨f, fs, hb, hin, rfl⟩ | ⟨src, text, sent, k, fin, hb, hk, hfin, rfl⟩ | ⟨t, hb, hdone, -, rfl⟩
  · have hr : reads (s.take 0 f fs) = reads s := by simp [reads, Entry.succeeded]
    have hload : (s.take 0 f fs).load + 1 = s.load := by
      simp [Session.load, Session.take, hin, Nat.add_assoc]
    have hp : (s.take 0 f fs).pending = [.read f.fin] := by simp [Session.take, hb.pending]
    simp only [rank, hb.pending, hp, hr]
    split_ifs <;> simp_all <;> omega
  · simp only [rank, hb.pending, Session.load, Session.send, List.length_append]
    cases fin with
    | true => simp; omega
    | false =>
      have hk₀ : k ≠ 0 := hfin.resolve_right (by simp)
      simp
      omega
  · have hload : Session.load (program.handler (s.retire 0 t none) t.kind none) = s.load :=
      (proper_program (s.retire 0 t none) t.kind none).load
    rw [hload, Nat.add_lt_add_iff_right]
    have hphase := h.phase t (by simp [hb.pending])
    cases t with
    | accept =>
      have hr : reads (program.handler (s.retire 0 .accept none) .accept none) = reads s := by
        simp [reads, program, handler, onAccept, doRead, Session.asyncRead, Task.kind,
          Entry.succeeded]
      have hp : (program.handler (s.retire 0 .accept none) .accept none).pending =
          [.read false] := by
        simp [program, handler, onAccept, doRead, Session.asyncRead, Session.begin,
          Session.retire, hb.pending]
      simp only [Task.kind, rank, hb.pending, hp, hr]
      split_ifs <;> omega
    | read whole =>
      obtain rfl : whole = true := hdone
      have hp : (program.handler (s.retire 0 (.read true) none) .read none).pending =
          [.write (.dynamic s.buffer.length) s.gotText 0 false] := by
        simp [program, handler, onRead, Session.asyncWriteBuffer, Session.setText, Session.cout,
          Session.note, Session.begin, Session.retire, hb.pending]
      have hbuf : (program.handler (s.retire 0 (.read true) none) .read none).buffer =
          s.buffer := rfl
      -- it is the first message, and the buffer holds it
      have hcount := hb.sides.1.count
      have hreads : reads s = 0 := by
        simp only [Bool.toNat_true] at hcount
        exact Nat.eq_zero_of_le_zero (by unfold reads; omega)
      have hlast := (hb.retire_success rfl).2 rfl
      have hle : s.buffer.length ≤ n := hlen _ (List.mem_of_getLast? hlast)
      simp only [Task.kind, rank, hb.pending, hp, hreads, hbuf, Source.bytes]
      simp
      omega
    | write src text sent fin =>
      obtain rfl : fin = true := hdone
      have hrw : reads s = writes s + 1 := hphase
      have hr : reads (program.handler (s.retire 0 (.write src text sent true) none) .write none) =
          reads s := by
        simp [reads, program, handler, onWrite, doRead, Session.asyncRead, Session.consume,
          Task.kind, Entry.succeeded]
      have hp : (program.handler (s.retire 0 (.write src text sent true) none) .write
          none).pending = [.read false] := by
        simp [program, handler, onWrite, doRead, Session.asyncRead, Session.consume, Session.begin,
          Session.retire, hb.pending]
      simp only [Task.kind, rank, hb.pending, hp, hr]
      simp [hrw]
    | _ => exact hphase.elim

end ServerSession

/-! ## Connections -/

namespace Connection

/-- How many smooth events there can be before the end: those of the two sessions, and for every
frame its delivery and its being taken. -/
def measure (c : Connection) : ℕ :=
  match c.server with
  | none => ClientSession.rank c.client + c.client.load + (3 * c.args.text.length + 10)
  | some s =>
    (ClientSession.rank c.client + c.client.load - 2 * s.arrived.length) +
      (ServerSession.rank c.args.text.length s + s.load - 2 * c.client.arrived.length)

variable {c c' : Connection}

/-- What one smooth event may do to a connection. -/
inductive Flow (c : Connection) : Connection → Prop
  | client {e : Event UInt8} {s' : ClientSession} (he : e.isArrival = false)
      (hsmooth : e.smooth = true) (hs : ClientSession.program.step c.client e = some s') :
      Flow c { c with client := s' }
  | accepted (socket : Socket) (hn : c.server = none) :
      Flow c { c with server := some (ServerSession.program.start socket) }
  | server {e : Event UInt8} {s s' : ServerSession} (he : e.isArrival = false)
      (hsmooth : e.smooth = true) (hc : c.server = some s)
      (hs : ServerSession.program.step s e = some s') : Flow c { c with server := some s' }
  | toServer {s : ServerSession} {f : Frame UInt8} (hc : c.server = some s)
      (hf : c.client.outbound[s.arrived.length]? = some f) :
      Flow c { c with server := some (s.arrive f) }
  | toClient {s : ServerSession} {f : Frame UInt8} (hc : c.server = some s)
      (hf : s.outbound[c.client.arrived.length]? = some f) :
      Flow c { c with client := c.client.arrive f }

/-- **Every smooth event lowers the measure.** -/
lemma measure_flow (hinv : Inv c) (hflow : Flow c c') : measure c' < measure c := by
  cases hflow with
  | client he hsmooth hs =>
    have hrank := ClientSession.rank_step hinv.client he hsmooth hs
    have harr := ClientSession.proper_program.arrived hs he
    obtain ⟨-, hout, -⟩ := ClientSession.proper_program.step hs
    have hout := hout.length_le
    cases hc : c.server with
    | none => simp only [measure, hc]; omega
    | some s =>
      have hle := (hinv.toServer s hc).length_le
      simp only [measure, hc, harr]
      unfold Session.load at *
      omega
  | accepted socket hn =>
    have hempty : c.client.arrived = [] := by simpa [replies, hn] using hinv.toClient
    have hrank : ServerSession.rank c.args.text.length (ServerSession.program.start socket) =
      3 * c.args.text.length + 9 := rfl
    have hload : Session.load (ServerSession.program.start socket) = 0 := rfl
    have harr : Session.arrived (ServerSession.program.start socket) = [] := rfl
    simp only [measure, hn, hrank, hload, harr, hempty, List.length_nil]
    omega
  | @server e s s' he hsmooth hc hs =>
    have hecho := hinv.server s hc
    -- it has taken at most the one message that the client has sent
    have htaken : (assemble s.taken).complete <+: [⟨true, c.args.text⟩] :=
      (prefix_assemble_complete ((List.prefix_append _ _).trans (hinv.toServer s hc))).trans
        hinv.sent_prefix
    have hrank := ServerSession.rank_step hecho htaken.length_le (n := c.args.text.length)
      (fun m hm => by
        obtain rfl := List.mem_singleton.mp (htaken.subset hm)
        exact le_rfl) he hsmooth hs
    have harr := ServerSession.proper_program.arrived hs he
    obtain ⟨-, hout, -⟩ := ServerSession.proper_program.step hs
    have hout := hout.length_le
    have hle := hinv.toClient.length_le
    rw [replies, hc] at hle
    simp only [measure, hc, harr]
    simp only [Option.map_some, Option.getD_some] at hle
    unfold Session.load at *
    omega
  | @toServer s f hc hf =>
    obtain ⟨hlt, -⟩ := List.getElem?_eq_some_iff.mp hf
    have hrank : ServerSession.rank c.args.text.length (s.arrive f) =
      ServerSession.rank c.args.text.length s := rfl
    have hload : (s.arrive f).load = s.load + 1 := by
      simp [Session.load, Session.arrive, Nat.add_assoc]
    have hle : 2 * c.client.outbound.length ≤ c.client.load := Nat.le_add_right _ _
    have hle' := hinv.toClient.length_le
    rw [replies, hc] at hle'
    simp only [Option.map_some, Option.getD_some] at hle'
    simp only [measure, hc, hrank, hload, Session.arrived_arrive, List.length_append,
      List.length_singleton]
    unfold Session.load at *
    omega
  | @toClient s f hc hf =>
    obtain ⟨hlt, -⟩ := List.getElem?_eq_some_iff.mp hf
    have hrank : ClientSession.rank (c.client.arrive f) = ClientSession.rank c.client := rfl
    have hload : (c.client.arrive f).load = c.client.load + 1 := by
      simp [Session.load, Session.arrive, Nat.add_assoc]
    have hle := (hinv.toServer s hc).length_le
    simp only [measure, hc, hrank, hload, Session.arrived_arrive, List.length_append,
      List.length_singleton]
    unfold Session.load at *
    omega

end Connection

end Vsna
