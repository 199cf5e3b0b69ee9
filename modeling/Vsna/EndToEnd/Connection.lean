import Vsna.Client.Session
import Vsna.Server.Session

set_option relaxedAutoImplicit false
set_option autoImplicit false

/-!
# A client session and its server session

The two ends of one connection, with what the network carries between them. Each direction is a
reliable first-in-first-out channel: the frame delivered next is the one that was sent after
those delivered so far. Either end may be slow or may fail at any moment, and the server may
accept the connection at any time, or never.

## Main definitions

* `Vsna.Connection`, `Connection.system` — the two ends, and their transition system.
* `Vsna.Connection.Effect` — what one event does.
* `Vsna.Connection.Inv`, `Connection.Agreement` — the joint invariant, and what it promises.

## Main results

* `Vsna.Connection.inv_of_reachable` — the joint invariant holds in every reachable state.
* `Vsna.Connection.agreement_of_mem` — the two ends agree on every one of any number of
  connections.
-/

namespace Vsna

open Text Websocket

/-- A client session that was run with the arguments `args`, and the server session it is
connected to, once the server has created it. -/
structure Connection where
  args : ClientMembers
  client : ClientSession
  server : Option ServerSession := none
  deriving DecidableEq

/-- What can happen on a connection. -/
inductive ConnectionEvent
  /-- An event of the client session, other than an arrival. -/
  | client (e : Event UInt8)
  /-- The server creates a session for the connection, and runs it. -/
  | accepted (socket : Socket)
  /-- An event of the server session, other than an arrival. -/
  | server (e : Event UInt8)
  /-- The next frame the client has sent arrives at the server. -/
  | toServer
  /-- The next frame the server has sent arrives at the client. -/
  | toClient
  deriving DecidableEq

namespace Connection

/-! ## The two ends and the network -/

/-- One event of a connection. -/
def step (c : Connection) : ConnectionEvent → Option Connection
  | .client e =>
    if e.isArrival then none
    else (ClientSession.program.step c.client e).map fun s => { c with client := s }
  | .accepted socket =>
    if c.server.isSome then none
    else some { c with server := some (ServerSession.program.start socket) }
  | .server e =>
    if e.isArrival then none
    else (c.server.bind (ServerSession.program.step · e)).map fun s => { c with server := some s }
  | .toServer => do
    let s ← c.server
    let f ← c.client.outbound[s.arrived.length]?
    return { c with server := some (s.arrive f) }
  | .toClient => do
    let s ← c.server
    let f ← s.outbound[c.client.arrived.length]?
    return { c with client := c.client.arrive f }

/-- The transition system of one connection, which begins with the client session alone. -/
def system : Automata.System ClientMembers Connection ConnectionEvent where
  start args := { args := args, client := ClientSession.program.start args }
  step := step

/-- The frames the server has sent on this connection. -/
def replies (c : Connection) : List (Frame UInt8) := (c.server.map Session.outbound).getD []

/-- What one event may do to a connection. -/
inductive Effect (c : Connection) : Connection → Prop
  | client {e : Event UInt8} {s' : ClientSession} (he : e.isArrival = false)
      (hs : ClientSession.program.step c.client e = some s') : Effect c { c with client := s' }
  | accepted (socket : Socket) (hn : c.server = none) :
      Effect c { c with server := some (ServerSession.program.start socket) }
  | server {e : Event UInt8} {s s' : ServerSession} (he : e.isArrival = false)
      (hc : c.server = some s) (hs : ServerSession.program.step s e = some s') :
      Effect c { c with server := some s' }
  | toServer {s : ServerSession} {f : Frame UInt8} (hc : c.server = some s)
      (hf : c.client.outbound[s.arrived.length]? = some f) :
      Effect c { c with server := some (s.arrive f) }
  | toClient {s : ServerSession} {f : Frame UInt8} (hc : c.server = some s)
      (hf : s.outbound[c.client.arrived.length]? = some f) :
      Effect c { c with client := c.client.arrive f }

variable {c c' : Connection}

/-- Inversion of an event. -/
lemma effect_of_step {e : ConnectionEvent} (h : c.step e = some c') : Effect c c' := by
  cases e with
  | client e =>
    simp only [step] at h
    split_ifs at h with he
    obtain ⟨s', hs, rfl⟩ := Option.map_eq_some_iff.mp h
    exact .client (by simpa using he) hs
  | accepted socket =>
    simp only [step] at h
    split_ifs at h with hn
    obtain rfl := Option.some.inj h
    exact .accepted socket (by simpa using hn)
  | server e =>
    simp only [step] at h
    split_ifs at h with he
    obtain ⟨s', hb, rfl⟩ := Option.map_eq_some_iff.mp h
    obtain ⟨s, hc, hs⟩ := Option.bind_eq_some_iff.mp hb
    exact .server (by simpa using he) hc hs
  | toServer =>
    simp only [step, Option.bind_eq_bind, Option.bind_eq_some_iff] at h
    obtain ⟨s, hc, f, hf, hc'⟩ := h
    obtain rfl := Option.some.inj hc'
    exact .toServer hc hf
  | toClient =>
    simp only [step, Option.bind_eq_bind, Option.bind_eq_some_iff] at h
    obtain ⟨s, hc, f, hf, hc'⟩ := h
    obtain rfl := Option.some.inj hc'
    exact .toClient hc hf

/-! ## The joint invariant -/

/-- The joint invariant: each end keeps its own, and what has arrived at an end is a prefix of
what the other end has sent. -/
structure Inv (c : Connection) : Prop where
  client : ClientSession.ClientInv c.client
  members : c.client.members = c.args
  server : ∀ s ∈ c.server, ServerSession.EchoInv s
  toServer : ∀ s ∈ c.server, s.arrived <+: c.client.outbound
  toClient : c.client.arrived <+: c.replies

/-- Delivering the frame that is next in order. -/
lemma prefix_deliver {α : Type*} {delivered sent : List α} {f : α} (h : delivered <+: sent)
    (hf : sent[delivered.length]? = some f) : delivered ++ [f] <+: sent := by
  obtain ⟨hl, rfl⟩ := List.getElem?_eq_some_iff.mp hf
  exact List.concat_get_prefix h hl

/-- The client session alone, right after it was run. -/
lemma inv_start (args : ClientMembers) : Inv (system.start args) where
  client := ClientSession.clientInv_start args
  members := rfl
  server _ hs := by simp [system] at hs
  toServer _ hs := by simp [system] at hs
  toClient := List.prefix_rfl

/-- Every event keeps the joint invariant.

**Proof sketch.** An end that acts keeps its own invariant, takes no frame off the network and
only adds to what it has sent. A delivery adds to what has arrived at one end the frame that
comes next in what the other end has sent. -/
lemma Inv.step (h : Inv c) (hc' : Effect c c') : Inv c' := by
  cases hc' with
  | client he hs =>
    obtain ⟨-, hout, hmem⟩ := ClientSession.proper_program.step hs
    refine ⟨ClientSession.chainRule_clientInv.step h.client hs, hmem.trans h.members, h.server,
      fun s hs' => (h.toServer s hs').trans hout, ?_⟩
    exact ClientSession.proper_program.arrived hs he ▸ h.toClient
  | accepted socket hn =>
    have hempty : c.client.arrived = [] := by simpa [replies, hn] using h.toClient
    refine ⟨h.client, h.members, fun s hs => ?_, fun s hs => ?_, hempty ▸ List.nil_prefix⟩
    · obtain rfl := Option.some.inj hs
      exact ServerSession.echoInv_start socket
    · obtain rfl := Option.some.inj hs
      exact List.nil_prefix
  | server he hc hs =>
    obtain ⟨-, hout, -⟩ := ServerSession.proper_program.step hs
    refine ⟨h.client, h.members, fun s' hs' => ?_, fun s' hs' => ?_, ?_⟩
    · obtain rfl := Option.some.inj hs'
      exact ServerSession.chainRule_echoInv.step (h.server _ hc) hs
    · obtain rfl := Option.some.inj hs'
      exact ServerSession.proper_program.arrived hs he ▸ h.toServer _ hc
    · have hcl := h.toClient
      rw [replies, hc] at hcl
      exact hcl.trans hout
  | toServer hc hf =>
    refine ⟨h.client, h.members, fun s' hs' => ?_, fun s' hs' => ?_, ?_⟩
    · obtain rfl := Option.some.inj hs'
      exact (h.server _ hc).arrive _
    · obtain rfl := Option.some.inj hs'
      rw [Session.arrived_arrive]
      exact prefix_deliver (h.toServer _ hc) hf
    · have hcl := h.toClient
      rw [replies, hc] at hcl
      exact hcl
  | toClient hc hf =>
    refine ⟨h.client.arrive _, h.members, h.server, h.toServer, ?_⟩
    have hcl := h.toClient
    rw [replies, hc] at hcl
    rw [Session.arrived_arrive, replies, hc]
    exact prefix_deliver hcl hf

/-- **The joint invariant holds in every reachable state.** -/
lemma inv_of_reachable (h : system.Reachable c) : Inv c :=
  h.invariant inv_start fun _ _ _ hs he => hs.step (effect_of_step he)

/-- Each of the two sessions is in a state that it can reach alone. -/
lemma sessions_reachable (h : system.Reachable c) :
    ClientSession.program.system.Reachable c.client ∧
      ∀ s ∈ c.server, ServerSession.program.system.Reachable s := by
  refine h.invariant (P := fun c => ClientSession.program.system.Reachable c.client ∧
    ∀ s ∈ c.server, ServerSession.program.system.Reachable s)
    (fun args => ⟨.start args, by simp [system]⟩) fun c e c' hc he => ?_
  cases effect_of_step he with
  | client _ hs => exact ⟨hc.1.step hs, hc.2⟩
  | accepted socket => exact ⟨hc.1, fun s hs => Option.some.inj hs ▸ .start socket⟩
  | server _ hcs hs => exact ⟨hc.1, fun s hs' => Option.some.inj hs' ▸ (hc.2 _ hcs).step hs⟩
  | @toServer s f hcs =>
    exact ⟨hc.1, fun s hs' => Option.some.inj hs' ▸ (hc.2 _ hcs).step (e := .arrive f) rfl⟩
  | @toClient s f hcs => exact ⟨hc.1.step (e := .arrive f) rfl, hc.2⟩

/-! ## Agreement -/

/-- The client has sent at most the one message it was run with. -/
lemma Inv.sent_prefix (h : Inv c) :
    (assemble c.client.outbound).complete <+: [⟨true, c.args.text⟩] := by
  have hh := h.client.handed
  rw [ClientSession.message, h.members] at hh
  exact h.client.orderly.outbound_prefix.trans hh

/-- The only message the server can have sent in full is the one the client was run with.

**Proof sketch.** What the server has sent in full is a prefix of what it has handed to writes,
this of the messages that have arrived at it, this of those the client has sent in full, and
this of the one message the client hands to a write. -/
lemma Inv.replies_prefix (h : Inv c) :
    (assemble c.replies).complete <+: [⟨true, c.args.text⟩] := by
  cases hc : c.server with
  | none => simp [replies, hc]
  | some s =>
    have hecho := (h.server s hc).contract
    rw [replies, hc]
    exact (hecho.wire.trans hecho.echoed).trans
      ((prefix_assemble_complete (h.toServer s hc)).trans h.sent_prefix)

/-- What a client session prints is its own text. -/
lemma Inv.printed (h : Inv c) :
    printed c.client.log = [] ∨ printed c.client.log = [c.args.text ++ "\n"] := by
  rcases h.client.printed with hnil | ⟨-, kind, data, hread, hprinted⟩
  · exact Or.inl hnil
  · have htaken : (assemble c.client.taken).complete <+: (assemble c.replies).complete :=
      prefix_assemble_complete ((List.prefix_append _ _).trans h.toClient)
    have hown : [⟨kind, data⟩] <+: [(⟨true, c.args.text⟩ : Message UInt8)] :=
      hread ▸ htaken.trans h.replies_prefix
    obtain ⟨-, rfl⟩ : kind = true ∧ data = c.args.text := by simpa using hown
    exact Or.inr hprinted

/-- What the two ends of a connection agree on, as it shows in the client session. -/
structure Agreement (c : Connection) : Prop where
  /-- The client session prints nothing, or its own text once. -/
  printed : printed c.client.log = [] ∨ printed c.client.log = [c.args.text ++ "\n"]
  /-- It has at most one operation outstanding. -/
  pending : c.client.pending.length ≤ 1
  /-- It starts its operations in order, and each at most once. -/
  started : started c.client.log <+: [.resolve, .connect, .handshake, .write, .read, .close]
  /-- It sends at most one message, its own text. -/
  sent : handed c.client.log <+: [⟨true, c.args.text⟩]
  /-- After an error nothing is outstanding, and nothing but output has happened. -/
  quiet : ∀ l₁ k e l₂, c.client.log = l₁ ++ .finished k (some e) :: l₂ →
    c.client.pending = [] ∧ ∀ x ∈ l₂, x.isOutput = true

/-- The joint invariant implies agreement. -/
lemma Inv.agreement (h : Inv c) : Agreement c where
  printed := h.printed
  pending := h.client.orderly.pending_length_le
  started := h.client.started
  sent := by
    have hh := h.client.handed
    rwa [ClientSession.message, h.members] at hh
  quiet _ _ _ _ hlog := h.client.orderly.quiet_after_error hlog

/-- **The two ends agree**, on every one of any number of connections, whatever the order of
events on all of them. -/
theorem agreement_of_mem {l : List Connection} (h : system.pool.Reachable l) :
    ∀ c ∈ l, Agreement c :=
  fun _ hc => (inv_of_reachable (Automata.System.reachable_of_mem_pool h hc)).agreement

/-- Events that carry the message `hi` to the server and back. -/
def roundTrip : List ConnectionEvent :=
  [.client (.complete 0 none), .client (.complete 0 none),
    .accepted ⟨.ok ⟨.v4 127 0 0 1, 40000⟩, .ok ⟨.v4 127 0 0 1, 40000⟩⟩,
    .server (.complete 0 none), .client (.complete 0 none), .client (.emit 0 2 true), .toServer,
    .client (.complete 0 none), .server (.receive 0), .server (.complete 0 none),
    .server (.emit 0 2 true), .toClient, .server (.complete 0 none), .client (.receive 0),
    .client (.complete 0 none), .client (.complete 0 none)]

/-- A client session that prints what it has sent. -/
theorem agreement_roundTrip :
    ∃ c, system.pool.run (system.pool.start ())
        (.inl ⟨"localhost", "5555", "hi"⟩ :: roundTrip.map fun e => .inr (0, e)) = some [c] ∧
      printed c.client.log = ["hi\n"] ∧ Agreement c := by
  obtain ⟨c, hrun, hprinted⟩ : ∃ c, system.pool.run (system.pool.start ())
        (.inl ⟨"localhost", "5555", "hi"⟩ :: roundTrip.map fun e => .inr (0, e)) = some [c] ∧
      printed c.client.log = ["hi\n"] := ⟨_, rfl, rfl⟩
  exact ⟨c, hrun, hprinted,
    agreement_of_mem (Automata.System.reachable_of_run hrun) c (by simp)⟩

end Connection

end Vsna
