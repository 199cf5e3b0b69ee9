import Vsna.Client.Cli
import Vsna.EndToEnd.Completion
import Vsna.EndToEnd.Network

set_option relaxedAutoImplicit false
set_option autoImplicit false

/-!
# The whole system

One server process, any number of client processes, each with its prompt, and the network between
them. Users type what they like, commands of different clients overlap, the threads of the server
take turns as they please, and other programs may connect to the server as well.

The system simulates `Vsna.Network`: its client sessions are named by the number of the client and
the number of the session in it. Hence every connection in it behaves as if it were the only one.

## Main definitions

* `Vsna.World`, `Vsna.World.system` — the system.
* `Vsna.World.network` — the network it amounts to.
* `Vsna.World.Sound` — what holds of all sessions in it.

## Main results

* `Vsna.World.step_network` — every step of the system is one of the network.
* `Vsna.World.sound_of_reachable` — the system is sound in every state it can reach.
-/

namespace Vsna

open Text Websocket

/-- A server, the clients, and the connections between them. -/
structure World where
  server : Process
  clients : List Shell := []
  /-- For each session of the server the client, by its number, and the session of it at the other
  end; `none` for another program. -/
  peers : List (Option (ℕ × ℕ)) := []

/-- What can happen in the system. -/
inductive WorldEvent
  /-- A client comes up, on a standard input. -/
  | launch (k : { c : Client // c.Fresh } × Str)
  /-- An event of a client, other than the arrival of a frame. -/
  | client (n : ℕ) (e : ShellEvent)
  /-- An accept of the server completes. A socket that is accepted is connected to `peer`. -/
  | accepted (peer : Option (ℕ × ℕ)) (r : Except (Error UInt8) Socket)
  /-- An event of a session of the server. Frames arrive from other programs only. -/
  | session (j : ℕ) (e : Event UInt8)
  /-- The next frame arrives at session `j` of the server. -/
  | toServer (j : ℕ)
  /-- The next frame that session `j` of the server has sent arrives at its client. -/
  | toClient (j : ℕ)

/-- Is the event the arrival of a frame? -/
def ShellEvent.isArrival : ShellEvent → Bool
  | .io _ e => e.isArrival
  | _ => false

namespace World

/-- The sessions of the server. -/
def sessions (w : World) : List ServerSession := w.server.server.sessions

/-- A session of a client. -/
def clientSession (w : World) (a : ℕ × ℕ) : Option ClientSession :=
  w.clients[a.1]?.bind fun s => s.prompt.client.sessions[a.2]?

/-- May the next socket be connected to `peer`? A session of a client is connected once. -/
def linkable (w : World) : Option (ℕ × ℕ) → Bool
  | none => true
  | some a => (w.clientSession a).isSome && !w.peers.contains (some a)

/-- The client in which a frame arrives at session `i`, which is `c`. -/
def arriveAt (s : Shell) (i : ℕ) (c : ClientSession) (f : Frame UInt8) : Shell :=
  ⟨Shell.withSessions s.prompt (s.prompt.client.sessions.set i (c.arrive f)), s.running⟩

/-- One event of the system. -/
def step (w : World) : WorldEvent → Option World
  | .launch k => some { w with clients := w.clients ++ [Shell.system.start k] }
  | .client n e =>
    if e.isArrival then none
    else do
      let s ← w.clients[n]?
      let s' ← s.step e
      return { w with clients := w.clients.set n s' }
  | .accepted peer r =>
    if w.linkable peer then do
      let p ← w.server.step (.accepted r)
      return { w with
        server := p
        peers := w.peers ++ (Process.servedSocket r).toList.map fun _ => peer }
    else none
  | .session j e =>
    if e.isArrival = true → w.peers[j]? = some none then do
      let p ← w.server.step (.session j e)
      return { w with server := p }
    else none
  | .toServer j => do
    let peer ← w.peers[j]?
    let a ← peer
    let c ← w.clientSession a
    let s ← w.sessions[j]?
    let f ← c.outbound[s.arrived.length]?
    let p ← w.server.step (.session j (.arrive f))
    return { w with server := p }
  | .toClient j => do
    let peer ← w.peers[j]?
    let a ← peer
    let client ← w.clients[a.1]?
    let c ← client.prompt.client.sessions[a.2]?
    let s ← w.sessions[j]?
    let f ← s.outbound[c.arrived.length]?
    return { w with clients := w.clients.set a.1 (arriveAt client a.2 c f) }

/-- The system, from a server that has been run. -/
def system : Automata.System ({ s : Server // s.Fresh } × ℕ) World WorldEvent where
  start k := { server := Process.start k.1 k.2 }
  step := step

/-- The network that the system amounts to. -/
def network (w : World) : Network (ℕ × ℕ) := ⟨w.clientSession, w.sessions, w.peers⟩

/-- The text that every client session is run with. -/
def Greets (args : ClientMembers) : Prop := args.text = "Hello, World!"

variable {w w' : World}

/-! ## Sessions of clients -/

/-- A client that comes up has no sessions. -/
lemma clientSession_launch (w : World) (k : { c : Client // c.Fresh } × Str) (a : ℕ × ℕ) :
    clientSession { w with clients := w.clients ++ [Shell.system.start k] } a =
      w.clientSession a := by
  have hnone : (Shell.system.start k).prompt.client.sessions = [] := k.1.2.sessions
  unfold clientSession
  rcases lt_trichotomy a.1 w.clients.length with hlt | heq | hgt
  · rw [List.getElem?_append_left hlt]
  · rw [heq, List.getElem?_concat_length, List.getElem?_eq_none le_rfl]
    simp [hnone]
  · have hlen : (w.clients ++ [Shell.system.start k]).length ≤ a.1 := by
      simpa [Nat.succ_le_iff] using hgt
    rw [List.getElem?_eq_none hlen, List.getElem?_eq_none hgt.le]

/-- The sessions of a client that takes a step, and those of the others. -/
lemma clientSession_set {n : ℕ} {s s' : Shell} (hs : w.clients[n]? = some s) (a : ℕ × ℕ) :
    clientSession { w with clients := w.clients.set n s' } a =
      if a.1 = n then s'.prompt.client.sessions[a.2]? else w.clientSession a := by
  obtain ⟨hlt, -⟩ := List.getElem?_eq_some_iff.mp hs
  unfold clientSession
  split_ifs with h
  · rw [h, List.getElem?_set_self hlt, Option.bind_some]
  · rw [List.getElem?_set_ne (Ne.symm h)]

/-- A client that does nothing to its sessions. -/
lemma network_idle {n : ℕ} {s s' : Shell} (hs : w.clients[n]? = some s)
    (h : s'.prompt.client.sessions = s.prompt.client.sessions) :
    network { w with clients := w.clients.set n s' } = w.network := by
  have hfun : clientSession { w with clients := w.clients.set n s' } = w.clientSession := by
    funext a
    rw [clientSession_set hs]
    split_ifs with ha
    · rw [h, clientSession, ha, hs, Option.bind_some]
    · rfl
  rw [network, hfun]
  rfl

/-- A client that changes one session, or creates one. -/
lemma network_update {n i : ℕ} {s s' : Shell} {c : ClientSession} (hs : w.clients[n]? = some s)
    (hself : s'.prompt.client.sessions[i]? = some c)
    (hother : ∀ m, m ≠ i → s'.prompt.client.sessions[m]? = s.prompt.client.sessions[m]?) :
    network { w with clients := w.clients.set n s' } = w.network.setClient (n, i) c := by
  have hfun : clientSession { w with clients := w.clients.set n s' } =
      Function.update w.clientSession (n, i) (some c) := by
    funext a
    rw [clientSession_set hs]
    by_cases ha : a = (n, i)
    · subst ha
      simp [hself]
    · rw [Function.update_of_ne ha]
      split_ifs with hn
      · have hi : a.2 ≠ i := fun hi => ha (Prod.ext hn hi)
        rw [hother a.2 hi, clientSession, hn, hs, Option.bind_some]
      · rfl
  rw [network, hfun]
  rfl

/-! ## The simulation -/

/-- The network after the server and the list of peers have changed. -/
lemma network_server (w : World) (p : Process) (peers : List (Option (ℕ × ℕ))) :
    network { w with server := p, peers := peers } = ⟨w.clientSession, p.server.sessions, peers⟩ :=
  rfl

/-- What an accept does to the sessions of the server and to their peers. -/
lemma network_accepted {peer : Option (ℕ × ℕ)} {r : Except (Error UInt8) Socket} {p : Process}
    (hlink : w.linkable peer = true) (hp : w.server.step (.accepted r) = some p) :
    Network.Step Greets w.network (network { w with
      server := p
      peers := w.peers ++ (Process.servedSocket r).toList.map fun _ => peer }) := by
  rw [network_server w p, Process.sessions_step_accepted hp]
  cases Process.servedSocket r with
  | none =>
    simp only [Option.toList_none, List.map_nil, List.append_nil]
    exact .idle
  | some socket =>
    refine .accepted (fun a ha => ?_) socket
    obtain rfl : peer = some a := ha
    simpa [linkable, network] using hlink

/-- What a step of a session of the server is on the network. -/
lemma network_session {j : ℕ} {e : Event UInt8} {p : Process}
    (hp : w.server.step (.session j e) = some p) :
    ∃ s s', w.sessions[j]? = some s ∧ ServerSession.program.step s e = some s' ∧
      network { w with server := p } = w.network.setSession j s' := by
  obtain ⟨-, -, hpool⟩ := Process.step_session_eq_some_iff.mp hp
  simp only [Automata.System.pool, Option.bind_eq_bind, Option.bind_eq_some_iff] at hpool
  obtain ⟨s, hs, s', hs', hl⟩ := hpool
  refine ⟨s, s', hs, hs', ?_⟩
  rw [show network { w with server := p } = ⟨w.clientSession, p.server.sessions, w.peers⟩ from rfl,
    ← Option.some.inj hl]
  rfl

/-- What an event of a client, other than an arrival, is on the network. -/
lemma network_client {n : ℕ} {s s' : Shell} {e : ShellEvent} (he : e.isArrival = false)
    (hs : w.clients[n]? = some s) (hstep : s.step e = some s') :
    Network.Step Greets w.network (network { w with clients := w.clients.set n s' }) := by
  obtain ⟨-, heff⟩ := Shell.effect_of_step hstep
  cases heff with
  | idle hsessions => exact network_idle hs hsessions ▸ .idle
  | spawn hsessions =>
    have hself : s'.prompt.client.sessions[s.prompt.client.sessions.length]? =
        some s.prompt.client.newSession := by
      rw [hsessions, List.getElem?_concat_length]
    have hother : ∀ m, m ≠ s.prompt.client.sessions.length →
        s'.prompt.client.sessions[m]? = s.prompt.client.sessions[m]? := by
      intro m hm
      rw [hsessions]
      rcases Nat.lt_or_gt_of_ne hm with hlt | hgt
      · exact List.getElem?_append_left hlt
      · rw [List.getElem?_eq_none (by simpa [Nat.succ_le_iff] using hgt),
          List.getElem?_eq_none hgt.le]
    rw [network_update hs hself hother]
    refine .spawn ?_ rfl
    simp [network, clientSession, hs]
  | @session i e t t' hi ht hsessions =>
    obtain ⟨hlt, -⟩ := List.getElem?_eq_some_iff.mp hi
    have hself : s'.prompt.client.sessions[i]? = some t' := by
      rw [hsessions, List.getElem?_set_self hlt]
    have hother : ∀ m, m ≠ i → s'.prompt.client.sessions[m]? = s.prompt.client.sessions[m]? :=
      fun m hm => by rw [hsessions, List.getElem?_set_ne (Ne.symm hm)]
    rw [network_update hs hself hother]
    refine .client (c := t) ?_ he ht
    simp [network, clientSession, hs, hi]

/-- **Every step of the system is one of the network.** -/
lemma step_network {e : WorldEvent} (h : w.step e = some w') :
    Network.Step Greets w.network w'.network := by
  cases e with
  | launch k =>
    obtain rfl := Option.some.inj h
    have hnet : network { w with clients := w.clients ++ [Shell.system.start k] } = w.network :=
      congrArg (Network.mk · w.sessions w.peers) (funext (clientSession_launch w k))
    exact hnet ▸ .idle
  | client n e =>
    simp only [step] at h
    split_ifs at h with he
    simp only [Option.bind_eq_bind, Option.bind_eq_some_iff] at h
    obtain ⟨s, hs, s', hs', hw⟩ := h
    obtain rfl := Option.some.inj hw
    exact network_client (by simpa using he) hs hs'
  | accepted peer r =>
    simp only [step] at h
    split_ifs at h with hlink
    simp only [Option.bind_eq_bind, Option.bind_eq_some_iff] at h
    obtain ⟨p, hp, hw⟩ := h
    obtain rfl := Option.some.inj hw
    exact network_accepted hlink hp
  | session j e =>
    simp only [step] at h
    split_ifs at h with he
    simp only [Option.bind_eq_bind, Option.bind_eq_some_iff] at h
    obtain ⟨p, hp, hw⟩ := h
    obtain rfl := Option.some.inj hw
    obtain ⟨s, s', hs, hs', hnet⟩ := network_session hp
    exact hnet ▸ .session hs he hs'
  | toServer j =>
    simp only [step, Option.bind_eq_bind, Option.bind_eq_some_iff] at h
    obtain ⟨peer, hpeer, a, rfl, c, hc, s, hs, f, hf, p, hp, hw⟩ := h
    obtain rfl := Option.some.inj hw
    obtain ⟨t, t', ht, ht', hnet⟩ := network_session hp
    obtain rfl : s = t := Option.some.inj (hs.symm.trans ht)
    obtain rfl : s.arrive f = t' := Option.some.inj ht'
    exact hnet ▸ .toServer hpeer hc hs hf
  | toClient j =>
    simp only [step, Option.bind_eq_bind, Option.bind_eq_some_iff] at h
    obtain ⟨peer, hpeer, a, rfl, client, hclient, c, hc, s, hs, f, hf, hw⟩ := h
    obtain rfl := Option.some.inj hw
    obtain ⟨hlt, -⟩ := List.getElem?_eq_some_iff.mp hc
    have hself : (arriveAt client a.2 c f).prompt.client.sessions[a.2]? = some (c.arrive f) :=
      List.getElem?_set_self hlt
    have hother : ∀ m, m ≠ a.2 → (arriveAt client a.2 c f).prompt.client.sessions[m]? =
        client.prompt.client.sessions[m]? := fun m hm => List.getElem?_set_ne (Ne.symm hm)
    rw [network_update hclient hself hother]
    refine .toClient hpeer ?_ hs hf
    simp [network, clientSession, hclient, hc]

/-- The network of a system that can be reached can be reached. -/
lemma reachable_network (h : system.Reachable w) : Network.Reachable Greets w.network := by
  refine h.invariant (P := fun w => Network.Reachable Greets w.network) (fun k => ?_)
    fun w e w' hw he => hw.step (step_network he)
  have hnil : (Process.system.start k).server.sessions = [] :=
    (Server.run_sessions k.1.1 k.2).trans k.1.2.sessions
  have hempty : network (system.start k) = Network.empty := by
    change (⟨clientSession (system.start k), (Process.system.start k).server.sessions, []⟩ :
      Network (ℕ × ℕ)) = _
    rw [hnil]
    rfl
  exact hempty ▸ .empty

/-- A step of the system is one of the server, or leaves the server alone. -/
lemma step_server {e : WorldEvent} (h : w.step e = some w') :
    w'.server = w.server ∨ ∃ e, w.server.step e = some w'.server := by
  cases e with
  | launch k =>
    obtain rfl := Option.some.inj h
    exact Or.inl rfl
  | client n e =>
    simp only [step] at h
    split_ifs at h
    simp only [Option.bind_eq_bind, Option.bind_eq_some_iff] at h
    obtain ⟨s, hs, s', hs', hw⟩ := h
    obtain rfl := Option.some.inj hw
    exact Or.inl rfl
  | accepted peer r =>
    simp only [step] at h
    split_ifs at h
    simp only [Option.bind_eq_bind, Option.bind_eq_some_iff] at h
    obtain ⟨p, hp, hw⟩ := h
    obtain rfl := Option.some.inj hw
    exact Or.inr ⟨_, hp⟩
  | session j e =>
    simp only [step] at h
    split_ifs at h
    simp only [Option.bind_eq_bind, Option.bind_eq_some_iff] at h
    obtain ⟨p, hp, hw⟩ := h
    obtain rfl := Option.some.inj hw
    exact Or.inr ⟨_, hp⟩
  | toServer j =>
    simp only [step, Option.bind_eq_bind, Option.bind_eq_some_iff] at h
    obtain ⟨peer, hpeer, a, rfl, c, hc, s, hs, f, hf, p, hp, hw⟩ := h
    obtain rfl := Option.some.inj hw
    exact Or.inr ⟨_, hp⟩
  | toClient j =>
    simp only [step, Option.bind_eq_bind, Option.bind_eq_some_iff] at h
    obtain ⟨peer, hpeer, a, rfl, client, hclient, c, hc, s, hs, f, hf, hw⟩ := h
    obtain rfl := Option.some.inj hw
    exact Or.inl rfl

/-- The server of a system that can be reached can be reached. -/
lemma reachable_server (h : system.Reachable w) : Process.system.Reachable w.server := by
  refine h.invariant (P := fun w => Process.system.Reachable w.server) (fun k => .start k)
    fun w e w' hw he => ?_
  rcases step_server he with hsame | ⟨e', he'⟩
  · exact hsame ▸ hw
  · exact hw.step he'

/-! ## Soundness -/

/-- What holds of all sessions in the system. -/
structure Sound (w : World) : Prop where
  /-- A session of a client has printed nothing, or the text that all clients send. -/
  printed : ∀ a c, w.clientSession a = some c →
    printed c.log = [] ∨ printed c.log = ["Hello, World!\n"]
  /-- Every session of the server keeps to the echo protocol. -/
  echo : ∀ s ∈ w.sessions, ServerSession.EchoContract s
  /-- A session of a client has shown nothing while it is running; if it has ended, it has shown its
  one reply or its one failure, and never both, or nothing at all if it was aborted. -/
  outcome : ∀ a c, w.clientSession a = some c → ClientSession.Outcome c
  /-- A session of the server that is connected to a client has told of its one message at most. -/
  told : ∀ (j : ℕ) a s, w.peers[j]? = some (some a) → w.sessions[j]? = some s →
    Websocket.printed s.log <+: ["Received: Hello, World!\n"]
  /-- If the session of a client has printed, the one of the server it is connected to has told of
  the message. -/
  heard : ∀ a c, w.clientSession a = some c → Websocket.printed c.log ≠ [] →
    ∃ (j : ℕ) (s : ServerSession), w.peers[j]? = some (some a) ∧ w.sessions[j]? = some s ∧
      Websocket.printed s.log = ["Received: Hello, World!\n"]

/-- A session of the server has told at most of the message that its client was run with. -/
lemma prefix_received {c : Connection} (h : Connection.system.Reachable c) {s : ServerSession}
    (hs : c.server = some s) :
    Websocket.printed s.log <+: [ServerSession.received ⟨true, c.args.text⟩] := by
  have hinv := Connection.inv_of_reachable h
  have hecho := hinv.server s hs
  have htold := ServerSession.toldBy_of_reachable ((Connection.sessions_reachable h).2 s hs)
  rw [htold.printed, ← List.map_singleton]
  exact (hecho.contract.echoed.trans
    ((prefix_assemble_complete (hinv.toServer s hs)).trans hinv.sent_prefix)).map _

/-- If the client session has printed, the session of the server has told of the message.

**Proof sketch.** What is printed is a message that was read, hence one that the server has sent in
full. The server sends what it hands to writes, and it tells of every message it hands to one. -/
lemma told_of_printed {c : Connection} (h : Connection.system.Reachable c)
    (hp : printed c.client.log ≠ []) :
    ∃ s, c.server = some s ∧
      Websocket.printed s.log = [ServerSession.received ⟨true, c.args.text⟩] := by
  have hinv := Connection.inv_of_reachable h
  rcases hinv.client.printed with hnil | ⟨-, kind, data, hread, -⟩
  · exact absurd hnil hp
  · have hreplies : [⟨kind, data⟩] <+: (assemble c.replies).complete :=
      hread ▸ prefix_assemble_complete ((List.prefix_append _ _).trans hinv.toClient)
    cases hc : c.server with
    | none => simp [Connection.replies, hc] at hreplies
    | some s =>
      rw [Connection.replies, hc] at hreplies
      have hhanded : 0 < (handed s.log).length :=
        (hreplies.trans (hinv.server s hc).contract.wire).length_le
      have htold := ServerSession.toldBy_of_reachable ((Connection.sessions_reachable h).2 s hc)
      refine ⟨s, rfl, (prefix_received h hc).eq_of_length_le ?_⟩
      rw [htold.printed, List.length_map]
      exact hhanded

/-- **The system is sound in every state it can reach**, whatever the users type, whatever other
programs send to the server, and in whatever order things happen.

**Proof sketch.** Every step is one of the network, in which every connection is in a state that it
could have reached on its own. -/
theorem sound_of_reachable (h : system.Reachable w) : Sound w := by
  have hwired := Network.wired_of_reachable (reachable_network h)
  refine ⟨fun a c hc => ?_, fun s hs => ?_, fun a c hc => ?_, fun j a s ha hs => ?_,
    fun a c hc hp => ?_⟩
  · obtain ⟨o, -, hreach⟩ := hwired.connection a c hc
    have hprinted := (Connection.inv_of_reachable hreach).printed
    rwa [show c.members.text = _ from hwired.members a c hc] at hprinted
  · exact (ServerSession.echoInv_of_reachable
      (Process.session_reachable (reachable_server h) s hs)).contract
  · obtain ⟨o, -, hreach⟩ := hwired.connection a c hc
    exact ClientSession.outcome_of_reachable (Connection.sessions_reachable hreach).1
  · obtain ⟨c, hc⟩ := Option.isSome_iff_exists.mp (hwired.exist a (List.mem_of_getElem? ha))
    obtain ⟨o, ho, hreach⟩ := hwired.connection a c hc
    obtain rfl := hwired.linked_unique (.some ha hs) ho
    have htold := prefix_received hreach rfl
    rwa [show c.members.text = _ from hwired.members a c hc] at htold
  · obtain ⟨o, ho, hreach⟩ := hwired.connection a c hc
    obtain ⟨s, hs, htold⟩ := told_of_printed hreach hp
    obtain rfl : o = some s := hs
    cases ho with
    | @some j _ ha hj =>
      refine ⟨j, s, ha, hj, htold.trans ?_⟩
      rw [show c.members.text = _ from hwired.members a c hc]
      rfl

/-- A user connects a client to the server, and the reply is printed. -/
def greeting : List WorldEvent :=
  [.launch (Prompt.idle, "connect\n"), .client 0 .line, .client 0 (.io 0 (.complete 0 none)),
    .client 0 (.io 0 (.complete 0 none)),
    .accepted (some (0, 0)) (.ok ⟨.ok ⟨.v4 127 0 0 1, 40000⟩, .ok ⟨.v4 127 0 0 1, 40000⟩⟩),
    .session 0 (.complete 0 none), .client 0 (.io 0 (.complete 0 none)),
    .client 0 (.io 0 (.emit 0 13 true)), .toServer 0, .client 0 (.io 0 (.complete 0 none)),
    .session 0 (.receive 0), .session 0 (.complete 0 none), .session 0 (.emit 0 13 true),
    .toClient 0, .session 0 (.complete 0 none), .client 0 (.io 0 (.receive 0)),
    .client 0 (.io 0 (.complete 0 none)), .client 0 (.io 0 (.complete 0 none))]

/-- A system in which a client has been greeted. -/
theorem sound_of_reachable_greeting :
    ∃ w c, system.run (system.start (Process.listener, 1)) greeting = some w ∧
      w.clientSession (0, 0) = some c ∧ printed c.log = ["Hello, World!\n"] ∧ Sound w := by
  obtain ⟨w, c, hrun, hc, hp⟩ : ∃ w c,
      system.run (system.start (Process.listener, 1)) greeting = some w ∧
      w.clientSession (0, 0) = some c ∧ printed c.log = ["Hello, World!\n"] :=
    ⟨_, _, rfl, rfl, rfl⟩
  exact ⟨w, c, hrun, hc, hp, sound_of_reachable (Automata.System.reachable_of_run hrun)⟩

end World

end Vsna
