import Vsna.Common.Config
import Vsna.Server.Session

set_option relaxedAutoImplicit false
set_option autoImplicit false

/-!
# `Server`

The class `Server` of `server/server.h` and `server/server.cpp`: it sets up an acceptor, and then
accepts connections for ever, each of which gets a session of its own. Its handlers run in
several threads, but only one accept is outstanding at a time, and the handlers of a session
exclude one another by their strand; so handlers are steps that interleave in any order. An
exception that leaves a handler leaves `io_context::run()` in its thread, and ends the process.

All of `run()` is one step here, and the accept loop and each session have an output of their own.
In `Vsna.Console` the steps of `run()` are taken one by one, and all write to the same streams.

## Main definitions

* `Vsna.Server`, `Server.construct`, `Server.run`, `Server.doAccept`, `Server.onAccept` — the
  class.
* `Vsna.Process`, `Vsna.Process.system` — the running server, and its transition system.
* `Vsna.Process.Serving` — the accept loop goes on, and every connection is looked after.

## Main results

* `Vsna.Process.poolStep` — a step of the server spawns one session or steps one session.
* `Vsna.Process.echoContract_of_reachable` — every session keeps to the echo protocol.
* `Vsna.Process.serving_iff` — when the accept loop goes on.
-/

namespace Vsna

open Text Websocket

/-! ## The class -/

/-- What the operating system knows about the acceptor. -/
structure Acceptor where
  isOpen : Bool := false
  reuseAddress : Bool := false
  bound : Option TcpEndpoint := none
  listening : Bool := false
  deriving DecidableEq

/-- The members of the server, with what it has printed itself. -/
structure Server where
  config : Config := {}
  acceptor : Acceptor := {}
  /-- The number of outstanding `async_accept` operations. -/
  accepts : ℕ := 0
  /-- The number of threads started, without the main thread. -/
  threads : ℕ := 0
  /-- The sessions created so far, oldest first. -/
  sessions : List ServerSession := []
  cout : Str := []
  cerr : Str := []
  deriving DecidableEq

/-- The error codes of the four calls that set up the acceptor. -/
structure AcceptorCalls where
  openEc : ErrorCode UInt8 := none
  setOptionEc : ErrorCode UInt8 := none
  bindEc : ErrorCode UInt8 := none
  listenEc : ErrorCode UInt8 := none

namespace Server

/-- Write to standard output. -/
def print (s : Server) (text : Str) : Server := { s with cout := s.cout ++ text }

/-- `fail`, called by the server. -/
def fail (s : Server) (e : Error UInt8) (op : Str) : Server :=
  match failText e op with
  | none => s
  | some text => { s with cerr := s.cerr ++ text }

/-- The part of the constructor that sets up the acceptor for an endpoint. -/
def setUp (s : Server) (endpoint : TcpEndpoint) (calls : AcceptorCalls) : Server :=
  match calls.openEc with
  | some e => s.fail e "open"
  | none =>
    let s := { s with acceptor.isOpen := true }.print "opened\n"
    match calls.setOptionEc with
    | some e => s.fail e "set_oprion"
    | none =>
      let s := { s with acceptor.reuseAddress := true }.print "set_option\n"
      match calls.bindEc with
      | some e => s.fail e "bind"
      | none =>
        let s := { s with acceptor.bound := some endpoint }.print "binded\n"
        match calls.listenEc with
        | some e => s.fail e "listen"
        | none => { s with acceptor.listening := true }.print "listening\n"

/-- `Server::Server()`. -/
def construct (env : Env) (calls : AcceptorCalls) : Except Exn Server :=
  let s : Server := {}
  match s.config.addr.endpoint env with
  | .error e => .error e
  | .ok endpoint => .ok (s.setUp endpoint calls)

/-- `setConfig`. -/
def setConfig (s : Server) (config : Config) : Server := { s with config := config }

/-- `do_accept`. -/
def doAccept (s : Server) : Server :=
  let s := s.print "Waiting for a TCP connection...\n"
  { s with accepts := s.accepts + 1 }

/-- `start_accept`. -/
def startAccept (s : Server) : Server := s.doAccept

/-- Start thread number `i`, counted from zero. -/
def startThread (s : Server) (i : ℕ) : Server :=
  { s with threads := s.threads + 1 }.print ("Thread " ++ decimal (i + 1) ++ " started.\n")

/-- What `run()` announces. -/
def announcement (s : Server) : Str := "Server is running on " ++ s.config.addr.toString ++ "\n"

/-- `run()`, up to the call of `io_context::run()` in the main thread of the process `pid`. -/
def run (s : Server) (pid : ℕ) : Server :=
  let s := s.startAccept
  let s := s.print s.announcement
  let s := (List.range (maxThreads - 1)).foldl startThread s
  let s := s.print ("PID: " ++ decimal pid ++ "\n")
  s.print "Main thread started.\n"

/-- A call of `remote_endpoint()` with the given result. -/
def remoteEndpoint : Except Str TcpEndpoint → EStateM Exn Server TcpEndpoint
  | .ok ep => pure ep
  | .error what => throw (.systemError what)

/-- `on_accept`. -/
def onAccept : Except (Error UInt8) Socket → EStateM Exn Server Unit
  | .error e => do
    modify fun s => s.fail e "accept"
    modify doAccept
  | .ok socket => do
    modify fun s => s.print "Accepted "
    let ep₁ ← remoteEndpoint socket.remote₁
    modify fun s => s.print (ep₁.address.toString ++ ":")
    let ep₂ ← remoteEndpoint socket.remote₂
    modify fun s => s.print (decimal ep₂.port.toNat ++ "\n")
    modify fun s => { s with sessions := s.sessions ++ [ServerSession.program.start socket] }
    modify doAccept

/-- A server that has been constructed and perhaps configured, but not run. -/
structure Fresh (s : Server) : Prop where
  accepts : s.accepts = 0
  sessions : s.sessions = []

end Server

/-! ## The running server -/

/-- A server process: the server, and the exception that has ended the process, if one has. -/
structure Process where
  server : Server
  thrown : Option Exn := none
  deriving DecidableEq

/-- What can happen to a running server. -/
inductive ServerEvent
  /-- The outstanding accept completes, with an error or with a socket. -/
  | accepted (r : Except (Error UInt8) Socket)
  /-- The event `e` of session `i`. -/
  | session (i : ℕ) (e : Event UInt8)

namespace Process

/-- The outcome of a handler. -/
def ofResult : EStateM.Result Exn Server Unit → Process
  | .ok _ s => ⟨s, none⟩
  | .error e s => ⟨s, some e⟩

/-- One event of the running server. A socket is accepted only if the acceptor is listening. -/
def step (p : Process) : ServerEvent → Option Process
  | .accepted r =>
    if p.thrown = none ∧ p.server.accepts ≠ 0 ∧
        (r.toBool = true → p.server.acceptor.listening = true) then
      some (ofResult (Server.onAccept r { p.server with accepts := p.server.accepts - 1 }))
    else none
  | .session i e =>
    if p.thrown = none then do
      let s ← p.server.sessions[i]?
      let s' ← ServerSession.program.step s e
      return ⟨{ p.server with sessions := p.server.sessions.set i s' }, none⟩
    else none

/-- The server `s`, right after `run` was called in the process `pid`. -/
def start (s : Server) (pid : ℕ) : Process := ⟨s.run pid, none⟩

/-- The running server, from any fresh one. -/
def system : Automata.System ({ s : Server // s.Fresh } × ℕ) Process ServerEvent where
  start k := start k.1 k.2
  step := step

end Process

/-! ## What a handler of the server does -/

namespace Server

/-- The configuration and the acceptor are the same, and output has only been added. -/
structure Extends (s s' : Server) : Prop where
  config : s'.config = s.config
  acceptor : s'.acceptor = s.acceptor
  cout : s.cout <+: s'.cout

variable {s : Server}

/-- One change after another. -/
lemma Extends.trans {s₁ s₂ s₃ : Server} (h₁ : Extends s₁ s₂) (h₂ : Extends s₂ s₃) :
    Extends s₁ s₃ :=
  ⟨h₂.config.trans h₁.config, h₂.acceptor.trans h₁.acceptor, h₁.cout.trans h₂.cout⟩

/-- Writing output. -/
lemma extends_print (s : Server) (text : Str) : Extends s (s.print text) :=
  ⟨rfl, rfl, List.prefix_append _ _⟩

/-- Starting an accept. -/
lemma extends_doAccept (s : Server) : Extends s s.doAccept :=
  ⟨rfl, rfl, List.prefix_append _ _⟩

/-- Starting threads only counts them and writes output. -/
lemma foldl_startThread (s : Server) (is : List ℕ) :
    s.Extends (is.foldl startThread s) ∧ (is.foldl startThread s).accepts = s.accepts ∧
      (is.foldl startThread s).sessions = s.sessions := by
  induction is generalizing s with
  | nil => exact ⟨⟨rfl, rfl, List.prefix_rfl⟩, rfl, rfl⟩
  | cons i is ih =>
    obtain ⟨hext, haccepts, hsessions⟩ := ih (s.startThread i)
    have hone : s.Extends (s.startThread i) := ⟨rfl, rfl, List.prefix_append _ _⟩
    exact ⟨hone.trans hext, haccepts, hsessions⟩

/-- `run` starts one accept. -/
lemma run_accepts (s : Server) (pid : ℕ) : (s.run pid).accepts = s.accepts + 1 :=
  (foldl_startThread _ _).2.1

/-- `run` creates no session. -/
lemma run_sessions (s : Server) (pid : ℕ) : (s.run pid).sessions = s.sessions :=
  (foldl_startThread _ _).2.2

/-- `fail` only writes to standard error. -/
lemma fail_eq (s : Server) (e : Error UInt8) (op : Str) :
    ∃ text, s.fail e op = { s with cerr := s.cerr ++ text } := by
  unfold fail
  split
  · exact ⟨[], by simp⟩
  · exact ⟨_, rfl⟩

/-- After an error `on_accept` starts the next accept. -/
lemma onAccept_error (s : Server) (e : Error UInt8) :
    ∃ s', onAccept (.error e) s = .ok () s' ∧ s'.accepts = s.accepts + 1 ∧
      s'.sessions = s.sessions ∧ s.Extends s' := by
  obtain ⟨text, ht⟩ := s.fail_eq e "accept"
  refine ⟨(s.fail e "accept").doAccept, rfl, ?_, ?_, ?_⟩
  · rw [ht]; rfl
  · rw [ht]; rfl
  · rw [ht]; exact ⟨rfl, rfl, List.prefix_append _ _⟩

/-- If the peer is there, `on_accept` runs a session and starts the next accept. -/
lemma onAccept_served (s : Server) {k : Socket} (hk : k.gone = false) :
    ∃ s', onAccept (.ok k) s = .ok () s' ∧ s'.accepts = s.accepts + 1 ∧
      s'.sessions = s.sessions ++ [ServerSession.program.start k] ∧ s.Extends s' := by
  obtain ⟨ep₁, ep₂, rfl⟩ := Socket.eq_of_gone_eq_false hk
  let s₁ := s.print "Accepted "
  let s₂ := s₁.print (ep₁.address.toString ++ ":")
  let s₃ := s₂.print (decimal ep₂.port.toNat ++ "\n")
  let s₄ : Server :=
    { s₃ with sessions := s₃.sessions ++ [ServerSession.program.start ⟨.ok ep₁, .ok ep₂⟩] }
  have h₃ : s.Extends s₃ :=
    ((extends_print s _).trans (extends_print s₁ _)).trans (extends_print s₂ _)
  have h₄ : s.Extends s₄ := ⟨h₃.config, h₃.acceptor, h₃.cout⟩
  exact ⟨s₄.doAccept, rfl, rfl, rfl, h₄.trans (extends_doAccept s₄)⟩

/-- If the peer is gone, an exception leaves `on_accept` before a session or an accept is
started. -/
lemma onAccept_gone (s : Server) {k : Socket} (hk : k.gone = true) :
    ∃ x s', onAccept (.ok k) s = .error x s' ∧ s'.accepts = s.accepts ∧
      s'.sessions = s.sessions ∧ s.Extends s' := by
  obtain ⟨w₁ | ep₁, r₂⟩ := k
  · exact ⟨_, _, rfl, rfl, rfl, extends_print _ _⟩
  · obtain w₂ | ep₂ := r₂
    · exact ⟨_, _, rfl, rfl, rfl, (extends_print _ _).trans (extends_print _ _)⟩
    · cases hk

end Server

namespace Process

variable {p p' : Process}

/-- What an event does to a running server. -/
inductive Effect (p p' : Process) : ServerEvent → Prop
  /-- An accept has failed, and the next one is started. -/
  | failed {e : Error UInt8} (thrown : p'.thrown = none)
    (accepts : p'.server.accepts = p.server.accepts)
    (sessions : p'.server.sessions = p.server.sessions) : Effect p p' (.accepted (.error e))
  /-- A session was run on the socket, and the next accept is started. -/
  | served {k : Socket} (there : k.gone = false) (thrown : p'.thrown = none)
    (accepts : p'.server.accepts = p.server.accepts)
    (sessions : p'.server.sessions = p.server.sessions ++ [ServerSession.program.start k]) :
    Effect p p' (.accepted (.ok k))
  /-- An exception has ended the process. -/
  | crashed {k : Socket} (gone : k.gone = true) (thrown : p'.thrown ≠ none)
    (sessions : p'.server.sessions = p.server.sessions) : Effect p p' (.accepted (.ok k))
  /-- A session has taken a step. -/
  | session {i : ℕ} {e : Event UInt8} {s s' : ServerSession} (hi : p.server.sessions[i]? = some s)
    (he : ServerSession.program.step s e = some s') (thrown : p'.thrown = none)
    (accepts : p'.server.accepts = p.server.accepts)
    (sessions : p'.server.sessions = p.server.sessions.set i s') : Effect p p' (.session i e)

/-- **Every step of the server** has one of these effects. It keeps configuration and acceptor,
and there is none after an exception. -/
lemma effect_of_step {e : ServerEvent} (h : p.step e = some p') :
    p.thrown = none ∧ Effect p p' e ∧ p.server.Extends p'.server := by
  cases e with
  | accepted r =>
    simp only [step] at h
    split_ifs at h with hc
    obtain ⟨hthrown, haccepts, -⟩ := hc
    obtain rfl := Option.some.inj h
    -- one accept less is outstanding when the handler runs
    set s : Server := { p.server with accepts := p.server.accepts - 1 } with hs
    have hone : s.accepts + 1 = p.server.accepts := Nat.sub_add_cancel (by omega)
    refine ⟨hthrown, ?_⟩
    cases r with
    | error e =>
      obtain ⟨s', hs', ha, hss, hext⟩ := Server.onAccept_error s e
      rw [hs']
      exact ⟨.failed rfl (ha.trans hone) hss, hext.config, hext.acceptor, hext.cout⟩
    | ok k =>
      cases hk : k.gone with
      | false =>
        obtain ⟨s', hs', ha, hss, hext⟩ := Server.onAccept_served s hk
        rw [hs']
        exact ⟨.served hk rfl (ha.trans hone) hss, hext.config, hext.acceptor, hext.cout⟩
      | true =>
        obtain ⟨x, s', hs', -, hss, hext⟩ := Server.onAccept_gone s hk
        rw [hs']
        exact ⟨.crashed hk (by simp [ofResult]) hss, hext.config, hext.acceptor, hext.cout⟩
  | session i e =>
    simp only [step] at h
    split_ifs at h with hthrown
    simp only [Option.bind_eq_bind, Option.bind_eq_some_iff] at h
    obtain ⟨s, hi, s', he, hp'⟩ := h
    obtain rfl := Option.some.inj hp'
    exact ⟨hthrown, .session hi he rfl rfl rfl, rfl, rfl, List.prefix_rfl⟩

/-- A step spawns one session, or steps one session, or leaves the sessions alone. -/
lemma poolStep {e : ServerEvent} (h : p.step e = some p') :
    ServerSession.program.system.PoolStep p.server.sessions p'.server.sessions := by
  obtain ⟨-, heff, -⟩ := effect_of_step h
  cases heff with
  | failed _ _ hs => exact hs ▸ .idle _
  | served _ _ _ hs => exact hs ▸ .spawn _ _
  | crashed _ _ hs => exact hs ▸ .idle _
  | session hi he _ _ hs => exact hs ▸ .step hi he

/-- Every session of a running server is in a state that is reachable for it alone. -/
lemma session_reachable (h : system.Reachable p) :
    ∀ s ∈ p.server.sessions, ServerSession.program.system.Reachable s := by
  refine h.invariant
    (P := fun p => ∀ s ∈ p.server.sessions, ServerSession.program.system.Reachable s)
    (fun k s hs => ?_) fun p e p' hp he => (poolStep he).reachable hp
  simp [system, start, Server.run_sessions, k.1.2.sessions] at hs

/-- **The echo protocol**: in every reachable state of a running server, every session keeps to
it. -/
theorem echoContract_of_reachable (h : system.Reachable p) {s : ServerSession}
    (hs : s ∈ p.server.sessions) : ServerSession.EchoContract s :=
  (ServerSession.echoInv_of_reachable (session_reachable h s hs)).contract

/-- A server that listens on the default endpoint, before it is run. -/
def listener : { s : Server // s.Fresh } :=
  ⟨{ acceptor := ⟨true, true, some ⟨.v4 0 0 0 0, 5555⟩, true⟩ }, rfl, rfl⟩

/-- The events of two sessions in turns: the first echoes a text message that came in two frames,
the second has read a binary one. -/
def inTurns : List ServerEvent :=
  [.accepted (.ok ⟨.ok ⟨.v4 127 0 0 1, 40000⟩, .ok ⟨.v4 127 0 0 1, 40000⟩⟩),
    .session 0 (.complete 0 none),
    .accepted (.ok ⟨.ok ⟨.v4 127 0 0 1, 40001⟩, .ok ⟨.v4 127 0 0 1, 40001⟩⟩),
    .session 0 (.arrive ⟨false, true, "h"⟩), .session 1 (.complete 0 none),
    .session 0 (.receive 0), .session 1 (.arrive ⟨true, false, "ok"⟩),
    .session 0 (.arrive ⟨true, true, "i"⟩), .session 1 (.receive 0), .session 0 (.receive 0),
    .session 0 (.complete 0 none), .session 1 (.complete 0 none), .session 0 (.emit 0 2 true),
    .session 0 (.complete 0 none)]

/-- Each of them keeps to the protocol. -/
theorem echoContract_inTurns :
    ∃ p s t, system.run (system.start (listener, 1)) inTurns = some p ∧
      p.server.sessions = [s, t] ∧
      Websocket.handed s.log = [⟨true, "hi"⟩] ∧ ServerSession.writes s = 1 ∧
      Websocket.handed t.log = [⟨false, "ok"⟩] ∧ ServerSession.writes t = 0 ∧
      ServerSession.EchoContract s ∧ ServerSession.EchoContract t := by
  obtain ⟨p, s, t, hrun, hp, hs, hws, ht, hwt⟩ : ∃ p s t,
      system.run (system.start (listener, 1)) inTurns = some p ∧ p.server.sessions = [s, t] ∧
        Websocket.handed s.log = [⟨true, "hi"⟩] ∧ ServerSession.writes s = 1 ∧
        Websocket.handed t.log = [⟨false, "ok"⟩] ∧ ServerSession.writes t = 0 :=
    ⟨_, _, _, rfl, rfl, rfl, rfl, rfl, rfl⟩
  have hreach := Automata.System.reachable_of_run hrun
  exact ⟨p, s, t, hrun, hp, hs, hws, ht, hwt, echoContract_of_reachable hreach (by simp [hp]),
    echoContract_of_reachable hreach (by simp [hp])⟩

/-! ## The accept loop -/

/-- The sockets accepted by the events of a run. -/
def acceptedSockets (es : List ServerEvent) : List Socket :=
  es.filterMap fun
    | .accepted (.ok k) => some k
    | _ => none

/-- The accept loop goes on after the events `es`: no exception has left a handler, exactly one
accept is outstanding, and every socket was given to one session that was run, unless its peer
was gone. -/
structure Serving (es : List ServerEvent) (p : Process) : Prop where
  thrown : p.thrown = none
  accepts : p.server.accepts = 1
  /-- At most one session for each socket, in order. -/
  sublist : (p.server.sessions.map Session.members).Sublist (acceptedSockets es)
  /-- One session for each socket whose peer was there. -/
  served : (p.server.sessions.map Session.members).filter (!·.gone) =
    (acceptedSockets es).filter (!·.gone)
  ran : ∀ s ∈ p.server.sessions, ServerSession.Ran s

/-- The sockets accepted by a run and one more event. -/
lemma acceptedSockets_snoc (es : List ServerEvent) (e : ServerEvent) :
    acceptedSockets (es ++ [e]) = acceptedSockets es ++ acceptedSockets [e] :=
  List.filterMap_append

/-- Accepting a socket whose peer is gone ends the process. -/
lemma Effect.thrown_ne_none {e : ServerEvent} (h : Effect p p' e) {k : Socket}
    (hk : k ∈ acceptedSockets [e]) (hgone : k.gone = true) : p'.thrown ≠ none := by
  cases h with
  | failed => simp [acceptedSockets] at hk
  | @served k' hthere =>
    obtain rfl : k = k' := by simpa [acceptedSockets] using hk
    simp [hthere] at hgone
  | crashed _ hthrown => exact hthrown
  | session => simp [acceptedSockets] at hk

/-- A server that has just been run serves. -/
lemma serving_start (k : { s : Server // s.Fresh } × ℕ) : Serving [] (system.start k) := by
  have hs : (system.start k).server.sessions = [] :=
    (Server.run_sessions k.1.1 k.2).trans k.1.2.sessions
  have ha : (system.start k).server.accepts = 1 :=
    (Server.run_accepts k.1.1 k.2).trans (congrArg (· + 1) k.1.2.accepts)
  exact ⟨rfl, ha, by simp [hs], by simp [hs, acceptedSockets], by simp [hs]⟩

/-- Serving goes on, unless a socket is accepted whose peer is gone.

**Proof sketch.** A failed accept and a step of a session concern neither the accepted sockets
nor the sockets of the sessions. A socket whose peer is there is added to both. -/
lemma Serving.step {es : List ServerEvent} {e : ServerEvent} (h : Serving es p)
    (hp : system.Reachable p') (he : Effect p p' e)
    (hgone : ∀ k ∈ acceptedSockets [e], k.gone = false) : Serving (es ++ [e]) p' := by
  have hran : ∀ s ∈ p'.server.sessions, ServerSession.Ran s := fun s hs =>
    ServerSession.ran_of_reachable (session_reachable hp s hs)
  cases he with
  | failed ht ha hs =>
    exact ⟨ht, ha.trans h.accepts,
      by simpa [hs, acceptedSockets_snoc, acceptedSockets] using h.sublist,
      by simpa [hs, acceptedSockets_snoc, acceptedSockets] using h.served, hran⟩
  | @served k hk ht ha hs =>
    have hm : p'.server.sessions.map Session.members =
        p.server.sessions.map Session.members ++ [k] := by
      rw [hs, List.map_append]; rfl
    have hk' : acceptedSockets [.accepted (.ok k)] = [k] := rfl
    refine ⟨ht, ha.trans h.accepts, ?_, ?_, hran⟩
    · rw [hm, acceptedSockets_snoc, hk']
      exact h.sublist.append (List.Sublist.refl _)
    · rw [hm, acceptedSockets_snoc, hk', List.filter_append, List.filter_append, h.served]
  | @crashed k hk => exact absurd hk (by simp [hgone k (by simp [acceptedSockets])])
  | @session i e s s' hi hst ht ha hs =>
    have hmem : s'.members = s.members :=
      (ServerSession.proper_program.step hst).2.2
    have hm : p'.server.sessions.map Session.members = p.server.sessions.map Session.members := by
      obtain ⟨hlt, rfl⟩ := List.getElem?_eq_some_iff.mp hi
      rw [hs, List.map_set, hmem, ← List.getElem_map Session.members, List.set_getElem_self]
      simpa using hlt
    have hk' : acceptedSockets [.session i e] = [] := rfl
    refine ⟨ht, ha.trans h.accepts, ?_, ?_, hran⟩
    · rw [hm, acceptedSockets_snoc, hk', List.append_nil]
      exact h.sublist
    · rw [hm, acceptedSockets_snoc, hk', List.append_nil]
      exact h.served

/-- **When the accept loop goes on**: after a run of a server, it serves exactly if no socket was
accepted whose peer was gone when `on_accept` asked for it.

**Proof sketch.** As long as no peer is gone, every step keeps the server serving. Once one is,
the exception ends the process, and no event follows. -/
theorem serving_iff (k : { s : Server // s.Fresh } × ℕ) {es : List ServerEvent}
    (h : system.run (system.start k) es = some p) :
    Serving es p ↔ ∀ socket ∈ acceptedSockets es, socket.gone = false := by
  have hrun : system.Reachable p ∧
      ((Serving es p ∧ ∀ socket ∈ acceptedSockets es, socket.gone = false) ∨
        (p.thrown ≠ none ∧ ∃ socket ∈ acceptedSockets es, socket.gone = true)) := by
    refine system.run_induction (P := fun es p => system.Reachable p ∧
      ((Serving es p ∧ ∀ socket ∈ acceptedSockets es, socket.gone = false) ∨
        (p.thrown ≠ none ∧ ∃ socket ∈ acceptedSockets es, socket.gone = true)))
      ⟨.start k, Or.inl ⟨serving_start k, by simp [acceptedSockets]⟩⟩ ?_ h
    rintro es p e p' ⟨hp, hor⟩ hstep
    have hp' := hp.step hstep
    obtain ⟨hthrown, heff, -⟩ := effect_of_step hstep
    obtain ⟨hs, hall⟩ := hor.resolve_right fun hc => hc.1 hthrown
    refine ⟨hp', ?_⟩
    by_cases hgone : ∀ socket ∈ acceptedSockets [e], socket.gone = false
    · refine Or.inl ⟨hs.step hp' heff hgone, fun socket hmem => ?_⟩
      rw [acceptedSockets_snoc, List.mem_append] at hmem
      exact hmem.elim (hall socket) (hgone socket)
    · obtain ⟨socket, hmem, hg⟩ : ∃ socket ∈ acceptedSockets [e], socket.gone = true := by
        simpa using hgone
      refine Or.inr ⟨?_, socket, ?_, hg⟩
      · exact heff.thrown_ne_none hmem hg
      · rw [acceptedSockets_snoc]
        exact List.mem_append_right _ hmem
  rcases hrun with ⟨-, ⟨hs, hall⟩ | ⟨ht, socket, hmem, hgone⟩⟩
  · exact iff_of_true hs hall
  · exact iff_of_false (fun hs => ht hs.thrown) fun hall => by simp [hall socket hmem] at hgone

/-- A server that accepts one connection, which works, and another whose peer has disconnected. -/
theorem serving_iff_reset :
    let there : Socket := ⟨.ok ⟨.v4 127 0 0 1, 40000⟩, .ok ⟨.v4 127 0 0 1, 40000⟩⟩
    let reset : Socket := ⟨.error "remote_endpoint: Transport endpoint is not connected",
      .error "remote_endpoint: Transport endpoint is not connected"⟩
    ∃ p, system.run (system.start (listener, 1)) [.accepted (.ok there), .accepted (.ok reset)] =
        some p ∧
      (Serving [.accepted (.ok there), .accepted (.ok reset)] p ↔
        ∀ socket ∈ acceptedSockets [.accepted (.ok there), .accepted (.ok reset)],
          socket.gone = false) := by
  intro there reset
  obtain ⟨p, hp⟩ : ∃ p, system.run (system.start (listener, 1))
      [.accepted (.ok there), .accepted (.ok reset)] = some p := ⟨_, rfl⟩
  exact ⟨p, hp, serving_iff _ hp⟩

/-- The peer of the first connection has disconnected: an exception leaves `on_accept`, and no
accept is outstanding any more. -/
theorem not_serving_reset :
    let reset : Socket := ⟨.error "remote_endpoint: Transport endpoint is not connected",
      .error "remote_endpoint: Transport endpoint is not connected"⟩
    ∃ p, system.run (system.start (listener, 1)) [.accepted (.ok reset)] = some p ∧
      p.thrown = some (.systemError "remote_endpoint: Transport endpoint is not connected") ∧
      p.server.accepts = 0 ∧ ¬ Serving [.accepted (.ok reset)] p := by
  refine ⟨_, rfl, rfl, rfl, fun h => ?_⟩
  cases h.thrown

end Process

end Vsna
