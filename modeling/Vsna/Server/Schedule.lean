import Vsna.Automata.Pool
import Vsna.Server.Server

set_option relaxedAutoImplicit false
set_option autoImplicit false

/-!
# Scheduling does not matter

The four threads of the server execute its handlers in an order that nobody controls. A run of the
server is put together from the results of its accepts, in order, and for every session the
sequence of its own events; the rest of the order is up to the scheduler. It does not matter for
any of them: runs with the same parts end in the same state, each session with the same output of
its own, and so the accept loop. What does depend on the order is how the lines of different
sessions follow each other on the one standard output, which is no part of the state.

## Main definitions

* `Vsna.Process.results`, `Vsna.Process.schedule` — the accepts of a run, and what it does to the
  sessions.
* `Vsna.Process.front`, `Vsna.Process.acceptLoop` — the server without its sessions, and the
  transition system of its accepts.

## Main results

* `Vsna.Process.halves_of_run`, `Process.run_of_halves` — a run of the server is a run of the accept
  loop and a run of the pool of sessions.
* `Vsna.Process.run_reorder` — the order in which handlers of different sessions run is of no
  consequence to any of them.
* `Vsna.Process.session_alone` — a session does what it would do on a server of its own.
-/

namespace Vsna

open Text Websocket

namespace Process

/-! ## The parts of a run -/

/-- The result of the accept that an event completes, if it completes one. -/
def acceptResult : ServerEvent → Option (Except (Error UInt8) Socket)
  | .accepted r => some r
  | .session _ _ => none

/-- The results of the accepts of a run, in order. -/
def results (es : List ServerEvent) : List (Except (Error UInt8) Socket) :=
  es.filterMap acceptResult

/-- The socket on which an accept with the given result runs a session. -/
def servedSocket : Except (Error UInt8) Socket → Option Socket
  | .ok k => if k.gone then none else some k
  | .error _ => none

/-- What an event does to the pool of sessions. -/
def sessionEvent : ServerEvent → Option (Socket ⊕ ℕ × Event UInt8)
  | .accepted r => (servedSocket r).map .inl
  | .session i e => some (.inr (i, e))

/-- What a run does to the pool of sessions. -/
def schedule (es : List ServerEvent) : List (Socket ⊕ ℕ × Event UInt8) := es.filterMap sessionEvent

/-- The server without its sessions. -/
def front (p : Process) : Process := { p with server.sessions := [] }

/-- The accepts alone. -/
def acceptLoop : Automata.System ({ s : Server // s.Fresh } × ℕ) Process
    (Except (Error UInt8) Socket) where
  start k := (start k.1 k.2).front
  step q r := (q.step (.accepted r)).map front

/-- The first accept, and those that follow. -/
@[simp] lemma results_accepted (r : Except (Error UInt8) Socket) (es : List ServerEvent) :
    results (.accepted r :: es) = r :: results es := rfl

/-- An event of a session completes no accept. -/
@[simp] lemma results_session (i : ℕ) (e : Event UInt8) (es : List ServerEvent) :
    results (.session i e :: es) = results es := rfl

/-- The completion of an accept runs at most one session. -/
@[simp] lemma schedule_accepted (r : Except (Error UInt8) Socket) (es : List ServerEvent) :
    schedule (.accepted r :: es) = (servedSocket r).toList.map .inl ++ schedule es := by
  cases h : servedSocket r <;> simp [schedule, sessionEvent, h]

/-- An event of a session is one in the pool. -/
@[simp] lemma schedule_session (i : ℕ) (e : Event UInt8) (es : List ServerEvent) :
    schedule (.session i e :: es) = .inr (i, e) :: schedule es := rfl

/-- The sessions that a run starts are those of its accepts. -/
lemma spawns_schedule (es : List ServerEvent) :
    Automata.spawns (schedule es) = (results es).filterMap servedSocket := by
  rw [Automata.spawns, schedule, results, List.filterMap_filterMap, List.filterMap_filterMap]
  congr 1
  funext e
  cases e with
  | accepted r =>
    simp only [sessionEvent, acceptResult, Option.bind_some]
    cases servedSocket r <;> rfl
  | session i e => rfl

variable {p p' q : Process} {es fs : List ServerEvent}
  {k : { s : Server // s.Fresh } × ℕ}

/-! ## The two halves of a step -/

/-- The front has the sessions of the server left out, and all else. -/
lemma ext_front (h : p.front = q.front) (hs : p.server.sessions = q.server.sessions) : p = q := by
  obtain ⟨⟨config, acceptor, accepts, threads, sessions, cout, cerr⟩, thrown⟩ := p
  obtain ⟨⟨config', acceptor', accepts', threads', sessions', cout', cerr'⟩, thrown'⟩ := q
  simp only [front, mk.injEq, Server.mk.injEq] at h hs ⊢
  exact ⟨⟨h.1.1, h.1.2.1, h.1.2.2.1, h.1.2.2.2.1, hs, h.1.2.2.2.2.2⟩, h.2⟩

/-- `on_accept` does not look at the sessions. -/
lemma front_onAccept (r : Except (Error UInt8) Socket) (s : Server) :
    (ofResult (Server.onAccept r s)).front =
      (ofResult (Server.onAccept r { s with sessions := [] })).front := by
  cases r with
  | error e =>
    change front ⟨(s.fail e "accept").doAccept, none⟩ =
      front ⟨(Server.fail { s with sessions := [] } e "accept").doAccept, none⟩
    unfold Server.fail
    split <;> rfl
  | ok k =>
    obtain ⟨_ | ep₁, _ | ep₂⟩ := k <;> rfl

/-- An accept completes as it does without the sessions. -/
lemma front_step_accepted (p : Process) (r : Except (Error UInt8) Socket) :
    (p.step (.accepted r)).map front = acceptLoop.step p.front r := by
  simp only [acceptLoop, step]
  by_cases hc : p.thrown = none ∧ p.server.accepts ≠ 0 ∧
      (r.toBool = true → p.server.acceptor.listening = true)
  · rw [if_pos hc, if_pos (show p.front.thrown = none ∧ p.front.server.accepts ≠ 0 ∧
      (r.toBool = true → p.front.server.acceptor.listening = true) from hc)]
    exact congrArg some (front_onAccept r _)
  · rw [if_neg hc, if_neg (show ¬ (p.front.thrown = none ∧ p.front.server.accepts ≠ 0 ∧
      (r.toBool = true → p.front.server.acceptor.listening = true)) from hc)]

/-- What the completion of an accept does to the sessions. -/
lemma sessions_step_accepted {r : Except (Error UInt8) Socket}
    (h : p.step (.accepted r) = some p') :
    p'.server.sessions =
      p.server.sessions ++ (servedSocket r).toList.map ServerSession.program.start := by
  obtain ⟨-, heff, -⟩ := effect_of_step h
  cases heff with
  | failed _ _ hs => simpa [servedSocket] using hs
  | served hk _ _ hs => simpa [servedSocket, hk] using hs
  | crashed hk _ hs => simpa [servedSocket, hk] using hs

/-- A step of a session is one of the pool, and leaves the front as it is. -/
lemma step_session_eq_some_iff {i : ℕ} {e : Event UInt8} :
    p.step (.session i e) = some p' ↔ p.thrown = none ∧ p'.front = p.front ∧
      ServerSession.program.system.pool.step p.server.sessions (.inr (i, e)) =
        some p'.server.sessions := by
  simp only [step, Automata.System.pool, Option.bind_eq_bind]
  constructor
  · intro h
    split_ifs at h with ht
    obtain ⟨s, hs, s', hs', hp'⟩ : ∃ s, p.server.sessions[i]? = some s ∧ ∃ s',
        ServerSession.program.step s e = some s' ∧
          (⟨{ p.server with sessions := p.server.sessions.set i s' }, none⟩ : Process) = p' := by
      simpa [Option.bind_eq_some_iff] using h
    refine ⟨ht, ?_, ?_⟩
    · rw [← hp', front, front, ht]
    · rw [hs, Option.bind_some]
      exact Option.bind_eq_some_iff.mpr ⟨s', hs', congrArg (some ·.server.sessions) hp'⟩
  · rintro ⟨ht, hf, hpool⟩
    obtain ⟨s, hs, s', hs', hl⟩ : ∃ s, p.server.sessions[i]? = some s ∧ ∃ s',
        ServerSession.program.system.step s e = some s' ∧
          p.server.sessions.set i s' = p'.server.sessions := by
      simpa [Option.bind_eq_some_iff] using hpool
    have hs'' : ServerSession.program.step s e = some s' := hs'
    rw [if_pos ht, hs, Option.bind_some, hs'', Option.bind_some]
    refine congrArg some (ext_front ?_ hl)
    rw [hf, front, front, ht]

/-! ## Runs -/

/-- **A run of the server is a run of the accept loop and a run of the pool of sessions.**

**Proof sketch.** Induction on the events. Completing an accept is a step of the loop, and spawns
a session if it is served; an event of a session is a step of the pool. -/
lemma halves_of_run (h : system.run p es = some p') :
    acceptLoop.run p.front (results es) = some p'.front ∧
      ServerSession.program.system.pool.run p.server.sessions (schedule es) =
        some p'.server.sessions := by
  induction es generalizing p with
  | nil =>
    obtain rfl : p = p' := by simpa using h
    exact ⟨rfl, rfl⟩
  | cons e es ih =>
    obtain ⟨p₁, h₁, h₂⟩ := system.run_cons_eq_some.mp h
    obtain ⟨hloop, hpool⟩ := ih h₂
    cases e with
    | accepted r =>
      have hstep : acceptLoop.step p.front r = some p₁.front := by
        rw [← front_step_accepted, show p.step (.accepted r) = some p₁ from h₁, Option.map_some]
      refine ⟨acceptLoop.run_cons_eq_some.mpr ⟨_, hstep, hloop⟩, ?_⟩
      rw [schedule_accepted, Automata.System.pool_run_spawns]
      exact sessions_step_accepted h₁ ▸ hpool
    | session i e =>
      obtain ⟨-, hf, hstep⟩ := step_session_eq_some_iff.mp h₁
      exact ⟨hf ▸ hloop, Automata.System.run_cons_eq_some _ |>.mpr ⟨_, hstep, hpool⟩⟩

/-- Once an exception has ended the process, no accept completes. -/
lemma thrown_of_loop_run {rs : List (Except (Error UInt8) Socket)} (ht : p'.thrown = none)
    (h : acceptLoop.run p rs = some p') : p.thrown = none := by
  cases rs with
  | nil =>
    obtain rfl : p = p' := by simpa using h
    exact ht
  | cons r rs =>
    obtain ⟨p₁, h₁, -⟩ := acceptLoop.run_cons_eq_some.mp h
    obtain ⟨p₂, h₂, -⟩ := Option.map_eq_some_iff.mp h₁
    exact (effect_of_step h₂).1

/-- Conversely, the two halves make a run of the server, if no exception ends the process.

**Proof sketch.** Induction on the events. Each of them is possible for the server because it is
possible for the half it belongs to. -/
lemma run_of_halves (ht : p'.thrown = none)
    (hloop : acceptLoop.run p.front (results es) = some p'.front)
    (hpool : ServerSession.program.system.pool.run p.server.sessions (schedule es) =
      some p'.server.sessions) : system.run p es = some p' := by
  induction es generalizing p with
  | nil => exact congrArg some (ext_front (Option.some.inj hloop) (Option.some.inj hpool))
  | cons e es ih =>
    cases e with
    | accepted r =>
      obtain ⟨q, hq, hloop⟩ := acceptLoop.run_cons_eq_some.mp hloop
      rw [← front_step_accepted] at hq
      obtain ⟨p₁, h₁, rfl⟩ := Option.map_eq_some_iff.mp hq
      refine system.run_cons_eq_some.mpr ⟨p₁, h₁, ih hloop ?_⟩
      rw [schedule_accepted, Automata.System.pool_run_spawns] at hpool
      exact sessions_step_accepted h₁ ▸ hpool
    | session i e =>
      obtain ⟨l, hl, hpool⟩ := Automata.System.run_cons_eq_some _ |>.mp hpool
      have hend : p'.front.thrown = none := ht
      have hthrown : p.front.thrown = none := thrown_of_loop_run hend hloop
      let p₁ : Process := { p with server.sessions := l }
      exact system.run_cons_eq_some.mpr
        ⟨p₁, step_session_eq_some_iff.mpr ⟨hthrown, rfl, hl⟩, ih hloop hpool⟩

/-- **The order in which handlers of different sessions run is of no consequence** to any of them.
Two runs with the same results of accepts and the same events for each session end in the same
state, in which the accept loop and every session have the same output of their own; and any
reordering of a run in which no event of a session comes before its socket was accepted is a run
of the server, unless an exception ends the process.

**Proof sketch.** Both runs are made of a run of the accept loop, which is the same, and of a run
of the pool of sessions, in which the order between sessions does not matter. -/
theorem run_reorder (h : system.run (system.start k) es = some p)
    (hresults : results fs = results es)
    (hevents : ∀ i, Automata.eventsOf i (schedule fs) = Automata.eventsOf i (schedule es)) :
    (∀ p', system.run (system.start k) fs = some p' → p' = p) ∧
      (p.thrown = none → Automata.Addressed 0 (schedule fs) →
        system.run (system.start k) fs = some p) := by
  obtain ⟨hloop, hpool⟩ := halves_of_run h
  have hspawns : Automata.spawns (schedule fs) = Automata.spawns (schedule es) := by
    rw [spawns_schedule, spawns_schedule, hresults]
  have hnil : (system.start k).server.sessions = [] :=
    (Server.run_sessions k.1.1 k.2).trans k.1.2.sessions
  have hpool' : Automata.Addressed 0 (schedule fs) →
      ServerSession.program.system.pool.run (system.start k).server.sessions (schedule fs) =
        some p.server.sessions := fun haddr =>
    Automata.System.pool_run_reorder _ hpool hspawns hevents (by rwa [hnil])
  refine ⟨fun p' h' => ?_, fun ht haddr => run_of_halves ht (hresults ▸ hloop) (hpool' haddr)⟩
  obtain ⟨hloop', hpool''⟩ := halves_of_run h'
  have haddr : Automata.Addressed 0 (schedule fs) := by
    have := Automata.System.addressed_of_pool_run _ hpool''
    rwa [hnil] at this
  refine ext_front ?_ (Option.some.inj (hpool''.symm.trans (hpool' haddr)))
  exact Option.some.inj (hloop'.symm.trans (hresults ▸ hloop))

/-- Two connections, the events of which come one connection after the other or in turns. -/
theorem run_reorder_two :
    let socket : Socket := ⟨.ok ⟨.v4 127 0 0 1, 40000⟩, .ok ⟨.v4 127 0 0 1, 40000⟩⟩
    let es : List ServerEvent := [.accepted (.ok socket), .session 0 (.complete 0 none),
      .session 0 (.arrive ⟨true, true, "hi"⟩), .accepted (.ok socket),
      .session 1 (.complete 0 (some ⟨.other, "bad method"⟩))]
    let fs : List ServerEvent := [.accepted (.ok socket), .accepted (.ok socket),
      .session 1 (.complete 0 (some ⟨.other, "bad method"⟩)), .session 0 (.complete 0 none),
      .session 0 (.arrive ⟨true, true, "hi"⟩)]
    ∃ p, system.run (system.start (listener, 1)) es = some p ∧
      system.run (system.start (listener, 1)) fs = some p ∧ p.server.sessions.length = 2 := by
  intro socket es fs
  obtain ⟨p, hp, hlen, ht⟩ : ∃ p, system.run (system.start (listener, 1)) es = some p ∧
      p.server.sessions.length = 2 ∧ p.thrown = none := ⟨_, rfl, rfl, rfl⟩
  have hevents : ∀ i, Automata.eventsOf i (schedule fs) = Automata.eventsOf i (schedule es)
    | 0 => rfl
    | 1 => rfl
    | i + 2 => rfl
  have hresults : results fs = results es := rfl
  have haddr : Automata.Addressed 0 (schedule fs) :=
    ⟨Nat.one_lt_two, Nat.two_pos, Nat.two_pos, trivial⟩
  exact ⟨p, hp, (run_reorder hp hresults hevents).2 ht haddr, hlen⟩

/-- **A session does what it would do on a server of its own**: session `i` of a run is in the
state that a lone session reaches on the socket that was the `i`-th to be served, by the events
that the run has for it. -/
theorem session_alone (h : system.run (system.start k) es = some p) (i : ℕ) :
    p.server.sessions[i]? = ((results es).filterMap servedSocket)[i]?.bind fun socket =>
      ServerSession.program.system.run (ServerSession.program.start socket)
        (Automata.eventsOf i (schedule es)) := by
  have hnil : (system.start k).server.sessions = [] :=
    (Server.run_sessions k.1.1 k.2).trans k.1.2.sessions
  have hi := Automata.System.getElem?_of_pool_run _ (halves_of_run h).2 i
  rw [hnil, List.nil_append, List.getElem?_map, spawns_schedule] at hi
  rw [hi]
  cases ((results es).filterMap servedSocket)[i]? <;> rfl

/-- The second session of a server, whose handshake fails while the first one is read from. -/
theorem session_alone_second :
    let socket : Socket := ⟨.ok ⟨.v4 127 0 0 1, 40000⟩, .ok ⟨.v4 127 0 0 1, 40000⟩⟩
    let es : List ServerEvent := [.accepted (.ok socket), .session 0 (.complete 0 none),
      .accepted (.ok socket), .session 0 (.arrive ⟨true, true, "hi"⟩),
      .session 1 (.complete 0 (some ⟨.other, "bad method"⟩)), .session 0 (.receive 0)]
    ∃ p, system.run (system.start (listener, 1)) es = some p ∧
      p.server.sessions[1]? = ServerSession.program.system.run (ServerSession.program.start socket)
        [.complete 0 (some ⟨.other, "bad method"⟩)] := by
  intro socket es
  obtain ⟨p, hp⟩ : ∃ p, system.run (system.start (listener, 1)) es = some p := ⟨_, rfl⟩
  exact ⟨p, hp, session_alone hp 1⟩

end Process

end Vsna
