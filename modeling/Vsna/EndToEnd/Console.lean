import Vsna.Automata.Shared
import Vsna.EndToEnd.Output

set_option relaxedAutoImplicit false
set_option autoImplicit false

/-!
# The console of a server

The server as it runs: `Server::run()` starts the worker threads one by one and announces each of
them, and each one runs handlers as soon as it is started. So a connection can be accepted while
the main thread still has lines to print. All threads write to the one `std::cout` and the one
`std::cerr`, on which the lines of the main thread, of the accept loop and of the sessions mix in
any way, down to single bytes. What each of them writes does not depend on the others.

A handler, or a step of `run()`, is one event here, and what it prints gets onto the stream
afterwards, but before the next event of the same thread or strand. So a line may be later than in
the code, compared with what other handlers do, but never earlier.

Apart from the threads that have been started and from the order of output, this server does
nothing that `Vsna.Process` does not do, in which `run()` is a single step.

## Main definitions

* `Vsna.RunStep`, `Server.runSteps` — the steps of `run()`.
* `Vsna.Writer`, `Vsna.Console`, `Vsna.Console.system` — the server with its two shared streams.
* `Vsna.Process.still` — a server process without threads and output.
* `Vsna.Console.Told` — what has been handed to the two streams, writer by writer.

## Main results

* `Vsna.Server.foldl_runSteps` — the steps of `run()` make `run()`.
* `Vsna.Console.process_of_run` — a run of this server is a run of `Vsna.Process`.
* `Vsna.Console.told_of_run` — the output of a server, after every run.
-/

namespace Vsna

open Text Websocket

/-! ## The steps of `run()` -/

/-- The steps of `Server::run()`, up to the call of `io_context::run()` in the main thread. -/
inductive RunStep
  /-- `start_accept()`. -/
  | startAccept
  /-- Print where the server is running. -/
  | announce
  /-- Start a thread, which runs the context. -/
  | startThread
  /-- Print that thread `i`, counted from zero, was started. -/
  | announceThread (i : ℕ)
  /-- Print the number of the process. -/
  | announcePid (pid : ℕ)
  /-- Print that the main thread was started. -/
  | announceMain
  deriving DecidableEq

/-- What a step of `run()` does. -/
def RunStep.exec (s : Server) : RunStep → Server
  | .startAccept => s.startAccept
  | .announce => s.print s.announcement
  | .startThread => { s with threads := s.threads + 1 }
  | .announceThread i => s.print ("Thread " ++ decimal (i + 1) ++ " started.\n")
  | .announcePid pid => s.print ("PID: " ++ decimal pid ++ "\n")
  | .announceMain => s.print "Main thread started.\n"

/-- What a step of `run()` prints, with the given configuration. -/
def RunStep.text (config : Config) : RunStep → Str
  | .startAccept => "Waiting for a TCP connection...\n"
  | .announce => "Server is running on " ++ config.addr.toString ++ "\n"
  | .startThread => []
  | .announceThread i => "Thread " ++ decimal (i + 1) ++ " started.\n"
  | .announcePid pid => "PID: " ++ decimal pid ++ "\n"
  | .announceMain => "Main thread started.\n"

namespace Server

/-- The steps of `run()` in the process `pid`. -/
def runSteps (pid : ℕ) : List RunStep :=
  [.startAccept, .announce] ++
    (List.range (maxThreads - 1)).flatMap (fun i => [.startThread, .announceThread i]) ++
    [.announcePid pid, .announceMain]

/-- Everything that `run()` prints. -/
def banner (s : Server) (pid : ℕ) : Str := (runSteps pid).flatMap (RunStep.text s.config)

/-- **The steps of `run()`** make `run()`. -/
lemma foldl_runSteps (s : Server) (pid : ℕ) : (runSteps pid).foldl RunStep.exec s = s.run pid :=
  rfl

/-- A step of `run()` prints its text, and starts at most an accept and a thread. -/
lemma exec_eq (s : Server) (r : RunStep) :
    r.exec s = { s with
      accepts := s.accepts + if r = .startAccept then 1 else 0
      threads := s.threads + if r = .startThread then 1 else 0
      cout := s.cout ++ r.text s.config } := by
  cases r <;> simp [RunStep.exec, RunStep.text, startAccept, doAccept, print, announcement]

end Server

/-! ## The server with its streams -/

/-- Those who write to the standard streams. -/
inductive Writer
  /-- The main thread, in `run()`. -/
  | main
  /-- The handlers of the accepts. -/
  | acceptLoop
  /-- The handlers of session `i`. -/
  | session (i : ℕ)
  deriving DecidableEq

/-- Whose handler an event runs. -/
def ServerEvent.writer : ServerEvent → Writer
  | .accepted _ => .acceptLoop
  | .session i _ => .session i

/-- Does an event run no handler? A frame arrives whatever the handlers do. -/
def ServerEvent.isArrival : ServerEvent → Bool
  | .session _ e => e.isArrival
  | _ => false

namespace Process

/-- The part of the output that a writer adds to: what a session has printed, or, for the main
thread and the accept loop alike, what the server has printed itself. -/
def coutOf (p : Process) : Writer → Str
  | .session i => (p.server.sessions[i]?.map fun s => (printed s.log).flatten).getD []
  | _ => p.server.cout

/-- The same for standard error. -/
def cerrOf (p : Process) : Writer → Str
  | .session i => (p.server.sessions[i]?.map fun s => (complaints s.log).flatten).getD []
  | _ => p.server.cerr

end Process

/-- A server process in the middle of `run()` or after it, with its standard streams. -/
structure Console where
  process : Process
  /-- The steps of `run()` that are still to be taken. -/
  todo : List RunStep
  cout : Automata.Shared Writer UInt8
  cerr : Automata.Shared Writer UInt8

/-- What can happen to the server and its streams. -/
inductive ConsoleEvent
  /-- The main thread takes the next step of `run()`. -/
  | main
  /-- An event of the running server. -/
  | handle (e : ServerEvent)
  /-- The next `n` bytes of a writer, or all that there are, get onto standard output. -/
  | cout (w : Writer) (n : ℕ)
  /-- The next `n` bytes of a writer, or all that there are, get onto standard error. -/
  | cerr (w : Writer) (n : ℕ)

/-- The event of the running server that an event is, if it is one. -/
def ConsoleEvent.handled : ConsoleEvent → Option ServerEvent
  | .handle e => some e
  | _ => none

namespace Console

/-- The writer has nothing more to write for now. -/
def Idle (c : Console) (w : Writer) : Prop := c.cout.waiting w = [] ∧ c.cerr.waiting w = []

instance (c : Console) (w : Writer) : Decidable (c.Idle w) :=
  inferInstanceAs (Decidable (_ ∧ _))

/-- Some thread is running the context: one that was started, or the main thread after `run()`. -/
def Running (c : Console) : Prop :=
  c.process.server.threads ≠ 0 ∨ (c.todo = [] ∧ c.Idle .main)

instance (c : Console) : Decidable c.Running := inferInstanceAs (Decidable (_ ∨ _))

/-- The process goes on to `p`, and what this adds to its output the writer `w` hands over. -/
def advance (c : Console) (w : Writer) (p : Process) : Console :=
  { c with
    process := p
    cout := c.cout.hand w ((p.coutOf w).drop (c.process.coutOf w).length)
    cerr := c.cerr.hand w ((p.cerrOf w).drop (c.process.cerrOf w).length) }

/-- One event of the server and its streams. A thread, or a strand, goes on when it has written
what it was to write. -/
def step (c : Console) : ConsoleEvent → Option Console
  | .main =>
    match c.todo with
    | [] => none
    | r :: todo =>
      if c.process.thrown = none ∧ c.Idle .main then
        some { c.advance .main { c.process with server := r.exec c.process.server } with
          todo := todo }
      else none
  | .handle e =>
    if e.isArrival = true ∨ (c.Running ∧ c.Idle e.writer) then
      (c.process.step e).map (c.advance e.writer)
    else none
  | .cout w n => some { c with cout := c.cout.flush w n }
  | .cerr w n => some { c with cerr := c.cerr.flush w n }

/-- The server `s` in the process `pid`, when `run` is called. -/
def start (s : Server) (pid : ℕ) : Console where
  process := ⟨s, none⟩
  todo := Server.runSteps pid
  cout := ⟨fun _ => [], [(.main, s.cout)]⟩
  cerr := ⟨fun _ => [], [(.main, s.cerr)]⟩

/-- The running server with its streams, from any fresh one. -/
def system : Automata.System ({ s : Server // s.Fresh } × ℕ) Console ConsoleEvent where
  start k := start k.1 k.2
  step := step

/-- The events of the running server in a run. -/
def handled (es : List ConsoleEvent) : List ServerEvent := es.filterMap ConsoleEvent.handled

end Console

/-! ## What the running server does -/

namespace Process

variable {p p' q : Process}

/-- A server process without its threads and its standard output. -/
def still (p : Process) : Process :=
  { p with server := { p.server with threads := 0, cout := [] } }

/-- `on_accept` looks neither at the threads nor at the output. -/
lemma still_onAccept (r : Except (Error UInt8) Socket) (s : Server) :
    (ofResult (Server.onAccept r s)).still =
      (ofResult (Server.onAccept r { s with threads := 0, cout := [] })).still := by
  cases r with
  | error e =>
    change still ⟨(s.fail e "accept").doAccept, none⟩ =
      still ⟨(Server.fail { s with threads := 0, cout := [] } e "accept").doAccept, none⟩
    unfold Server.fail
    split <;> rfl
  | ok k => obtain ⟨_ | ep₁, _ | ep₂⟩ := k <;> rfl

/-- A step of the server depends neither on the threads nor on the output. -/
lemma still_step (p : Process) (e : ServerEvent) :
    (p.step e).map still = (p.still.step e).map still := by
  cases e with
  | accepted r =>
    simp only [step]
    by_cases hc : p.thrown = none ∧ p.server.accepts ≠ 0 ∧
        (r.toBool = true → p.server.acceptor.listening = true)
    · rw [if_pos hc, if_pos (show p.still.thrown = none ∧ p.still.server.accepts ≠ 0 ∧
        (r.toBool = true → p.still.server.acceptor.listening = true) from hc)]
      exact congrArg some (still_onAccept r _)
    · rw [if_neg hc, if_neg (show ¬ (p.still.thrown = none ∧ p.still.server.accepts ≠ 0 ∧
        (r.toBool = true → p.still.server.acceptor.listening = true)) from hc)]
  | session i e =>
    have hsessions : p.still.server.sessions = p.server.sessions := rfl
    simp only [step, hsessions]
    by_cases ht : p.thrown = none
    · rw [if_pos ht, if_pos (show p.still.thrown = none from ht)]
      cases p.server.sessions[i]? with
      | none => rfl
      | some s =>
        simp only [Option.bind_eq_bind, Option.bind_some]
        cases ServerSession.program.step s e <;> rfl
    · rw [if_neg ht, if_neg (show ¬ p.still.thrown = none from ht)]

/-- Every step of `run()` but the first only starts a thread or prints. -/
lemma still_exec {r : RunStep} (hr : r ≠ .startAccept) (s : Server) (x : Option Exn) :
    still ⟨r.exec s, x⟩ = still ⟨s, x⟩ := by
  simp [still, Server.exec_eq, hr]

/-- So after the first step the server is where `run()` leads to. -/
lemma still_start (s : Server) (pid : ℕ) :
    still ⟨RunStep.startAccept.exec s, none⟩ = (start s pid).still := by
  have hrest : ∀ (rs : List RunStep) (s : Server), .startAccept ∉ rs →
      still ⟨rs.foldl RunStep.exec s, none⟩ = still ⟨s, none⟩ := by
    intro rs
    induction rs with
    | nil => exact fun _ _ => rfl
    | cons r rs ih =>
      intro s hmem
      rw [List.mem_cons, not_or] at hmem
      rw [List.foldl_cons, ih _ hmem.2, still_exec (Ne.symm hmem.1)]
  have hsteps : Server.runSteps pid = .startAccept :: (Server.runSteps pid).tail := rfl
  rw [start, ← Server.foldl_runSteps, hsteps, List.foldl_cons, hrest]
  simp [Server.runSteps]

/-- What one server does, another one can do that differs in threads and output only. -/
lemma step_of_still {e : ServerEvent} (h : p.still = q.still) (hp : p.step e = some p') :
    ∃ q', q.step e = some q' ∧ p'.still = q'.still := by
  have hstep := still_step p e
  rw [h, ← still_step q e, hp, Option.map_some] at hstep
  obtain ⟨q', hq', hstill⟩ := Option.map_eq_some_iff.mp hstep.symm
  exact ⟨q', hq', hstill.symm⟩

/-- A session that has just been run has written nothing. -/
lemma output_start (socket : Socket) :
    printed (ServerSession.program.start socket).log = [] ∧
      complaints (ServerSession.program.start socket).log = [] :=
  ⟨rfl, rfl⟩

/-- The completion of an accept adds nothing to what the sessions have written. -/
lemma sessions_output_accepted {r : Except (Error UInt8) Socket}
    (h : p.step (.accepted r) = some p') (i : ℕ) :
    p'.coutOf (.session i) = p.coutOf (.session i) ∧
      p'.cerrOf (.session i) = p.cerrOf (.session i) := by
  have hsessions := sessions_step_accepted h
  cases hserved : servedSocket r with
  | none =>
    rw [hserved, Option.toList_none, List.map_nil, List.append_nil] at hsessions
    simp [coutOf, cerrOf, hsessions]
  | some socket =>
    rw [hserved, Option.toList_some, List.map_singleton] at hsessions
    simp only [coutOf, cerrOf, hsessions]
    rcases lt_trichotomy i p.server.sessions.length with hlt | rfl | hgt
    · simp [List.getElem?_append_left hlt]
    · simp [output_start]
    · have hlen : (p.server.sessions ++ [ServerSession.program.start socket]).length ≤ i := by
        simpa [Nat.succ_le_iff] using hgt
      simp [List.getElem?_eq_none hlen, List.getElem?_eq_none hgt.le]

/-- A step of a session adds to what the session has written. -/
lemma session_output {i : ℕ} {e : Event UInt8} (h : p.step (.session i e) = some p') :
    (∃ text, p'.coutOf (.session i) = p.coutOf (.session i) ++ text) ∧
      ∃ err, p'.cerrOf (.session i) = p.cerrOf (.session i) ++ err := by
  obtain ⟨-, heff, -⟩ := effect_of_step h
  cases heff with
  | @session _ _ s s' hi he _ _ hs =>
    obtain ⟨hlt, -⟩ := List.getElem?_eq_some_iff.mp hi
    obtain ⟨more, hmore⟩ := (ServerSession.proper_program.step he).1
    refine ⟨⟨(printed more).flatten, ?_⟩, (complaints more).flatten, ?_⟩
    · simp [coutOf, hs, hi, List.getElem?_set_self hlt, ← hmore]
    · simp [cerrOf, hs, hi, List.getElem?_set_self hlt, ← hmore]

/-- A step of a session writes nothing for any other writer. -/
lemma other_output {i : ℕ} {e : Event UInt8} (h : p.step (.session i e) = some p') {w : Writer}
    (hw : w ≠ .session i) : p'.coutOf w = p.coutOf w ∧ p'.cerrOf w = p.cerrOf w := by
  obtain ⟨-, hfront, -⟩ := step_session_eq_some_iff.mp h
  cases w with
  | session j =>
    obtain ⟨-, heff, -⟩ := effect_of_step h
    cases heff with
    | session hi he _ _ hs =>
      have hij : i ≠ j := fun hij => hw (hij ▸ rfl)
      simp [coutOf, cerrOf, hs, List.getElem?_set_ne hij]
  | _ => exact ⟨congrArg (·.server.cout) hfront, congrArg (·.server.cerr) hfront⟩

end Process

namespace Console

variable {c c' : Console} {k : { s : Server // s.Fresh } × ℕ} {es : List ConsoleEvent}
  {fs : List ServerEvent}

/-- What an event does to the server and its streams. -/
inductive Effect (c : Console) : ConsoleEvent → Console → Prop
  | main {r : RunStep} {todo : List RunStep} (htodo : c.todo = r :: todo) :
      Effect c .main { c.advance .main { c.process with server := r.exec c.process.server } with
        todo := todo }
  | handle {e : ServerEvent} {p : Process} (hp : c.process.step e = some p) :
      Effect c (.handle e) (c.advance e.writer p)
  | cout (w : Writer) (n : ℕ) : Effect c (.cout w n) { c with cout := c.cout.flush w n }
  | cerr (w : Writer) (n : ℕ) : Effect c (.cerr w n) { c with cerr := c.cerr.flush w n }

/-- Inversion of an event. -/
lemma effect_of_step {e : ConsoleEvent} (h : c.step e = some c') : Effect c e c' := by
  cases e with
  | main =>
    simp only [step] at h
    split at h
    · simp at h
    · next r todo htodo =>
      split_ifs at h
      obtain rfl := Option.some.inj h
      exact .main htodo
  | handle e =>
    simp only [step] at h
    split_ifs at h
    obtain ⟨p, hp, rfl⟩ := Option.map_eq_some_iff.mp h
    exact .handle hp
  | cout w n =>
    obtain rfl := Option.some.inj h
    exact .cout w n
  | cerr w n =>
    obtain rfl := Option.some.inj h
    exact .cerr w n

/-- How a server of `Vsna.Process` follows this one: they start together, and from the first accept
on they differ in threads and output only. -/
def Follows (k : { s : Server // s.Fresh } × ℕ) (c : Console) (p : Process) : Prop :=
  (c.todo = Server.runSteps k.2 ∧ c.process = ⟨k.1.1, none⟩ ∧ p = Process.system.start k) ∨
    (.startAccept ∉ c.todo ∧ c.process.still = p.still)

/-- The two have the same sessions. -/
lemma Follows.sessions {p : Process} (h : Follows k c p) :
    c.process.server.sessions = p.server.sessions := by
  rcases h with ⟨-, hprocess, rfl⟩ | ⟨-, hstill⟩
  · rw [hprocess]
    exact (Server.run_sessions k.1.1 k.2).symm
  · exact congrArg (·.server.sessions) hstill

/-- Before the first accept nothing can happen to the server. -/
lemma step_fresh {s : Server} (h : s.Fresh) (e : ServerEvent) :
    Process.step ⟨s, none⟩ e = none := by
  cases e with
  | accepted r => simp [Process.step, h.accepts]
  | session i e => simp [Process.step, h.sessions]

/-- **The server does nothing that `Vsna.Process` does not do.**

**Proof sketch.** Before the first accept no event of the server is possible. The first step of
`run()` starts it, and the others only start threads and print. -/
lemma simulates (k : { s : Server // s.Fresh } × ℕ) :
    system.Simulates Process.system ConsoleEvent.handled (Follows k) := by
  intro c p e c' hfollows hstep
  cases effect_of_step hstep with
  | @main r todo htodo =>
    refine ⟨p, rfl, Or.inr ?_⟩
    rcases hfollows with ⟨htodo', hprocess, rfl⟩ | ⟨hmem, hstill⟩
    · obtain ⟨rfl, rfl⟩ : r = .startAccept ∧ todo = (Server.runSteps k.2).tail := by
        rw [htodo'] at htodo
        exact ⟨(List.cons.inj htodo).1.symm, (List.cons.inj htodo).2.symm⟩
      refine ⟨by simp [Server.runSteps], ?_⟩
      simp only [advance, hprocess]
      exact Process.still_start k.1.1 k.2
    · rw [htodo, List.mem_cons, not_or] at hmem
      exact ⟨hmem.2, (Process.still_exec (Ne.symm hmem.1) _ _).trans hstill⟩
  | @handle e q hq =>
    rcases hfollows with ⟨-, hprocess, -⟩ | ⟨hmem, hstill⟩
    · rw [hprocess, step_fresh k.1.2] at hq
      cases hq
    · obtain ⟨q', hq', hstill'⟩ := Process.step_of_still hstill hq
      exact ⟨q', Process.system.run_cons_eq_some.mpr ⟨q', hq', rfl⟩, Or.inr ⟨hmem, hstill'⟩⟩
  | cout w n => exact ⟨p, rfl, hfollows⟩
  | cerr w n => exact ⟨p, rfl, hfollows⟩

/-- A run is followed by a run of `Vsna.Process`. -/
lemma follows_of_run (h : system.run (system.start k) es = some c) :
    ∃ p, Process.system.run (Process.system.start k) (handled es) = some p ∧ Follows k c p :=
  (simulates k).run (Or.inl ⟨rfl, rfl, rfl⟩) h

/-- The first thread accepts a connection before the main thread has printed that this thread was
started, and the line about the thread comes in the middle of the line about the connection. -/
def earlyBird : List ConsoleEvent :=
  let socket : Socket := ⟨.ok ⟨.v4 127 0 0 1, 40000⟩, .ok ⟨.v4 127 0 0 1, 40000⟩⟩
  [.main, .cout .main 80, .main, .cout .main 80, .main, .main, .handle (.accepted (.ok socket)),
    .cout .acceptLoop 9, .cout .main 80, .cout .acceptLoop 80,
    .handle (.session 0 (.complete 0 none)), .handle (.session 0 (.arrive ⟨true, true, "hi"⟩)),
    .handle (.session 0 (.receive 0)), .handle (.session 0 (.complete 0 none)),
    .cout (.session 0) 80]

/-- The accounts of the writers after the events `fs` of the running server. -/
structure Accounts (s : Server) (pid : ℕ) (fs : List ServerEvent) (c : Console) : Prop where
  config : c.process.server.config = s.config
  main : c.cout.total .main ++ c.todo.flatMap (RunStep.text s.config) = s.cout ++ s.banner pid
  mainErr : c.cerr.total .main = s.cerr
  acceptLoop : c.cout.total .acceptLoop = (Process.results fs).flatMap Process.acceptedText
  acceptLoopErr : c.cerr.total .acceptLoop = (Process.results fs).flatMap Process.failedText
  sessions : ∀ i, c.cout.total (.session i) = c.process.coutOf (.session i) ∧
    c.cerr.total (.session i) = c.process.cerrOf (.session i)

/-- When `run` is called nothing is waiting. -/
lemma accounts_start (k : { s : Server // s.Fresh } × ℕ) :
    Accounts k.1.1 k.2 [] (system.start k) := by
  refine ⟨rfl, ?_, ?_, rfl, rfl, fun i => ?_⟩
  · simp [system, start, Automata.Shared.total, Automata.Shared.written, Server.banner]
  · simp [system, start, Automata.Shared.total, Automata.Shared.written]
  · simp [Process.coutOf, Process.cerrOf, k.1.2.sessions, system, start, Automata.Shared.total,
      Automata.Shared.written]

/-- What a step adds to an account. -/
lemma total_advance_self {w : Writer} {p : Process} {text err : Str}
    (hcout : p.coutOf w = c.process.coutOf w ++ text)
    (hcerr : p.cerrOf w = c.process.cerrOf w ++ err) :
    (c.advance w p).cout.total w = c.cout.total w ++ text ∧
      (c.advance w p).cerr.total w = c.cerr.total w ++ err := by
  simp only [advance, Automata.Shared.total_hand_self, hcout, hcerr, List.drop_left, and_self]

/-- The accounts of others are left alone. -/
lemma total_advance_of_ne {v w : Writer} (h : w ≠ v) (p : Process) :
    (c.advance v p).cout.total w = c.cout.total w ∧
      (c.advance v p).cerr.total w = c.cerr.total w :=
  ⟨Automata.Shared.total_hand_of_ne _ h _, Automata.Shared.total_hand_of_ne _ h _⟩

/-- The accounts of the sessions agree with what they have written, if a step writes for nobody but
its own writer. -/
lemma Accounts.sessions_advance {s : Server} {pid : ℕ} (h : Accounts s pid fs c) {w : Writer}
    {p : Process} {text err : Str} (hcout : p.coutOf w = c.process.coutOf w ++ text)
    (hcerr : p.cerrOf w = c.process.cerrOf w ++ err)
    (hother : ∀ i, Writer.session i ≠ w → p.coutOf (.session i) = c.process.coutOf (.session i) ∧
      p.cerrOf (.session i) = c.process.cerrOf (.session i)) (i : ℕ) :
    (c.advance w p).cout.total (.session i) = p.coutOf (.session i) ∧
      (c.advance w p).cerr.total (.session i) = p.cerrOf (.session i) := by
  obtain ⟨hs, hs'⟩ := h.sessions i
  by_cases hi : Writer.session i = w
  · subst hi
    obtain ⟨htext, herr⟩ := total_advance_self hcout hcerr
    exact ⟨by rw [htext, hs, hcout], by rw [herr, hs', hcerr]⟩
  · obtain ⟨htext, herr⟩ := total_advance_of_ne (c := c) hi p
    obtain ⟨hp, hp'⟩ := hother i hi
    exact ⟨by rw [htext, hs, hp], by rw [herr, hs', hp']⟩

/-- A step of `run()` adds its text to the account of the main thread. -/
lemma Accounts.main_step {s : Server} {pid : ℕ} (h : Accounts s pid fs c) {r : RunStep}
    {todo : List RunStep} (htodo : c.todo = r :: todo) :
    Accounts s pid fs
      { c.advance .main { c.process with server := r.exec c.process.server } with
        todo := todo } := by
  have hexec := Server.exec_eq c.process.server r
  set p : Process := { c.process with server := r.exec c.process.server } with hp
  have htext : p.coutOf .main = c.process.coutOf .main ++ r.text c.process.server.config := by
    simp [hp, Process.coutOf, hexec]
  have herr : p.cerrOf .main = c.process.cerrOf .main ++ [] := by
    simp [hp, Process.cerrOf, hexec]
  obtain ⟨hcout, hcerr⟩ := total_advance_self htext herr
  have hother := fun w (hw : w ≠ Writer.main) => total_advance_of_ne (c := c) hw p
  have hsessions : p.server.sessions = c.process.server.sessions := by simp [hp, hexec]
  refine ⟨?_, ?_, ?_, ?_, ?_, h.sessions_advance htext herr fun i _ => ?_⟩
  · change (r.exec c.process.server).config = s.config
    rw [hexec]
    exact h.config
  · change (c.advance .main _).cout.total .main ++ _ = _
    rw [hcout, h.config, ← h.main, htodo, List.flatMap_cons, List.append_assoc]
  · exact hcerr.trans (by rw [List.append_nil, h.mainErr])
  · exact (hother _ (by simp)).1.trans h.acceptLoop
  · exact (hother _ (by simp)).2.trans h.acceptLoopErr
  · simp only [Process.coutOf, Process.cerrOf, hsessions, and_self]

/-- The completion of an accept adds its text to the account of the accept loop. -/
lemma Accounts.accepted {s : Server} {pid : ℕ} (h : Accounts s pid fs c)
    {r : Except (Error UInt8) Socket} {p : Process} (hp : c.process.step (.accepted r) = some p) :
    Accounts s pid (fs ++ [.accepted r]) (c.advance .acceptLoop p) := by
  obtain ⟨hcout, hcerr⟩ := Process.output_step_accepted hp
  obtain ⟨htext, herr⟩ := total_advance_self (c := c) (w := .acceptLoop) hcout hcerr
  have hother := fun w (hw : w ≠ Writer.acceptLoop) => total_advance_of_ne (c := c) hw p
  have hresults : Process.results (fs ++ [.accepted r]) = Process.results fs ++ [r] := by
    simp [Process.results, Process.acceptResult]
  obtain ⟨-, -, hext⟩ := Process.effect_of_step hp
  refine ⟨hext.config.trans h.config, ?_, ?_, ?_, ?_,
    h.sessions_advance hcout hcerr fun i _ => Process.sessions_output_accepted hp i⟩
  · rw [(hother _ (by simp)).1]
    exact h.main
  · exact (hother _ (by simp)).2.trans h.mainErr
  · rw [htext, hresults, List.flatMap_append, h.acceptLoop, List.flatMap_singleton]
  · rw [herr, hresults, List.flatMap_append, h.acceptLoopErr, List.flatMap_singleton]

/-- A step of a session adds to its own account only. -/
lemma Accounts.session {s : Server} {pid : ℕ} (h : Accounts s pid fs c) {i : ℕ} {e : Event UInt8}
    {p : Process} (hp : c.process.step (.session i e) = some p) :
    Accounts s pid (fs ++ [.session i e]) (c.advance (.session i) p) := by
  obtain ⟨⟨text, hcout⟩, err, hcerr⟩ := Process.session_output hp
  have hother := fun w (hw : w ≠ Writer.session i) => total_advance_of_ne (c := c) hw p
  have hresults : Process.results (fs ++ [.session i e]) = Process.results fs := by
    simp [Process.results, Process.acceptResult]
  obtain ⟨-, -, hext⟩ := Process.effect_of_step hp
  refine ⟨hext.config.trans h.config, ?_, ?_, ?_, ?_,
    h.sessions_advance hcout hcerr fun j hj => Process.other_output hp hj⟩
  · rw [(hother _ (by simp)).1]
    exact h.main
  · exact (hother _ (by simp)).2.trans h.mainErr
  · rw [(hother _ (by simp)).1, hresults, h.acceptLoop]
  · rw [(hother _ (by simp)).2, hresults, h.acceptLoopErr]

/-- What is written changes no account. -/
lemma Accounts.flush {s : Server} {pid : ℕ} (h : Accounts s pid fs c)
    (hcout : ∀ w, c'.cout.total w = c.cout.total w) (hcerr : ∀ w, c'.cerr.total w = c.cerr.total w)
    (hprocess : c'.process = c.process) (htodo : c'.todo = c.todo) : Accounts s pid fs c' where
  config := hprocess ▸ h.config
  main := by rw [hcout, htodo, h.main]
  mainErr := (hcerr _).trans h.mainErr
  acceptLoop := (hcout _).trans h.acceptLoop
  acceptLoopErr := (hcerr _).trans h.acceptLoopErr
  sessions i := by rw [hcout, hcerr, hprocess]; exact h.sessions i

/-- One more event of the running server. -/
lemma handled_snoc (es : List ConsoleEvent) (e : ServerEvent) :
    handled (es ++ [.handle e]) = handled es ++ [e] := by
  simp [handled, ConsoleEvent.handled]

/-- An event that is none of the running server. -/
lemma handled_snoc_of_none {e : ConsoleEvent} (he : e.handled = none) (es : List ConsoleEvent) :
    handled (es ++ [e]) = handled es := by
  simp [handled, he]

/-- **The accounts balance**, after every run. -/
lemma accounts_of_run (h : system.run (system.start k) es = some c) :
    Accounts k.1.1 k.2 (handled es) c := by
  refine system.run_induction (P := fun es c => Accounts k.1.1 k.2 (handled es) c)
    (accounts_start k) ?_ h
  intro es c e c' hc hstep
  cases effect_of_step hstep with
  | main htodo =>
    rw [handled_snoc_of_none rfl]
    exact hc.main_step htodo
  | @handle e p hp =>
    rw [handled_snoc]
    cases e with
    | accepted r => exact hc.accepted hp
    | session i e => exact hc.session hp
  | cout w n =>
    rw [handled_snoc_of_none rfl]
    exact hc.flush (fun v => c.cout.total_flush w v n) (fun _ => rfl) rfl rfl
  | cerr w n =>
    rw [handled_snoc_of_none rfl]
    exact hc.flush (fun _ => rfl) (fun v => c.cerr.total_flush w v n) rfl rfl

/-- What has been handed to the standard streams, writer by writer, after the events `es` of a
server that was started as `s` in the process `pid`. What is on a stream already is the first part
of it; the rest is waiting. -/
structure Told (s : Server) (pid : ℕ) (es : List ConsoleEvent) (c : Console) : Prop where
  /-- The main thread writes the banner after what was there when `run` was called. -/
  main : c.cout.total .main ++ c.todo.flatMap (RunStep.text s.config) = s.cout ++ s.banner pid
  mainErr : c.cerr.total .main = s.cerr
  /-- The accept loop reports each accept. -/
  acceptLoop : c.cout.total .acceptLoop =
    (Process.results (handled es)).flatMap Process.acceptedText
  /-- It complains of each accept that has failed, unless it was aborted. -/
  acceptLoopErr : c.cerr.total .acceptLoop =
    (Process.results (handled es)).flatMap Process.failedText
  /-- A session writes one line for each of the first complete messages of its peer, in order. -/
  session : ∀ (i : ℕ) t, c.process.server.sessions[i]? = some t → c.cout.total (.session i) =
    ((assemble t.arrived).complete.take (ServerSession.reads t)).flatMap ServerSession.received
  /-- It complains at most once, of the operation that has failed. -/
  sessionErr : ∀ (i : ℕ) t, c.process.server.sessions[i]? = some t →
    failures t.log = [] ∧ c.cerr.total (.session i) = [] ∨
      ∃ f, failures t.log = [f] ∧ c.cerr.total (.session i) = (ServerSession.report f).getD []
  /-- Nobody else writes. -/
  nobody : ∀ i : ℕ, c.process.server.sessions[i]? = none →
    c.cout.total (.session i) = [] ∧ c.cerr.total (.session i) = []

/-- **The output of a server**, after every run, whatever the order of events and however the lines
mix on the two streams: what each writer has handed to them, in order, is what it alone accounts
for.

**Proof sketch.** A step adds to the account of one writer what it adds to the output of the
process, and what gets onto a stream is accounted for already. Every session is in a state it can
reach alone. -/
theorem told_of_run (h : system.run (system.start k) es = some c) : Told k.1.1 k.2 es c := by
  have haccounts := accounts_of_run h
  obtain ⟨p, hp, hfollows⟩ := follows_of_run h
  have htold : ∀ (i : ℕ) t, c.process.server.sessions[i]? = some t → ServerSession.Told t :=
    fun i t ht => ServerSession.told_of_reachable
      (Process.session_reachable (Automata.System.reachable_of_run hp) t
        (hfollows.sessions ▸ List.mem_of_getElem? ht))
  refine ⟨haccounts.main, haccounts.mainErr, haccounts.acceptLoop, haccounts.acceptLoopErr,
    fun i t ht => ?_, fun i t ht => ?_, fun i hi => ?_⟩
  · rw [(haccounts.sessions i).1, Process.coutOf, ht, Option.map_some, Option.getD_some,
      (htold i t ht).printed, List.flatMap_def]
  · have hcerr : c.cerr.total (.session i) = (complaints t.log).flatten := by
      rw [(haccounts.sessions i).2, Process.cerrOf, ht, Option.map_some, Option.getD_some]
    rcases (htold i t ht).complaints with ⟨hnone, hf⟩ | ⟨f, hf, hlines⟩
    · exact Or.inl ⟨hf, by rw [hcerr, hnone]; rfl⟩
    · refine Or.inr ⟨f, hf, ?_⟩
      rw [hcerr, hlines]
      cases ServerSession.report f <;> simp
  · rw [(haccounts.sessions i).1, (haccounts.sessions i).2, Process.coutOf, Process.cerrOf, hi]
    exact ⟨rfl, rfl⟩

/-- The output of a server with an early connection. -/
theorem told_of_run_earlyBird :
    ∃ c, system.run (system.start (Process.listener, 1)) earlyBird = some c ∧
      c.cout.text = ascii "Waiting for a TCP connection...\nServer is running on 0.0.0.0:5555\n" ++
        ascii "Accepted Thread 1 started.\n127.0.0.1:40000\nWaiting for a TCP connection...\n" ++
        ascii "Received: hi\n" ∧
      Told Process.listener.1 1 earlyBird c := by
  obtain ⟨c, hrun⟩ : ∃ c, system.run (system.start (Process.listener, 1)) earlyBird = some c :=
    ⟨_, rfl⟩
  have htext : (system.run (system.start (Process.listener, 1)) earlyBird).map (·.cout.text) =
      some (ascii "Waiting for a TCP connection...\nServer is running on 0.0.0.0:5555\n" ++
        ascii "Accepted Thread 1 started.\n127.0.0.1:40000\nWaiting for a TCP connection...\n" ++
        ascii "Received: hi\n") := by
    decide +kernel
  rw [hrun, Option.map_some] at htext
  exact ⟨c, hrun, Option.some.inj htext, told_of_run hrun⟩

end Console

end Vsna
