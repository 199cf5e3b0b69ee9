import Vsna.Common.Config
import Vsna.Client.Session

set_option relaxedAutoImplicit false
set_option autoImplicit false

/-!
# `Client`

The class `Client` of `client/client.h` and `client/client.cpp`, with the `io_context` it owns.
Every connection of the client is a session in this one context.

`io_context::run()` executes ready handlers until no work is outstanding, and leaves the context
stopped; on a stopped context it returns at once. What happens on the network during a call is
not up to the client. So `run` is given the events that happen, and is defined if they can happen
and leave no work behind.

## Main definitions

* `Vsna.Client`, `Client.connect`, `Client.print`, … — the class.
* `Vsna.Client.ioRun` — `io_context::run()`.
* `Vsna.Client.Sessions` — what the sessions look like after a number of `connect` calls.

## Main results

* `Vsna.Client.Sessions.connect` — what one more `connect` call makes of them.
* `Vsna.Client.Sessions.exists_connect` — the call can return.
-/

namespace Vsna

open Text Websocket Posix

/-! ## The class -/

/-- The members of the client, with what it has printed itself. -/
structure Client where
  config : Config := {}
  /-- Is `_io_context` stopped? -/
  stopped : Bool := false
  /-- The sessions created in `_io_context` so far, oldest first. -/
  sessions : List ClientSession := []
  cout : Str := []
  deriving DecidableEq

namespace Client

/-- Write to standard output. -/
def write (c : Client) (text : Str) : Client := { c with cout := c.cout ++ text }

/-- `setConfig`. -/
def setConfig (c : Client) (config : Config) : Client := { c with config := config }

/-- `print()`. -/
def print (c : Client) : Client := c.write (c.config.toString ++ "\n")

/-- `showPath(args)`. -/
def showPath (c : Client) (_args : List Str) : Client :=
  c.write ("Server path: " ++ c.config.path ++ "\n")

/-- `myPath(args)`. -/
def myPath (c : Client) (_args : List Str) : Client :=
  c.write ("Client path: " ++ c.config.path ++ "\n")

/-- `sendFiles(args)`, which does nothing. -/
def sendFiles (c : Client) (_args : List Str) : Client := c

/-- `download(args)`, which does nothing. -/
def download (c : Client) (_args : List Str) : Client := c

/-- `_io_context.run()`, during which the events `es` happen: event `(i, e)` is the event `e` of
session `i`. -/
def ioRun (c : Client) (es : List (ℕ × Event UInt8)) : Option Client :=
  if c.stopped then
    if es.isEmpty then some c else none
  else do
    let sessions ← ClientSession.program.system.pool.run c.sessions (es.map .inr)
    if sessions.all fun s => s.pending.isEmpty then
      return { c with sessions := sessions, stopped := true }
    else none

/-- The session that `connect` creates and runs. -/
def newSession (c : Client) : ClientSession :=
  let addr := c.config.addr
  ClientSession.program.start ⟨cString addr.ip, cString addr.port, "Hello, World!"⟩

/-- `connect(args)`, with the events that happen while it runs the context. -/
def connect (c : Client) (_args : List Str) (es : List (ℕ × Event UInt8)) : Option Client :=
  ioRun { c with sessions := c.sessions ++ [c.newSession] } es

/-! ## The sessions -/

/-- The sessions after `k` calls of `connect`: the first one has ended, and has left the context
stopped; the others are still where they were started. -/
inductive Sessions : ℕ → Client → Prop
  | zero {c : Client} (hstopped : c.stopped = false) (hsessions : c.sessions = []) : Sessions 0 c
  | succ {k : ℕ} {c : Client} {s : ClientSession} {rest : List ClientSession}
    (hstopped : c.stopped = true) (hsessions : c.sessions = s :: rest)
    (hended : s.pending = [] ∧ ClientSession.ended s = true) (hlength : rest.length = k)
    (hrest : ∀ r ∈ rest, r.pending ≠ []) : Sessions (k + 1) c

variable {c c' : Client} {k : ℕ}

/-- What has nothing to do with the sessions does not change them. -/
lemma Sessions.congr (h : Sessions k c) (hstopped : c'.stopped = c.stopped)
    (hsessions : c'.sessions = c.sessions) : Sessions k c' := by
  cases h with
  | zero h₁ h₂ => exact .zero (hstopped.trans h₁) (hsessions.trans h₂)
  | succ h₁ h₂ h₃ h₄ h₅ => exact .succ (hstopped.trans h₁) (hsessions.trans h₂) h₃ h₄ h₅

/-- In a pool that nothing is spawned into, the number of copies stays the same. -/
lemma length_of_run {l l' : List ClientSession} {es : List (ℕ × Event UInt8)}
    (h : ClientSession.program.system.pool.run l (es.map .inr) = some l') :
    l'.length = l.length := by
  induction es generalizing l with
  | nil =>
    obtain rfl : l = l' := by simpa using h
    rfl
  | cons e es ih =>
    obtain ⟨l₁, h₁, h₂⟩ := Automata.System.run_cons_eq_some _ |>.mp h
    simp only [Automata.System.pool, Option.bind_eq_bind, Option.bind_eq_some_iff] at h₁
    obtain ⟨s, -, s', -, hl⟩ := h₁
    rw [ih h₂, ← Option.some.inj hl, List.length_set]

/-- **One more `connect` call.** The first call runs the context until its session has ended. A
later call only adds a session to the stopped context. -/
lemma Sessions.connect (h : Sessions k c) {args : List Str} {es : List (ℕ × Event UInt8)}
    (hc : c.connect args es = some c') : Sessions (k + 1) c' := by
  unfold Client.connect ioRun at hc
  cases h with
  | zero hstopped hsessions =>
    simp only [hstopped, Bool.false_eq_true, if_false, hsessions, List.nil_append,
      Option.bind_eq_bind, Option.bind_eq_some_iff] at hc
    obtain ⟨ss, hrun, hc⟩ := hc
    split_ifs at hc with hall
    obtain rfl := Option.some.inj hc
    -- the pool holds the one session, which has been created in it
    obtain ⟨s, rfl⟩ := List.length_eq_one_iff.mp (length_of_run hrun)
    have hreach : ClientSession.program.system.pool.Reachable [c.newSession] :=
      (Automata.System.Reachable.start ()).step (e := .inl _) rfl
    have hs := Automata.System.reachable_of_mem_pool (hreach.run hrun) (List.mem_singleton_self s)
    have hp : s.pending = [] := by simpa using hall
    exact .succ rfl rfl ⟨hp, (ClientSession.clientInv_of_reachable hs).ended hp⟩ rfl (by simp)
  | @succ k _ s rest hstopped hsessions hended hlength hrest =>
    simp only [hstopped, if_true] at hc
    split_ifs at hc
    obtain rfl := Option.some.inj hc
    refine .succ rfl (by rw [hsessions, List.cons_append]) hended (by simp [hlength])
      fun r hr => ?_
    rcases List.mem_append.mp hr with hr | hr
    · exact hrest r hr
    · obtain rfl := List.mem_singleton.mp hr
      simp [newSession, ClientSession.program, ClientSession.run, Session.asyncResolve,
        Session.begin]

/-- The call can return: if the context is not stopped, for instance because the name of the
server cannot be resolved. -/
lemma Sessions.exists_connect (h : Sessions k c) (args : List Str) :
    ∃ es c', c.connect args es = some c' := by
  unfold Client.connect ioRun
  cases h with
  | zero hstopped hsessions =>
    refine ⟨[(0, .complete 0 (some ⟨.other, []⟩))], Option.isSome_iff_exists.mp ?_⟩
    simp only [hstopped, hsessions]
    rfl
  | succ hstopped => exact ⟨[], Option.isSome_iff_exists.mp (by simp only [hstopped]; rfl)⟩

/-- All sessions have ended exactly if at most one was created. -/
lemma Sessions.all_ended_iff (h : Sessions k c) :
    (c.sessions.countP ClientSession.ended = k ∧ ∀ s ∈ c.sessions, s.pending = []) ↔ k ≤ 1 := by
  cases h with
  | zero hstopped hsessions => simp [hsessions]
  | @succ k _ s rest hstopped hsessions hended hlength hrest =>
    constructor
    · rintro ⟨-, hall⟩
      have hnil : rest = [] := by
        cases rest with
        | nil => rfl
        | cons r rest => exact absurd (hall r (by simp [hsessions])) (hrest r (by simp))
      simp [← hlength, hnil]
    · intro hk
      obtain rfl : rest = [] := List.length_eq_zero_iff.mp (by omega)
      obtain rfl : k = 0 := by simpa using hlength.symm
      simp [hsessions, hended.1, hended.2]

end Client

end Vsna
