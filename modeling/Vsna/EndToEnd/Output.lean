import Vsna.Client.Shell
import Vsna.Server.Schedule
import Vsna.Websocket.Failures

set_option relaxedAutoImplicit false
set_option autoImplicit false

/-!
# Output

What the sessions and the accept loop write to standard output and standard error. A session of the
server writes one line for each message it reads; a session of the client writes its reply, or what
went wrong, and never both. Of an operation that was aborted, `fail` says nothing.

## Main definitions

* `Vsna.ServerSession.received`, `ServerSession.report` — a line about a message, and one about
  a failure.
* `Vsna.ServerSession.Told`, `Vsna.ClientSession.Outcome` — what has been written.
* `Vsna.Process.acceptedText`, `Process.failedText` — what the server writes about an accept.
* `Vsna.Shell.shown`, `Shell.Transcript` — what the sessions of a client have shown its user.

## Main results

* `Vsna.ServerSession.told_of_reachable` — the output of a session of the server.
* `Vsna.Process.output_step_accepted` — the output of the accept loop, when an accept completes.
* `Vsna.ClientSession.outcome_of_reachable` — the output of a client session.
* `Vsna.Shell.transcript_of_reachable` — the output of all sessions of a client.
-/

namespace Websocket

variable {μ : Type} {s : Session μ UInt8}

/-- Calling `fail` adds one line, or none if the operation was aborted. -/
lemma Session.log_fail (s : Session μ UInt8) (e : Error UInt8) (op : Text.Str) :
    (s.fail e op).log = s.log ++ (Vsna.failText e op).toList.map .cerr := by
  unfold Session.fail
  cases Vsna.failText e op with
  | none => simp
  | some text => simp [Session.cerr]

/-- After an error a handler may call `fail`, and the chain of operations stays stopped. -/
lemma Session.Stopped.fail (h : s.Stopped) (e : Error UInt8) (op : Text.Str) :
    (s.fail e op).Stopped := by
  unfold Session.fail
  split
  · exact h
  · exact h.note rfl

end Websocket

namespace Vsna

open Text Websocket

/-! ## Sessions of the server -/

namespace ServerSession

/-- The line about a message that was read. -/
def received (m : Message UInt8) : Str := "Received: " ++ m.data ++ "\n"

/-- The line about an operation that has failed, if there is to be one. -/
def report : OpKind × Error UInt8 → Option Str
  | (.accept, e) => failText e "accept"
  | (.read, e) => if e.kind = .closed then none else failText e "read"
  | (.write, e) => failText e "write"
  | _ => none

/-- What a log has told: a line for each message that was handed to a write, and a line for each
failure that is to be reported. -/
structure ToldBy (log : List (Entry UInt8)) : Prop where
  printed : printed log = (handed log).map received
  complaints : complaints log = (failures log).filterMap report

variable {s : ServerSession}

/-- The completion of an operation, and what a handler reports about it. -/
lemma toldBy_fail {k : OpKind} {e : Error UInt8} {log : List (Entry UInt8)} (h : ToldBy log)
    {lines : Option Str} (hlines : report (k, e) = lines) :
    ToldBy (log ++ [.finished k (some e)] ++ lines.toList.map .cerr) := by
  cases lines with
  | none =>
    refine ⟨?_, ?_⟩
    · simpa [Entry.printedText, Entry.handed] using h.printed
    · simp [Entry.complaint, Entry.failure, h.complaints, hlines]
  | some text =>
    refine ⟨?_, ?_⟩
    · simpa [Entry.printedText, Entry.handed] using h.printed
    · simp [Entry.complaint, Entry.failure, h.complaints, hlines]

/-- Entries that neither write output nor hand a message nor fail. -/
lemma toldBy_append {log more : List (Entry UInt8)} (h : ToldBy log)
    (hp : Websocket.printed more = (Websocket.handed more).map received)
    (hc : Websocket.complaints more = [] ∧ failures more = []) : ToldBy (log ++ more) :=
  ⟨by simp [h.printed, hp], by simp [h.complaints, hc.1, hc.2]⟩

/-- Every handler tells what there is to tell. -/
lemma toldBy_handler (s : ServerSession) (i : ℕ) (t : Websocket.Task UInt8)
    (ec : ErrorCode UInt8) (h : ToldBy s.log) :
    ToldBy (handler (s.retire i t ec) t.kind ec).log := by
  cases ec with
  | some e =>
    -- nothing more is written if there is nothing to report
    have hnone : report (t.kind, e) = none → ToldBy (s.retire i t (some e)).log := fun hr => by
      simpa using toldBy_fail h hr
    cases t with
    | accept => exact (Session.log_fail _ e "accept") ▸ toldBy_fail h rfl
    | write src text sent fin => exact (Session.log_fail _ e "write") ▸ toldBy_fail h rfl
    | read whole =>
      change ToldBy (if e.kind = .closed then s.retire i _ (some e) else
        (s.retire i _ (some e)).fail e "read").log
      split_ifs with hk
      · exact hnone (by simp [report, Task.kind, hk])
      · rw [Session.log_fail]
        exact toldBy_fail h (by simp [report, Task.kind, hk])
    | _ => exact hnone rfl
  | none =>
    have hdone : ToldBy (s.retire i t none).log :=
      toldBy_append h rfl ⟨rfl, rfl⟩
    cases t with
    | accept => exact toldBy_append hdone rfl ⟨rfl, rfl⟩
    | write src text sent fin =>
      exact toldBy_append (toldBy_append hdone rfl ⟨rfl, rfl⟩) rfl ⟨rfl, rfl⟩
    | read whole =>
      have hlog : (onRead (s.retire i (.read whole) none) none).log =
          (s.retire i (.read whole) none).log ++
            [.cout ("Received: " ++ s.buffer ++ "\n"),
              .started (.write ⟨s.gotText, s.buffer⟩)
                ((s.retire i (.read whole) none).outstanding)] := by
        simp [onRead, Session.cout, Session.setText, Session.asyncWriteBuffer, Session.begin,
          Session.retire, Session.note, Session.outstanding]
      change ToldBy (onRead (s.retire i (.read whole) none) none).log
      rw [hlog]
      exact toldBy_append hdone rfl ⟨rfl, rfl⟩
    | _ => exact hdone

/-- **What a session has told**, in every reachable state. -/
lemma toldBy_of_reachable (h : program.system.Reachable s) : ToldBy s.log :=
  Program.log_rule (Q := ToldBy) (fun _ => ⟨rfl, rfl⟩)
    (fun _ _ _ hlog => toldBy_append hlog rfl ⟨rfl, rfl⟩) toldBy_handler h

/-- What a session has written. -/
structure Told (s : ServerSession) : Prop where
  /-- One line for each of the first complete messages of its peer, in order. -/
  printed : printed s.log = ((assemble s.arrived).complete.take (reads s)).map received
  /-- At most one line to standard error, about the operation that has failed. -/
  complaints : complaints s.log = [] ∧ failures s.log = [] ∨
    ∃ f, failures s.log = [f] ∧ complaints s.log = (report f).toList

/-- Every session of the server tells so. -/
lemma told_of_reachable (h : program.system.Reachable s) : Told s := by
  have htold := toldBy_of_reachable h
  have hinv := echoInv_of_reachable h
  refine ⟨?_, ?_⟩
  · obtain ⟨ms, hms⟩ : (assemble s.taken).complete <+: (assemble s.arrived).complete :=
      prefix_assemble_complete (List.prefix_append _ _)
    have hle : reads s ≤ (assemble s.taken).complete.length := hinv.orderly.completed_le
    rw [htold.printed, hinv.handed, ← hms, List.take_append_of_le_length hle]
  · obtain ⟨st, hst⟩ := hinv.orderly.replay
    have hlen := length_failures hst
    have hc := htold.complaints
    split_ifs at hlen
    · obtain ⟨f, hf⟩ := List.length_eq_one_iff.mp hlen
      refine Or.inr ⟨f, hf, ?_⟩
      rw [hc, hf]
      cases hr : report f <;> simp [hr]
    · have hf := List.length_eq_zero_iff.mp hlen
      exact Or.inl ⟨by rw [hc, hf]; rfl, hf⟩

end ServerSession

/-! ## The accept loop -/

namespace Process

/-- What the server writes to standard output when an accept completes. -/
def acceptedText : Except (Error UInt8) Socket → Str
  | .error _ => "Waiting for a TCP connection...\n"
  | .ok ⟨.error _, _⟩ => "Accepted "
  | .ok ⟨.ok ep, .error _⟩ => "Accepted " ++ ep.address.toString ++ ":"
  | .ok ⟨.ok ep₁, .ok ep₂⟩ =>
    "Accepted " ++ ep₁.address.toString ++ ":" ++ decimal ep₂.port.toNat ++ "\n" ++
      "Waiting for a TCP connection...\n"

/-- What the server writes to standard error when an accept completes. -/
def failedText : Except (Error UInt8) Socket → Str
  | .error e => (failText e "accept").getD []
  | .ok _ => []

variable {p p' : Process}

/-- What one accept writes. -/
lemma output_step_accepted {r : Except (Error UInt8) Socket}
    (h : p.step (.accepted r) = some p') :
    p'.server.cout = p.server.cout ++ acceptedText r ∧
      p'.server.cerr = p.server.cerr ++ failedText r := by
  simp only [step] at h
  split_ifs at h
  obtain rfl := Option.some.inj h
  cases r with
  | error e =>
    change (Server.doAccept (Server.fail _ e "accept")).cout = _ ∧
      (Server.doAccept (Server.fail _ e "accept")).cerr = _
    unfold Server.fail
    cases ht : failText e "accept" <;> simp [Server.doAccept, Server.print, acceptedText,
      failedText, ht]
  | ok k =>
    obtain ⟨_ | ep₁, _ | ep₂⟩ := k
    · exact ⟨rfl, (List.append_nil _).symm⟩
    · exact ⟨rfl, (List.append_nil _).symm⟩
    · refine ⟨?_, (List.append_nil _).symm⟩
      change p.server.cout ++ _ ++ _ = _
      simp only [acceptedText, List.append_assoc]
    · refine ⟨?_, (List.append_nil _).symm⟩
      change p.server.cout ++ _ ++ _ ++ _ ++ _ = _
      simp only [acceptedText, List.append_assoc]

end Process

/-! ## Sessions of the client -/

namespace ClientSession

/-- What `fail` is told about an operation of the class. -/
def opName : OpKind → Option Str
  | .resolve => some "resolve"
  | .connect => some "connect"
  | .handshake => some "handshake"
  | .write => some "write"
  | .read => some "read"
  | .close => some "close"
  | .accept => none

/-- The line about an operation that has failed, unless it was aborted. -/
def report (f : OpKind × Error UInt8) : Option Str := (opName f.1).bind (failText f.2)

/-- What the output of a client session comes to. -/
inductive Outcome (s : ClientSession) : Prop
  /-- An operation is outstanding, none has failed, and nothing has been written. -/
  | running (pending : s.pending.length = 1) (failures : failures s.log = [])
    (printed : printed s.log = []) (complaints : complaints s.log = [])
  /-- Every operation has succeeded, and the reply was printed. -/
  | replied (pending : s.pending = []) (failures : failures s.log = []) {kind : Bool} {data : Str}
    (reply : (assemble s.taken).complete = [⟨kind, data⟩])
    (printed : printed s.log = [data ++ "\n"]) (complaints : complaints s.log = [])
  /-- One operation has failed, nothing was printed, and the failure was reported. -/
  | failed (pending : s.pending = []) {k : OpKind} {e : Error UInt8} {op : Str}
    (failures : failures s.log = [(k, e)]) (name : opName k = some op)
    (kind : e.kind ≠ .operationAborted) (printed : printed s.log = [])
    (complaints : complaints s.log = [op ++ ": " ++ e.message ++ "\n"])
  /-- One operation was aborted, and nothing was shown at all. -/
  | aborted (pending : s.pending = []) {k : OpKind} {e : Error UInt8}
    (failures : failures s.log = [(k, e)]) (kind : e.kind = .operationAborted)
    (printed : printed s.log = []) (complaints : complaints s.log = [])

variable {s : ClientSession}

/-- Every failure has been reported, unless it is an abort, and nothing else. -/
def Reported (log : List (Entry UInt8)) : Prop :=
  complaints log = (failures log).filterMap report

/-- Entries that neither complain nor fail. -/
lemma Reported.append {log more : List (Entry UInt8)} (h : Reported log)
    (hc : complaints more = []) (hf : failures more = []) : Reported (log ++ more) := by
  simpa [Reported, hc, hf] using h

/-- A failure, and what `fail` writes about it. -/
lemma Reported.fail {s : ClientSession} (h : Reported s.log) (i : ℕ) (t : Websocket.Task UInt8)
    (e : Error UInt8) {op : Str} (hop : opName t.kind = some op) :
    Reported ((s.retire i t (some e)).fail e op).log := by
  have hs : complaints s.log = _ := h
  rw [Session.log_fail]
  cases hr : failText e op <;>
    simp [Reported, Session.retire, Entry.complaint, Entry.failure, hs, report, hop, hr]

/-- Every handler reports what there is to report. -/
lemma reported_handler (s : ClientSession) (i : ℕ) (t : Websocket.Task UInt8)
    (ec : ErrorCode UInt8) (h : Reported s.log) :
    Reported (handler (s.retire i t ec) t.kind ec).log := by
  cases ec with
  | none =>
    have hdone : Reported (s.retire i t none).log := h.append rfl rfl
    cases t with
    | accept => exact hdone
    | resolve => exact (hdone.append rfl rfl).append rfl rfl
    | connect =>
      exact (((hdone.append rfl rfl).append rfl rfl).append rfl rfl).append rfl rfl
    | _ => exact hdone.append rfl rfl
  | some e =>
    cases t with
    | accept =>
      have hnone : report (.accept, e) = none := rfl
      simpa [Reported, handler, Session.retire, Task.kind, Entry.complaint, Entry.failure,
        hnone] using h
    | _ => exact h.fail i _ e rfl

/-- **Every failure of a client session has been reported**, unless it is an abort, in every
reachable state. -/
lemma reported_of_reachable (h : program.system.Reachable s) : Reported s.log :=
  Program.log_rule (Q := Reported) (fun args => (rfl : complaints (program.start args).log = _))
    (fun _ _ _ hlog => hlog.append rfl rfl) reported_handler h

/-- Where the chain of operations stands, and what has been printed. -/
structure Spoken (s : ClientSession) : Prop where
  inv : ClientInv s
  ready : replay s.log = some .ready → printed s.log ≠ []
  stopped : replay s.log = some .stopped → printed s.log = []
  /-- What has failed is an operation of the class. -/
  named : ∀ f ∈ failures s.log, ∃ op, opName f.1 = some op

/-- Before the first failure none has to be named. -/
lemma failures_of_ne_stopped {st : Status} (h : replay s.log = some st) (hst : st ≠ .stopped) :
    failures s.log = [] := by
  have hlen := length_failures h
  rw [if_neg hst] at hlen
  exact List.length_eq_zero_iff.mp hlen

/-- As long as an operation is outstanding there is nothing to show. -/
lemma spoken_of_busy (h : ClientInv s) {t : Websocket.Task UInt8} (hb : s.Busy t) : Spoken s :=
  ⟨h, fun hr => by simp [hb.log] at hr, fun hr => by simp [hb.log] at hr,
    by simp [failures_of_ne_stopped hb.log]⟩

/-- A handler that leaves an operation outstanding has nothing to show. -/
lemma spoken_of_pending (h : ClientInv s) {t : Websocket.Task UInt8} (ht : t ∈ s.pending) :
    Spoken s := by
  obtain ⟨i, hi⟩ := List.mem_iff_getElem?.mp ht
  exact spoken_of_busy h (h.orderly.busy hi).2

/-- After an error nothing is printed. -/
lemma spoken_fail {t : Websocket.Task UInt8} {e : Error UInt8} (h : ClientInv s) (hb : s.Busy t)
    (hst : (s.retire 0 t (some e)).Stopped) {op : Str} (hop : opName t.kind = some op)
    (hinv : ClientInv ((s.retire 0 t (some e)).fail e op)) :
    Spoken ((s.retire 0 t (some e)).fail e op) := by
  have hprinted := h.printed_eq_nil (by simp [hb.pending])
  refine ⟨hinv, fun hr => absurd ((hst.fail e op).log.symm.trans hr) (by simp), fun _ => ?_, ?_⟩
  · rw [Session.log_fail]
    cases failText e op <;> simp [Session.retire, Entry.printedText, hprinted]
  · have hnone : failures s.log = [] := failures_of_ne_stopped hb.log (by simp)
    rw [Session.log_fail]
    cases failText e op <;> simp [Session.retire, Entry.failure, hnone, hop]

/-- **A client session has printed its reply exactly if it has come to its end without an error.**

**Proof sketch.** A handler that is called with success starts the next operation, except for the
last one, which prints. A handler that is called with an error prints nothing. -/
lemma chainRule_spoken : program.ChainRule Spoken where
  orderly _ h := h.inv.orderly
  start args := by
    have hinv := clientInv_start args
    exact spoken_of_pending hinv (t := .resolve) (by simp [program, run, Session.asyncResolve,
      Session.begin])
  arrive s f h := ⟨h.inv.arrive f, h.ready, h.stopped, h.named⟩
  take _ _ _ h hb hb' := spoken_of_busy (h.inv.take hb hb') hb'
  send _ _ _ _ _ _ h hb hb' := spoken_of_busy (h.inv.send hb hb') hb'
  success s t h hb hready hread := by
    have hinv := h.inv.success hb hready hread
    have hp : (s.retire 0 t none).pending = [] := hready.pending
    cases t with
    | accept => exact (h.inv.phase .accept (by simp [hb.pending])).elim
    | close =>
      have hlog : replay ((s.retire 0 .close none).cout _).log = some .ready :=
        (hready.note (e := .cout (s.buffer ++ "\n")) rfl).log
      refine ⟨hinv, fun _ => ?_, fun hr => absurd (hlog.symm.trans hr) (by simp), ?_⟩
      · simp [handler, program, onClose, Session.cout, Task.kind, Entry.printedText]
      · have hnone : failures (program.handler (s.retire 0 .close none) .close none).log = [] :=
          failures_of_ne_stopped hlog (by simp)
        simp [Task.kind, hnone]
    | resolve => exact spoken_of_pending hinv (List.mem_append_right _ (List.mem_singleton_self _))
    | connect => exact spoken_of_pending hinv (List.mem_append_right _ (List.mem_singleton_self _))
    | handshake =>
      exact spoken_of_pending hinv (List.mem_append_right _ (List.mem_singleton_self _))
    | write => exact spoken_of_pending hinv (List.mem_append_right _ (List.mem_singleton_self _))
    | read => exact spoken_of_pending hinv (List.mem_append_right _ (List.mem_singleton_self _))
  error s t e h hb hst := by
    have hinv := h.inv.error hb hst
    cases t with
    | accept => exact (h.inv.phase .accept (by simp [hb.pending])).elim
    | _ => exact spoken_fail h.inv hb hst rfl hinv

/-- **The output of a client session**, in every reachable state: nothing while it is running, and
once it has ended either its one reply or the one failure that ended it, and never both. Nothing is
shown of a session that was aborted.

**Proof sketch.** Its chain of operations is busy, ready or stopped. It is busy while an operation
is outstanding; without one it is ready if everything has succeeded, and then the reply was
printed, and it is stopped by exactly one failure otherwise. -/
theorem outcome_of_reachable (h : program.system.Reachable s) : Outcome s := by
  have hspoken := chainRule_spoken.invariant h
  have hinv := hspoken.inv
  have hreported := reported_of_reachable h
  unfold Reported at hreported
  rcases hinv.orderly with hs | hs | ⟨t, hs⟩
  · have hf : failures s.log = [] := failures_of_ne_stopped hs.log (by simp)
    rcases hinv.printed with hnil | ⟨hp, kind, data, hreply, hprinted⟩
    · exact absurd hnil (hspoken.ready hs.log)
    · exact .replied hp hf hreply hprinted (by rw [hreported, hf]; rfl)
  · obtain ⟨⟨k, e⟩, hf⟩ := List.length_eq_one_iff.mp (length_failures hs.log)
    obtain ⟨op, hop⟩ := hspoken.named (k, e) (by simp [hf])
    have hprinted := hspoken.stopped hs.log
    by_cases hkind : e.kind = .operationAborted
    · exact .aborted hs.pending hf hkind hprinted
        (by simp [hreported, hf, report, hop, failText, hkind])
    · exact .failed hs.pending hf hop hkind hprinted
        (by simp [hreported, hf, report, hop, failText, hkind])
  · have hf : failures s.log = [] := failures_of_ne_stopped hs.log (by simp)
    exact .running (by simp [hs.pending]) hf (hinv.printed_eq_nil (by simp [hs.pending]))
      (by rw [hreported, hf]; rfl)

end ClientSession

/-! ## The client -/

namespace Shell

variable {p q : Prompt} {s : Shell}

/-- What the sessions of a client have shown: what they have printed, and what they have complained
of. -/
def shown (s : Shell) : List Str :=
  s.prompt.client.sessions.flatMap fun t => printed t.log ++ complaints t.log

/-- What the sessions of a client come to. -/
structure Transcript (s : Shell) : Prop where
  /-- Every session has shown its reply or its failure if it has ended, unless it was aborted, and
  never both. -/
  outcome : ∀ t ∈ s.prompt.client.sessions, ClientSession.Outcome t
  /-- No matter how many sessions there are, the user has been shown one text at most. -/
  once : (shown s).length ≤ 1
  /-- At the prompt the first session has ended. -/
  settled : s.running = false → ∀ t ∈ s.prompt.client.sessions.head?, t.pending = []

/-- All sessions but the first are where they were started. -/
def Stuck (l : List ClientSession) : Prop := ∀ t ∈ l.tail, t.pending ≠ []

/-- The sessions after some calls of `connect`. -/
lemma stuck_of_sessions {k : ℕ} {c : Client} (h : Client.Sessions k c) :
    Stuck c.sessions ∧ ∀ t ∈ c.sessions.head?, t.pending = [] := by
  cases h with
  | zero _ hs => simp [Stuck, hs]
  | succ _ hs hended _ hrest =>
    exact ⟨by simpa [Stuck, hs] using hrest, by simpa [hs] using hended.1⟩

/-- An iteration runs the context for one session only. -/
lemma length_of_line {k : ℕ} (h : Client.Sessions k p.client) (hq : line p = some ⟨q, true⟩) :
    q.client.sessions.length = 1 := by
  unfold line at hq
  split_ifs at hq
  simp only [] at hq
  split at hq
  · simp at hq
  · split at hq
    · simp at hq
    · split_ifs at hq
      · simp only [Option.some.injEq, Shell.mk.injEq, Bool.not_eq_true'] at hq
        obtain ⟨rfl, hstopped⟩ := hq
        cases h with
        | zero _ hs => simp [Client.spawn, Client.write, hs]
        | succ hs => exact absurd (hs.symm.trans hstopped) (by decide)
      · simp [Option.map_eq_some_iff] at hq

/-- In every state that can be reached all sessions but the first are stuck, and at the prompt the
first has ended.

**Proof sketch.** The context is run once, for the first session, until nothing is outstanding; it
is stopped from then on. -/
lemma stuck_of_reachable (h : system.Reachable s) : Stuck s.prompt.client.sessions ∧
    (s.running = false → ∀ t ∈ s.prompt.client.sessions.head?, t.pending = []) := by
  obtain ⟨k, hunder⟩ : ∃ k, Underway k s :=
    h.invariant (P := fun s => ∃ k, Underway k s)
      (fun k => ⟨k, .rest (Prompt.system.run_nil _)⟩) fun _ _ _ ⟨k, hs⟩ he => ⟨k, hs.step he⟩
  cases hunder with
  | @rest ess p hrun =>
    have hsessions := Prompt.sessions_of_reachable (Automata.System.reachable_of_run hrun)
    obtain ⟨hstuck, hended⟩ := stuck_of_sessions hsessions
    exact ⟨hstuck, fun _ => hended⟩
  | @busy ess p q es l hrun _ hline hio =>
    have hsessions := Prompt.sessions_of_reachable (Automata.System.reachable_of_run hrun)
    have hlen : l.length = 1 := (Client.length_of_run hio).trans (length_of_line hsessions hline)
    obtain ⟨t, rfl⟩ := List.length_eq_one_iff.mp hlen
    exact ⟨by simp [Stuck, withSessions], fun hr => by simp at hr⟩

/-- A session that is not at its end has shown nothing. -/
lemma shown_eq_nil {t : ClientSession} (h : ClientSession.Outcome t) (hp : t.pending ≠ []) :
    printed t.log ++ complaints t.log = [] := by
  cases h with
  | running _ _ hprinted hcomplaints => rw [hprinted, hcomplaints, List.append_nil]
  | replied hpending => exact absurd hpending hp
  | failed hpending => exact absurd hpending hp
  | aborted hpending => exact absurd hpending hp

/-- One session shows one text at most. -/
lemma length_shown_le {t : ClientSession} (h : ClientSession.Outcome t) :
    (printed t.log ++ complaints t.log).length ≤ 1 := by
  cases h with
  | running _ _ hprinted hcomplaints => simp [hprinted, hcomplaints]
  | replied _ _ _ hprinted hcomplaints => simp [hprinted, hcomplaints]
  | failed _ _ _ _ hprinted hcomplaints => simp [hprinted, hcomplaints]
  | aborted _ _ _ hprinted hcomplaints => simp [hprinted, hcomplaints]

/-- **What a client shows its user**, in every state that it can reach, whatever the user types and
whatever servers send: its sessions have shown one text at most, a reply or a complaint, however
many `connect` commands there were.

**Proof sketch.** A session shows at most one text, and none before its end. Only the first session
of a client comes to its end. -/
theorem transcript_of_reachable (h : system.Reachable s) : Transcript s := by
  obtain ⟨hstuck, hsettled⟩ := stuck_of_reachable h
  have houtcome : ∀ t ∈ s.prompt.client.sessions, ClientSession.Outcome t := fun t ht =>
    ClientSession.outcome_of_reachable (session_reachable h t ht)
  refine ⟨houtcome, ?_, hsettled⟩
  unfold shown
  cases hl : s.prompt.client.sessions with
  | nil => simp
  | cons t rest =>
    rw [hl] at hstuck houtcome
    have hrest : (rest.flatMap fun t => printed t.log ++ complaints t.log) = [] :=
      List.flatMap_eq_nil_iff.mpr fun r hr =>
        shown_eq_nil (houtcome r (List.mem_cons_of_mem _ hr)) (hstuck r hr)
    rw [List.flatMap_cons, hrest, List.append_nil]
    exact length_shown_le (houtcome t List.mem_cons_self)

/-- A client that is refused the connection, and is then asked to connect again. -/
theorem transcript_refused :
    ∃ s, system.run (system.start (Prompt.idle, "connect\nconnect\n"))
        [.line, .io 0 (.complete 0 none),
          .io 0 (.complete 0 (some ⟨.other, "Connection refused"⟩)), .ret, .line] = some s ∧
      s.prompt.client.sessions.length = 2 ∧ shown s = ["connect: Connection refused\n"] ∧
      Transcript s := by
  obtain ⟨s, hrun, hlen, hshown⟩ :
      ∃ s, system.run (system.start (Prompt.idle, "connect\nconnect\n"))
        [.line, .io 0 (.complete 0 none),
          .io 0 (.complete 0 (some ⟨.other, "Connection refused"⟩)), .ret, .line] = some s ∧
      s.prompt.client.sessions.length = 2 ∧ shown s = ["connect: Connection refused\n"] :=
    ⟨_, rfl, rfl, rfl⟩
  exact ⟨s, hrun, hlen, hshown, transcript_of_reachable (Automata.System.reachable_of_run hrun)⟩

end Shell

end Vsna
