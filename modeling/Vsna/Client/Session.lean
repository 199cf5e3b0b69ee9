import Vsna.Common.Utils

set_option relaxedAutoImplicit false
set_option autoImplicit false

/-!
# `ClientSession`

The class `ClientSession` of `client/session.h` and `client/session.cpp`: it resolves a host,
connects, shakes hands, writes one message, reads one message, closes, and prints what it read.

## Main definitions

* `Vsna.ClientSession`, `ClientSession.run`, `onResolve`, …, `onClose` — the class.
* `Vsna.ClientSession.program` — its transition system.
* `Vsna.ClientSession.ClientInv` — the invariant of the chain of operations.
* `Vsna.ClientSession.ended` — some handler failed, or `on_close` ran.

## Main results

* `Vsna.ClientSession.clientInv_of_reachable` — the invariant holds in every reachable state.
-/

namespace Vsna

open Text Websocket

/-- The string members of a client session. -/
structure ClientMembers where
  host : Str := []
  port : Str := []
  text : Str := []
  deriving DecidableEq

/-- A `ClientSession`. -/
abbrev ClientSession := Session ClientMembers UInt8

namespace ClientSession

/-! ## The class -/

/-- `run(host, port, text)`, called with the three C strings in `args`. -/
def run (s : ClientSession) (args : ClientMembers) : ClientSession :=
  { s with members := args }.asyncResolve args.host args.port

/-- `on_resolve`. -/
def onResolve (s : ClientSession) : ErrorCode UInt8 → ClientSession
  | some e => s.fail e "resolve"
  | none => (s.setOption (.expiresAfter 30)).asyncConnect

/-- `on_connect`. -/
def onConnect (s : ClientSession) : ErrorCode UInt8 → ClientSession
  | some e => s.fail e "connect"
  | none =>
    (((s.setOption .expiresNever).setOption (.suggestedTimeout true)).setOption
      (.decorator "User-Agent" " websocket-client-async")).asyncHandshake s.members.host "/"

/-- `on_handshake`. -/
def onHandshake (s : ClientSession) : ErrorCode UInt8 → ClientSession
  | some e => s.fail e "handshake"
  | none => s.asyncWrite s.members.text

/-- `on_write`. -/
def onWrite (s : ClientSession) : ErrorCode UInt8 → ClientSession
  | some e => s.fail e "write"
  | none => s.asyncRead

/-- `on_read`. -/
def onRead (s : ClientSession) : ErrorCode UInt8 → ClientSession
  | some e => s.fail e "read"
  | none => s.asyncClose

/-- `on_close`. -/
def onClose (s : ClientSession) : ErrorCode UInt8 → ClientSession
  | some e => s.fail e "close"
  | none => s.cout (s.buffer ++ "\n")

/-- The handler that is bound to each operation the class starts. -/
def handler (s : ClientSession) : OpKind → ErrorCode UInt8 → ClientSession
  | .resolve, ec => onResolve s ec
  | .connect, ec => onConnect s ec
  | .handshake, ec => onHandshake s ec
  | .write, ec => onWrite s ec
  | .read, ec => onRead s ec
  | .close, ec => onClose s ec
  | .accept, _ => s

/-- Sessions are created, and run with the given arguments. -/
def program : Program ClientMembers ClientMembers UInt8 where
  start args := run { members := {} } args
  handler := handler

/-- The handlers leave alone what is not theirs. -/
lemma proper_program : program.Proper := by
  intro s k ec
  cases ec with
  | some e =>
    cases k with
    | accept => exact .refl s
    | _ => exact s.handled_fail e _
  | none =>
    cases k with
    | resolve => exact (s.handled_note _).trans (Session.handled_begin _ _ _)
    | connect =>
      exact ((s.handled_note _).trans (Session.handled_note _ _)).trans
        ((Session.handled_note _ _).trans (Session.handled_begin _ _ _))
    | accept => exact .refl s
    | close => exact s.handled_note _
    | _ => exact s.handled_begin _ _

/-! ## The chain of operations -/

/-- The operations of a client session, in order. -/
def stages : List OpKind := [.resolve, .connect, .handshake, .write, .read, .close]

/-- Does the entry end a session: did a handler see an error, or did `on_close` run? -/
def isEnd : Entry UInt8 → Bool
  | .finished _ (some _) => true
  | .finished .close none => true
  | _ => false

/-- Some handler failed, or `on_close` ran. -/
def ended (s : ClientSession) : Bool := s.log.any isEnd

/-- The message a client session sends. -/
def message (s : ClientSession) : Message UInt8 := ⟨true, s.members.text⟩

/-- Nothing has been written and nothing has been read. -/
structure Unused (s : ClientSession) : Prop where
  buffer : s.buffer = []
  handed : handed s.log = []
  reads : completed .read s.log = 0

/-- What the outstanding operation says about the session. -/
def Phase (s : ClientSession) : Websocket.Task UInt8 → Prop
  | .resolve => started s.log = stages.take 1 ∧ Unused s
  | .connect => started s.log = stages.take 2 ∧ Unused s
  | .handshake => started s.log = stages.take 3 ∧ Unused s
  | .write _ _ _ _ => started s.log = stages.take 4 ∧ s.buffer = [] ∧ completed .read s.log = 0
  | .read _ => started s.log = stages.take 5 ∧ completed .read s.log = 0
  | .close => started s.log = stages ∧ ∃ kind, (assemble s.taken).complete = [⟨kind, s.buffer⟩]
  | .accept => False

/-- The invariant of a client session. -/
structure ClientInv (s : ClientSession) : Prop where
  orderly : s.Orderly
  /-- The kind of messages is never changed. -/
  text : s.text = true
  started : started s.log <+: stages
  handed : handed s.log <+: [message s]
  /-- Nothing is printed before the end; then, at most what has been read. -/
  printed : printed s.log = [] ∨ s.pending = [] ∧ ∃ kind data,
    (assemble s.taken).complete = [⟨kind, data⟩] ∧ printed s.log = [data ++ "\n"]
  phase : ∀ t ∈ s.pending, Phase s t
  ended : s.pending = [] → ended s = true

variable {s s' : ClientSession}

/-- While an operation is outstanding nothing has been printed. -/
lemma ClientInv.printed_eq_nil (h : ClientInv s) (hp : s.pending ≠ []) :
    Websocket.printed s.log = [] :=
  h.printed.resolve_right fun hc => hp hc.1

/-- A session that has just been created and run. -/
lemma clientInv_start (args : ClientMembers) : ClientInv (program.start args) := by
  have h₀ : Session.Ready ({ members := args } : ClientSession) :=
    ⟨rfl, rfl, ⟨rfl, rfl, rfl⟩, rfl⟩
  have hrun : (program.start args).Busy .resolve := h₀.begin_plain rfl rfl
  refine ⟨Or.inr (Or.inr ⟨_, hrun⟩), rfl, ?_, List.nil_prefix, Or.inl rfl, fun t ht => ?_,
    fun hp => ?_⟩
  · exact ⟨stages.drop 1, rfl⟩
  · rw [hrun.pending, List.mem_singleton] at ht
    exact ht ▸ ⟨rfl, rfl, rfl, rfl⟩
  · simp [hrun.pending] at hp

/-- The arrival of a frame does not use the stream. -/
lemma Unused.arrive (h : Unused s) (f : Frame UInt8) : Unused (s.arrive f) :=
  ⟨h.buffer, h.handed, h.reads⟩

/-- The arrival of a frame changes nothing that the outstanding operation speaks of. -/
lemma Phase.arrive {t : Websocket.Task UInt8} (h : Phase s t) (f : Frame UInt8) :
    Phase (s.arrive f) t := by
  cases t with
  | resolve => exact ⟨h.1, h.2.arrive f⟩
  | connect => exact ⟨h.1, h.2.arrive f⟩
  | handshake => exact ⟨h.1, h.2.arrive f⟩
  | accept => exact h.elim
  | write src text sent fin => exact h
  | read whole => exact h
  | close => exact h

/-- The arrival of a frame keeps the invariant. -/
lemma ClientInv.arrive (h : ClientInv s) (f : Frame UInt8) : ClientInv (s.arrive f) :=
  ⟨h.orderly.arrive f, h.text, h.started, h.handed, h.printed,
    fun t ht => Phase.arrive (h.phase t ht) f, h.ended⟩

/-- A read that takes a frame keeps the invariant. -/
lemma ClientInv.take (h : ClientInv s) {f : Frame UInt8} {fs : List (Frame UInt8)}
    (hb : s.Busy (.read false)) (hb' : (s.take 0 f fs).Busy (.read f.fin)) :
    ClientInv (s.take 0 f fs) := by
  have hphase : Phase s (.read false) := h.phase _ (by simp [hb.pending])
  have hprinted := h.printed_eq_nil (by simp [hb.pending])
  refine ⟨Or.inr (Or.inr ⟨_, hb'⟩), h.text, ?_, ?_, Or.inl ?_, fun t ht => ?_, fun hp => ?_⟩
  · simpa [Entry.startedKind] using h.started
  · simpa [Entry.handed, message] using h.handed
  · simpa [Entry.printedText] using hprinted
  · rw [hb'.pending, List.mem_singleton] at ht
    subst ht
    simpa [Phase, Entry.startedKind, Entry.succeeded] using hphase
  · simp [hb'.pending] at hp

/-- A write that sends a frame keeps the invariant. -/
lemma ClientInv.send (h : ClientInv s) {src : Source UInt8} {text : Bool} {sent n : ℕ}
    {fin : Bool} (hb : s.Busy (.write src text sent false))
    (hb' : (s.send 0 src text sent n fin).Busy (.write src text (sent + n) fin)) :
    ClientInv (s.send 0 src text sent n fin) := by
  refine ⟨Or.inr (Or.inr ⟨_, hb'⟩), h.text, h.started, h.handed,
    Or.inl (h.printed_eq_nil (by simp [hb.pending])), fun t ht => ?_, fun hp => ?_⟩
  · rw [hb'.pending, List.mem_singleton] at ht
    exact ht ▸ h.phase (.write src text sent false) (by simp [hb.pending])
  · simp [hb'.pending] at hp

/-- After an error a handler may call `fail`. -/
lemma ClientInv.fail (h : ClientInv s) (hs : s.Stopped) (e : Error UInt8) (op : Str) :
    ClientInv (s.fail e op) := by
  unfold Session.fail
  split
  · exact h
  · have hended := h.ended hs.pending
    refine ⟨Or.inr (Or.inl (hs.note rfl)), h.text, ?_, ?_, ?_, ?_, fun _ => ?_⟩
    · simpa [Session.cerr, Entry.startedKind] using h.started
    · simpa [Session.cerr, Entry.handed, message] using h.handed
    · simpa [Session.cerr, Entry.printedText] using h.printed
    · simp [Session.cerr, hs.pending]
    · simpa [ClientSession.ended, Session.cerr, isEnd] using hended

/-- An operation that ends in an error keeps the invariant. -/
lemma ClientInv.error (h : ClientInv s) {t : Websocket.Task UInt8} {e : Error UInt8}
    (hb : s.Busy t) (hst : (s.retire 0 t (some e)).Stopped) :
    ClientInv (handler (s.retire 0 t (some e)) t.kind (some e)) := by
  have hprinted := h.printed_eq_nil (by simp [hb.pending])
  have hinv : ClientInv (s.retire 0 t (some e)) := by
    refine ⟨Or.inr (Or.inl hst), h.text, ?_, ?_, Or.inl ?_, by simp [hst.pending], fun _ => ?_⟩
    · simpa [Entry.startedKind] using h.started
    · simpa [Entry.handed, message] using h.handed
    · simpa [Entry.printedText] using hprinted
    · simp [ClientSession.ended, isEnd]
  cases t with
  | accept => exact hinv
  | _ => exact hinv.fail hst e _

/-- A handler has the floor after the first `n` operations have succeeded. -/
structure Floor (s : ClientSession) (n : ℕ) : Prop where
  ready : s.Ready
  text : s.text = true
  started : started s.log = stages.take n
  handed : handed s.log <+: [message s]
  printed : printed s.log = []

variable {n : ℕ}

/-- Setting a stream option keeps the floor. -/
lemma Floor.setOption (h : Floor s n) (o : StreamOption UInt8) : Floor (s.setOption o) n := by
  refine ⟨h.ready.note rfl, h.text, ?_, ?_, ?_⟩
  · simpa [Session.setOption, Entry.startedKind] using h.started
  · simpa [Session.setOption, Entry.handed, message] using h.handed
  · simpa [Session.setOption, Entry.printedText] using h.printed

/-- Setting a stream option does not use the stream. -/
lemma Unused.setOption (h : Unused s) (o : StreamOption UInt8) : Unused (s.setOption o) := by
  refine ⟨h.buffer, ?_, ?_⟩
  · simpa [Session.setOption, Entry.handed] using h.handed
  · simpa [Session.setOption, Entry.succeeded] using h.reads

/-- With the floor, a handler may start the next operation. -/
lemma Floor.begin (h : Floor s n) {op : Op UInt8} {t : Websocket.Task UInt8}
    (hbusy : (s.begin op t).Busy t) (hstage : stages.take n ++ [op.kind] = stages.take (n + 1))
    (hh : Websocket.handed (s.begin op t).log <+: [message s])
    (hphase : Websocket.started (s.begin op t).log = stages.take (n + 1) →
      Phase (s.begin op t) t) : ClientInv (s.begin op t) := by
  have hstarted : Websocket.started (s.begin op t).log = stages.take (n + 1) := by
    simp [Entry.startedKind, h.started, hstage]
  refine ⟨Or.inr (Or.inr ⟨_, hbusy⟩), h.text, ?_, hh, Or.inl ?_, fun t' ht => ?_, fun hp => ?_⟩
  · exact hstarted ▸ List.take_prefix _ _
  · simpa [Entry.printedText] using h.printed
  · rw [hbusy.pending, List.mem_singleton] at ht
    exact ht ▸ hphase hstarted
  · simp [hbusy.pending] at hp

/-- A success gives the floor to the handler. -/
lemma ClientInv.floor (h : ClientInv s) {t : Websocket.Task UInt8} (hb : s.Busy t)
    (hready : (s.retire 0 t none).Ready) (hn : Websocket.started s.log = stages.take n) :
    Floor (s.retire 0 t none) n := by
  refine ⟨hready, h.text, ?_, ?_, ?_⟩
  · simpa [Entry.startedKind] using hn
  · simpa [Entry.handed, message] using h.handed
  · simpa [Entry.printedText] using h.printed_eq_nil (by simp [hb.pending])

/-- The success of an operation other than a read does not use the stream. -/
lemma Unused.retire (h : Unused s) {t : Websocket.Task UInt8} (ht : .read ≠ t.kind) :
    Unused (s.retire 0 t none) := by
  refine ⟨h.buffer, ?_, ?_⟩
  · simpa [Entry.handed] using h.handed
  · simpa [Entry.succeeded, ht] using h.reads

/-- Starting an operation other than a write does not use the stream. -/
lemma Unused.begin (h : Unused s) {op : Op UInt8} (hop : op.kind ≠ .write)
    (t : Websocket.Task UInt8) : Unused (s.begin op t) := by
  refine ⟨h.buffer, ?_, ?_⟩
  · cases op <;> simp_all [Entry.handed, Op.kind, h.handed]
  · simpa [Entry.succeeded] using h.reads

/-- With the floor on an unused stream, a handler may start any operation but a write. -/
lemma Floor.begin_unused (h : Floor s n) (hu : Unused s) {op : Op UInt8}
    {t : Websocket.Task UInt8} (hk : op.kind = t.kind) (ht : t.isPlain = true)
    (hstage : stages.take n ++ [op.kind] = stages.take (n + 1))
    (hphase : Websocket.started (s.begin op t).log = stages.take (n + 1) ∧ Unused (s.begin op t) →
      Phase (s.begin op t) t) : ClientInv (s.begin op t) := by
  have hop : op.kind ≠ .write := by
    rw [hk]
    cases t <;> simp [Task.kind, Task.isPlain] at ht ⊢
  have hu' := hu.begin hop t
  exact h.begin (h.ready.begin_plain hk ht) hstage (hu'.handed ▸ List.nil_prefix)
    fun hst => hphase ⟨hst, hu'⟩

/-- `on_handshake`, with the floor on an unused stream. -/
lemma Floor.onHandshake (h : Floor s 3) (hu : Unused s) : ClientInv (onHandshake s none) := by
  refine h.begin (h.ready.asyncWrite s.members.text) rfl ?_ fun hst => ⟨hst, hu.buffer, ?_⟩
  · simp [Entry.handed, hu.handed, h.text, message]
  · simpa [Entry.succeeded] using hu.reads

/-- `on_write`, with the floor: the read starts on an empty buffer. -/
lemma Floor.onWrite (h : Floor s 4) (hbuf : s.buffer = []) (hreads : completed .read s.log = 0) :
    ClientInv (onWrite s none) := by
  refine h.begin (h.ready.asyncRead hbuf) rfl ?_ fun hst => ⟨hst, ?_⟩
  · simpa [Entry.handed, message] using h.handed
  · simpa [Entry.succeeded] using hreads

/-- `on_read`, with the floor: the buffer holds the one message that has been taken. -/
lemma Floor.onRead (h : Floor s 5) {kind : Bool}
    (hm : (assemble s.taken).complete = [⟨kind, s.buffer⟩]) : ClientInv (onRead s none) := by
  refine h.begin (h.ready.begin_plain rfl rfl) rfl ?_ fun hst => ⟨hst, kind, hm⟩
  simpa [Entry.handed, message] using h.handed

/-- `on_close`, with the floor: the buffer is printed, and nothing is started. -/
lemma Floor.onClose (h : Floor s 6) {kind : Bool}
    (hm : (assemble s.taken).complete = [⟨kind, s.buffer⟩])
    (hended : ended s = true) : ClientInv (onClose s none) := by
  refine ⟨Or.inl (h.ready.note rfl), h.text, ?_, ?_,
    Or.inr ⟨h.ready.pending, kind, s.buffer, hm, ?_⟩, fun t ht => ?_, fun _ => ?_⟩
  · simp [ClientSession.onClose, Session.cout, Entry.startedKind, h.started, stages]
  · simpa [ClientSession.onClose, Session.cout, Entry.handed, message] using h.handed
  · simp [ClientSession.onClose, Session.cout, Entry.printedText, h.printed]
  · simp [ClientSession.onClose, Session.cout, h.ready.pending] at ht
  · simpa [ClientSession.ended, ClientSession.onClose, Session.cout, isEnd] using hended

/-- An operation that succeeds keeps the invariant.

**Proof sketch.** Each success gives the floor to the handler, which starts the next operation.
The read starts on an empty buffer; when it succeeds, one message has been taken, and the buffer
holds it. The last handler prints the buffer and starts nothing. -/
lemma ClientInv.success (h : ClientInv s) {t : Websocket.Task UInt8} (hb : s.Busy t)
    (hready : (s.retire 0 t none).Ready)
    (hread : t.kind = .read →
      (assemble s.taken).complete.getLast? = some ⟨s.gotText, s.buffer⟩) :
    ClientInv (handler (s.retire 0 t none) t.kind none) := by
  have hphase := h.phase t (by simp [hb.pending])
  cases t with
  | accept => exact hphase.elim
  | resolve =>
    have hu := hphase.2.retire (t := .resolve) (by simp [Task.kind])
    exact ((h.floor hb hready hphase.1).setOption _).begin_unused (hu.setOption _) rfl rfl rfl id
  | connect =>
    have hu := hphase.2.retire (t := .connect) (by simp [Task.kind])
    exact ((((h.floor hb hready hphase.1).setOption _).setOption _).setOption _).begin_unused
      (((hu.setOption _).setOption _).setOption _) rfl rfl rfl id
  | handshake =>
    have hu := hphase.2.retire (t := .handshake) (by simp [Task.kind])
    exact (h.floor hb hready hphase.1).onHandshake hu
  | write src text sent fin =>
    obtain ⟨hstarted, hbuf, hreads⟩ := hphase
    refine (h.floor hb hready hstarted).onWrite hbuf ?_
    simpa [Entry.succeeded, Task.kind] using hreads
  | read whole =>
    obtain ⟨hstarted, hreads⟩ := hphase
    have hcount : (assemble s.taken).complete.length = 1 := by
      simpa [Entry.succeeded, Task.kind, hreads] using hready.reading.count
    obtain ⟨m, hm⟩ := List.length_eq_one_iff.mp hcount
    have hlast := hread rfl
    rw [hm, List.getLast?_singleton, Option.some.injEq] at hlast
    exact (h.floor hb hready hstarted).onRead (hlast ▸ hm)
  | close =>
    obtain ⟨hstarted, kind, hm⟩ := hphase
    exact (h.floor (n := 6) hb hready hstarted).onClose hm
      (by simp [ClientSession.ended, Task.kind, isEnd])

/-- The invariant follows the rule for chains of operations. -/
lemma chainRule_clientInv : program.ChainRule ClientInv where
  orderly _ h := h.orderly
  start := clientInv_start
  arrive _ f h := h.arrive f
  take _ _ _ h hb hb' := h.take hb hb'
  send _ _ _ _ _ _ h hb hb' := h.send hb hb'
  success _ _ h hb hready hread := h.success hb hready hread
  error _ _ _ h hb hst := h.error hb hst

/-- **The invariant holds in every reachable state.** -/
lemma clientInv_of_reachable (h : program.system.Reachable s) : ClientInv s :=
  chainRule_clientInv.invariant h

end ClientSession

end Vsna
