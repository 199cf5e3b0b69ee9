import Vsna.Websocket.Discipline

set_option relaxedAutoImplicit false
set_option autoImplicit false

/-!
# Orderly sessions

The invariant of a session that runs one operation at a time (`Websocket.replay`), with what is
known about the two directions of its stream. While a read is outstanding the buffer holds
exactly the part taken so far of the message being read, provided the read was started on an
empty buffer. While a write is outstanding the frames sent so far carry exactly the messages
handed to writes before, and the part sent so far of the present one.

## Main definitions

* `Websocket.Session.Ready`, `Busy`, `Stopped` — the invariant at the three places of a chain.
* `Websocket.Session.Orderly` — their disjunction.
* `Websocket.Program.ChainRule` — what to show of a property to make it an invariant.

## Main results

* `Websocket.Session.Busy.take`, `Busy.send`, `Busy.retire_success`, `Busy.retire_error` — the
  stream keeps the invariant, whatever the handlers are.
* `Websocket.Session.Ready.asyncRead`, `Ready.asyncWriteBuffer` and their siblings — what a
  handler may do with the floor.
* `Websocket.Session.Orderly.outbound_prefix` — the messages on the wire are a prefix of those
  handed to writes.
* `Websocket.Program.ChainRule.invariant` — the invariant rule for chains of operations.
-/

namespace Websocket

variable {μ β : Type*}

/-! ## The invariant -/

namespace Session

/-- No message is being read: the messages taken are those whose reads have completed. -/
structure ReadIdle (s : Session μ β) : Prop where
  current : (assemble s.taken).current = none
  fragmented : s.fragmented = false
  count : (assemble s.taken).complete.length = completed .read s.log

/-- A message is being read, and the buffer holds what has been taken of it. -/
structure ReadBusy (s : Session μ β) (whole : Bool) : Prop where
  count : (assemble s.taken).complete.length = completed .read s.log + whole.toNat
  fragmented : s.fragmented = (assemble s.taken).current.isSome
  buffer : (whole = false ∧ (assemble s.taken).current = none ∧ s.buffer = []) ∨
    (whole = false ∧ (assemble s.taken).current = some ⟨s.gotText, s.buffer⟩) ∨
    (whole = true ∧ (assemble s.taken).current = none ∧
      (assemble s.taken).complete.getLast? = some ⟨s.gotText, s.buffer⟩)

/-- No message is being written: the frames sent carry exactly the messages handed to writes. -/
def WriteIdle (s : Session μ β) : Prop := assemble s.outbound = ⟨handed s.log, none⟩

/-- A message is being written: the frames sent carry the messages handed before it, and the
part of it that has been sent. -/
structure WriteBusy (s : Session μ β) (src : Source β) (text : Bool) (sent : ℕ) (fin : Bool) :
    Prop where
  sent_le : sent ≤ (src.bytes s.buffer).length
  handed : ∃ before, handed s.log = before ++ [⟨text, src.bytes s.buffer⟩] ∧
    ((fin = true ∧ assemble s.outbound = ⟨before ++ [⟨text, src.bytes s.buffer⟩], none⟩) ∨
      (fin = false ∧ assemble s.outbound = ⟨before, none⟩ ∧ sent = 0) ∨
      (fin = false ∧
        assemble s.outbound = ⟨before, some ⟨text, (src.bytes s.buffer).take sent⟩⟩))

/-- The two directions of the stream while `t` is outstanding. -/
def Sides (s : Session μ β) : Task β → Prop
  | .read whole => s.ReadBusy whole ∧ s.WriteIdle
  | .write src text sent fin => s.ReadIdle ∧ s.WriteBusy src text sent fin
  | _ => s.ReadIdle ∧ s.WriteIdle

/-- A handler has the floor after a success. -/
structure Ready (s : Session μ β) : Prop where
  pending : s.pending = []
  log : replay s.log = some .ready
  reading : s.ReadIdle
  writing : s.WriteIdle

/-- Exactly one operation is outstanding, and it is `t`. -/
structure Busy (s : Session μ β) (t : Task β) : Prop where
  pending : s.pending = [t]
  log : replay s.log = some (.busy t.kind)
  sides : s.Sides t

/-- An error has ended the chain. -/
structure Stopped (s : Session μ β) : Prop where
  pending : s.pending = []
  log : replay s.log = some .stopped
  reading : completed .read s.log ≤ (assemble s.taken).complete.length
  writing : (assemble s.outbound).complete <+: handed s.log

/-- The invariant of a chain of operations. -/
def Orderly (s : Session μ β) : Prop := s.Ready ∨ s.Stopped ∨ ∃ t, s.Busy t

variable {s s' : Session μ β}

/-- At most one operation is outstanding. -/
lemma Orderly.pending_length_le (h : s.Orderly) : s.pending.length ≤ 1 := by
  rcases h with h | h | ⟨t, h⟩ <;> simp [h.pending]

/-- The log of an orderly session is accepted. -/
lemma Orderly.replay (h : s.Orderly) : ∃ st, replay s.log = some st := by
  rcases h with h | h | ⟨t, h⟩ <;> exact ⟨_, h.log⟩

/-- **Nothing overlaps** in an orderly session. -/
lemma Orderly.others_eq_nil (h : s.Orderly) {e : Entry β} (he : e ∈ s.log) : e.others = [] := by
  obtain ⟨st, hst⟩ := h.replay
  exact Websocket.others_eq_nil hst he

/-- **After an error** an orderly session has no operation outstanding, and has written output
only. -/
lemma Orderly.quiet_after_error (h : s.Orderly) {l₁ l₂ : List (Entry β)} {k : OpKind}
    {e : Error β} (hlog : s.log = l₁ ++ .finished k (some e) :: l₂) :
    s.pending = [] ∧ ∀ x ∈ l₂, x.isOutput = true := by
  obtain ⟨st, hst⟩ := h.replay
  obtain ⟨rfl, hquiet⟩ := Websocket.quiet_after_error (hlog ▸ hst)
  rcases h with h | h | ⟨t, h⟩
  · simp [h.log] at hst
  · exact ⟨h.pending, hquiet⟩
  · simp [h.log] at hst

/-- A session with an outstanding operation is busy with it. -/
lemma Orderly.busy (h : s.Orderly) {i : ℕ} {t : Task β} (hi : s.pending[i]? = some t) :
    i = 0 ∧ s.Busy t := by
  rcases h with h | h | ⟨t', h⟩
  · simp [h.pending] at hi
  · simp [h.pending] at hi
  · rw [h.pending] at hi
    cases i with
    | zero =>
      obtain rfl : t' = t := by simpa using hi
      exact ⟨rfl, h⟩
    | succ i => simp at hi

/-! ## What a handler may do -/

/-- With the floor, a handler may write output. -/
lemma Ready.note (h : s.Ready) {e : Entry β} (he : e.isOutput = true) : (s.note e).Ready := by
  cases e <;> simp only [Entry.isOutput, Bool.false_eq_true] at he <;>
    exact ⟨h.pending, by simp [Session.note, replay_snoc, h.log, Status.next],
      ⟨h.reading.current, h.reading.fragmented,
        by simp [Session.note, h.reading.count, Entry.succeeded]⟩,
      by simpa [Session.note, WriteIdle, Entry.handed] using h.writing⟩

/-- With the floor, a handler may set the kind of the next message. -/
lemma Ready.setText (h : s.Ready) (b : Bool) : (s.setText b).Ready :=
  ⟨h.pending, h.log, ⟨h.reading.current, h.reading.fragmented, h.reading.count⟩, h.writing⟩

/-- With the floor, a handler may consume the buffer. -/
lemma Ready.consume (h : s.Ready) (n : ℕ) : (s.consume n).Ready :=
  ⟨h.pending,
    by simp [Session.consume, outstanding, h.pending, replay_snoc, h.log, Status.next],
    ⟨h.reading.current, h.reading.fragmented,
      by simp [Session.consume, h.reading.count, Entry.succeeded]⟩,
    by simpa [Session.consume, WriteIdle, Entry.handed] using h.writing⟩

/-- After an error, a handler may still write output. -/
lemma Stopped.note (h : s.Stopped) {e : Entry β} (he : e.isOutput = true) :
    (s.note e).Stopped := by
  cases e <;> simp only [Entry.isOutput, Bool.false_eq_true] at he <;>
    exact ⟨h.pending, by simp [Session.note, replay_snoc, h.log, Status.next],
      by simpa [Session.note, Entry.succeeded] using h.reading,
      by simpa [Session.note, Entry.handed] using h.writing⟩

/-- With the floor, a handler may start one operation. -/
lemma Ready.begin (h : s.Ready) {op : Op β} {t : Task β} (hk : op.kind = t.kind)
    (hs : (s.begin op t).Sides t) : (s.begin op t).Busy t :=
  ⟨by simp [Session.begin, h.pending],
    by simp [Session.begin, outstanding, h.pending, replay_snoc, h.log, Status.next, hk], hs⟩

/-- Starting an operation other than a read or a write. -/
lemma Ready.begin_plain (h : s.Ready) {op : Op β} {t : Task β} (hk : op.kind = t.kind)
    (ht : t.isPlain = true) : (s.begin op t).Busy t := by
  have hop : ∀ m, op ≠ .write m := by
    rintro m rfl
    cases t <;> simp [Op.kind, Task.kind, Task.isPlain] at hk ht
  have hnone : (Entry.started op s.outstanding).handed = none := by
    cases op <;> first | rfl | exact absurd rfl (hop _)
  have hr : (s.begin op t).ReadIdle :=
    ⟨h.reading.current, h.reading.fragmented,
      by simp [Session.begin, h.reading.count, Entry.succeeded]⟩
  have hw : (s.begin op t).WriteIdle := by
    simpa [Session.begin, WriteIdle, hnone] using h.writing
  refine h.begin hk ?_
  cases t <;> simp only [Task.isPlain, Bool.false_eq_true] at ht <;> exact ⟨hr, hw⟩

/-- Starting a read, on an empty buffer. -/
lemma Ready.asyncRead (h : s.Ready) (hb : s.buffer = []) : s.asyncRead.Busy (.read false) := by
  refine h.begin rfl ⟨⟨?_, ?_, Or.inl ⟨rfl, h.reading.current, hb⟩⟩, ?_⟩
  · simp [Session.begin, h.reading.count, Entry.succeeded]
  · simp [Session.begin, h.reading.current, h.reading.fragmented]
  · simpa [Session.begin, WriteIdle, Entry.handed] using h.writing

/-- Starting a write. -/
lemma Ready.begin_write (h : s.Ready) (src : Source β) (text : Bool) :
    (s.begin (.write ⟨text, src.bytes s.buffer⟩) (.write src text 0 false)).Busy
      (.write src text 0 false) := by
  refine h.begin rfl ⟨⟨h.reading.current, h.reading.fragmented, ?_⟩, Nat.zero_le _, ?_⟩
  · simp [Session.begin, h.reading.count, Entry.succeeded]
  · exact ⟨handed s.log, by simp [Session.begin, Entry.handed],
      Or.inr (Or.inl ⟨rfl, h.writing, rfl⟩)⟩

/-- Starting a write of the readable bytes of the buffer. -/
lemma Ready.asyncWriteBuffer (h : s.Ready) :
    s.asyncWriteBuffer.Busy (.write (.dynamic s.buffer.length) s.text 0 false) := by
  have hw := h.begin_write (.dynamic s.buffer.length) s.text
  rwa [Source.bytes, List.take_length] at hw

/-- Starting a write of other memory. -/
lemma Ready.asyncWrite (h : s.Ready) (data : List β) :
    (s.asyncWrite data).Busy (.write (.fixed data) s.text 0 false) :=
  h.begin_write (.fixed data) s.text

/-! ## What the stream does -/

/-- The arrival of a frame changes nothing the invariant speaks of. -/
lemma Orderly.arrive (h : s.Orderly) (f : Frame β) : (s.arrive f).Orderly := by
  rcases h with h | h | ⟨t, h⟩
  · exact Or.inl ⟨h.pending, h.log, ⟨h.reading.current, h.reading.fragmented, h.reading.count⟩,
      h.writing⟩
  · exact Or.inr (Or.inl ⟨h.pending, h.log, h.reading, h.writing⟩)
  · refine Or.inr (Or.inr ⟨t, h.pending, h.log, ?_⟩)
    have hs := h.sides
    cases t with
    | read whole => exact ⟨⟨hs.1.count, hs.1.fragmented, hs.1.buffer⟩, hs.2⟩
    | write src text sent fin =>
      exact ⟨⟨hs.1.current, hs.1.fragmented, hs.1.count⟩, ⟨hs.2.sent_le, hs.2.handed⟩⟩
    | _ => exact ⟨⟨hs.1.current, hs.1.fragmented, hs.1.count⟩, hs.2⟩

/-- A read takes a frame: the buffer again holds what has been taken of the message.

**Proof sketch.** Either no frame of the message had been taken and the buffer was empty, or the
buffer held the part taken before. In both cases appending the payload gives the message
extended by the frame, which is complete exactly if the frame is final. -/
lemma Busy.take (h : s.Busy (.read false)) (f : Frame β) (fs : List (Frame β)) :
    (s.take 0 f fs).Busy (.read f.fin) := by
  obtain ⟨⟨hc, hfr, hbuf⟩, hw⟩ := h.sides
  simp only [Bool.toNat_false, Nat.add_zero] at hc
  refine ⟨by simp [Session.take, h.pending], ?_, ⟨?_, ?_, ?_⟩, ?_⟩
  · simp [Session.take, h.pending, replay_snoc, h.log, Status.next, Task.kind]
  · cases hf : f.fin <;>
      simp [Session.take, hf, assemble_snoc_fin, assemble_snoc_more, hc, Entry.succeeded]
  · cases hf : f.fin <;> simp [Session.take, hf, assemble_snoc_fin, assemble_snoc_more]
  · -- the message extended by `f` is the buffer with the payload appended
    have hm : f.extend (assemble s.taken).current =
        ⟨if s.fragmented then s.gotText else f.text, s.buffer ++ f.payload⟩ := by
      rcases hbuf with ⟨-, hn, hb⟩ | ⟨-, hn⟩ | ⟨hf, -, -⟩
      · simp [hfr, hn, hb, Frame.extend]
      · simp [hfr, hn, Frame.extend]
      · simp at hf
    cases hf : f.fin with
    | false =>
      refine Or.inr (Or.inl ⟨rfl, ?_⟩)
      simp [Session.take, assemble_snoc_more _ hf, hm]
    | true =>
      refine Or.inr (Or.inr ⟨rfl, ?_, ?_⟩) <;> simp [Session.take, assemble_snoc_fin _ hf, hm]
  · simpa [Session.take, WriteIdle, Entry.handed] using hw

/-- A write sends a frame: the frames sent again carry what has been sent of the message. -/
lemma Busy.send {src : Source β} {text : Bool} {sent : ℕ}
    (h : s.Busy (.write src text sent false)) {n : ℕ} {fin : Bool}
    (hn : sent + n ≤ (src.bytes s.buffer).length)
    (hfin : fin = true → sent + n = (src.bytes s.buffer).length) :
    (s.send 0 src text sent n fin).Busy (.write src text (sent + n) fin) := by
  obtain ⟨⟨h₁, h₂, h₃⟩, hle, before, hh, hout⟩ := h.sides
  refine ⟨by simp [Session.send, h.pending], h.log, ⟨⟨h₁, h₂, h₃⟩, hn, before, hh, ?_⟩⟩
  -- the message in progress extended by the frame is the message up to `sent + n`
  have hm : ∀ cur : Option (Message β),
      (cur = none ∧ sent = 0 ∨ cur = some ⟨text, (src.bytes s.buffer).take sent⟩) →
      Frame.extend ⟨fin, text, ((src.bytes s.buffer).drop sent).take n⟩ cur =
        ⟨text, (src.bytes s.buffer).take (sent + n)⟩ := by
    rintro cur (⟨rfl, rfl⟩ | rfl)
    · simp [Frame.extend]
    · simp [Frame.extend, List.take_add]
  obtain ⟨cur, hcur, hasm⟩ : ∃ cur : Option (Message β),
      (cur = none ∧ sent = 0 ∨ cur = some ⟨text, (src.bytes s.buffer).take sent⟩) ∧
        assemble s.outbound = ⟨before, cur⟩ := by
    rcases hout with ⟨hf, -⟩ | ⟨-, ha, h0⟩ | ⟨-, ha⟩
    · simp at hf
    · exact ⟨none, Or.inl ⟨rfl, h0⟩, ha⟩
    · exact ⟨_, Or.inr rfl, ha⟩
  cases fin with
  | true =>
    refine Or.inl ⟨rfl, ?_⟩
    have htake : (src.bytes s.buffer).take (sent + n) = src.bytes s.buffer := by
      rw [hfin rfl, List.take_length]
    simp [Session.send, assemble_snoc, Assembly.feed, hasm, hm cur hcur, htake]
  | false =>
    refine Or.inr (Or.inr ⟨rfl, ?_⟩)
    simp [Session.send, assemble_snoc, Assembly.feed, hasm, hm cur hcur]

/-- A success gives the floor to the handler. If it is a read that succeeded, the buffer holds
the message it has read. -/
lemma Busy.retire_success {t : Task β} (h : s.Busy t) (ht : t.done = true) :
    (s.retire 0 t none).Ready ∧
      (t.kind = .read → (assemble s.taken).complete.getLast? = some ⟨s.gotText, s.buffer⟩) := by
  have hp : (s.retire 0 t none).pending = [] := by simp [Session.retire, h.pending]
  have hl : replay (s.retire 0 t none).log = some .ready := by
    simp only [Session.retire, replay_snoc, h.log, Option.bind_some]
    cases t <;> simp [Task.kind, Status.next]
  have hs := h.sides
  cases t with
  | read whole =>
    obtain rfl : whole = true := ht
    obtain ⟨⟨hc, hfr, hbuf⟩, hw⟩ := hs
    rcases hbuf with ⟨hf, -⟩ | ⟨hf, -⟩ | ⟨-, hcur, hlast⟩
    · simp at hf
    · simp at hf
    · have hfr' : s.fragmented = false := by simpa [hcur] using hfr
      refine ⟨⟨hp, hl, ⟨hcur, hfr', ?_⟩, ?_⟩, fun _ => hlast⟩
      · simpa [Session.retire, Entry.succeeded, Task.kind] using hc
      · simpa [Session.retire, WriteIdle, Entry.handed] using hw
  | write src text sent fin =>
    obtain rfl : fin = true := ht
    obtain ⟨⟨hcur, hfr, hc⟩, -, before, hh, hout⟩ := hs
    refine ⟨⟨hp, hl, ⟨hcur, hfr, ?_⟩, ?_⟩, by simp [Task.kind]⟩
    · simpa [Session.retire, Entry.succeeded, Task.kind] using hc
    · rcases hout with ⟨-, ha⟩ | ⟨hf, -⟩ | ⟨hf, -⟩
      · simpa [Session.retire, WriteIdle, Entry.handed, hh] using ha
      · simp at hf
      · simp at hf
  | _ =>
    refine ⟨⟨hp, hl, ⟨hs.1.current, hs.1.fragmented, ?_⟩, ?_⟩, by simp [Task.kind]⟩
    · simpa [Session.retire, Entry.succeeded, Task.kind] using hs.1.count
    · simpa [Session.retire, WriteIdle, Entry.handed] using hs.2

/-- An error stops the chain. -/
lemma Busy.retire_error {t : Task β} (h : s.Busy t) (e : Error β) :
    (s.retire 0 t (some e)).Stopped := by
  have hp : (s.retire 0 t (some e)).pending = [] := by simp [Session.retire, h.pending]
  have hl : replay (s.retire 0 t (some e)).log = some .stopped := by
    simp only [Session.retire, replay_snoc, h.log, Option.bind_some]
    cases t <;> simp [Task.kind, Status.next]
  have hc : completed .read (s.retire 0 t (some e)).log = completed .read s.log := by
    simp [Session.retire, Entry.succeeded]
  have hh : handed (s.retire 0 t (some e)).log = handed s.log := by
    simp [Session.retire, Entry.handed]
  have hs := h.sides
  refine ⟨hp, hl, hc ▸ ?_, hh ▸ ?_⟩
  · cases t with
    | read whole => exact hs.1.count ▸ Nat.le_add_right _ _
    | write src text sent fin => exact hs.1.count.ge
    | _ => exact hs.1.count.ge
  · cases t with
    | read whole =>
      have hw : assemble s.outbound = ⟨Websocket.handed s.log, none⟩ := hs.2
      simp [Session.retire, hw]
    | write src text sent fin =>
      obtain ⟨before, hb, hout⟩ := hs.2.handed
      have hcomp : (assemble s.outbound).complete = before ++ [⟨text, src.bytes s.buffer⟩] ∨
          (assemble s.outbound).complete = before := by
        rcases hout with ⟨-, ha⟩ | ⟨-, ha, -⟩ | ⟨-, ha⟩ <;> simp [ha]
      rcases hcomp with hcomp | hcomp <;> simp [Session.retire, hcomp, hb]
    | _ =>
      have hw : assemble s.outbound = ⟨Websocket.handed s.log, none⟩ := hs.2
      simp [Session.retire, hw]

/-- The messages on the wire are a prefix of those handed to writes. -/
lemma Orderly.outbound_prefix (h : s.Orderly) :
    (assemble s.outbound).complete <+: handed s.log := by
  rcases h with h | h | ⟨t, h⟩
  · rw [show assemble s.outbound = _ from h.writing]
  · exact h.writing
  · exact (h.retire_error ⟨.other, []⟩).writing.trans
      (by simp [Session.retire, Entry.handed])

/-- As many messages have been taken as reads have completed, or one more. -/
lemma Orderly.completed_le (h : s.Orderly) :
    completed .read s.log ≤ (assemble s.taken).complete.length := by
  rcases h with h | h | ⟨t, h⟩
  · exact h.reading.count.ge
  · exact h.reading
  · simpa [Session.retire, Entry.succeeded] using (h.retire_error ⟨.other, []⟩).reading

end Session

/-! ## The invariant rule -/

namespace Program

variable {κ : Type*}

/-- The rule for invariants of a chain of operations. The property is to imply that sessions are
orderly, to hold at the start, and to be kept by an arrival, by the progress of a read or a write,
and by every handler, after a success and after an error. -/
structure ChainRule (P : Program κ μ β) (I : Session μ β → Prop) : Prop where
  orderly : ∀ s, I s → s.Orderly
  start : ∀ k, I (P.start k)
  arrive : ∀ s f, I s → I (s.arrive f)
  take : ∀ s f fs, I s → s.Busy (.read false) → (s.take 0 f fs).Busy (.read f.fin) →
    I (s.take 0 f fs)
  send : ∀ s src text sent n fin, I s → s.Busy (.write src text sent false) →
    (s.send 0 src text sent n fin).Busy (.write src text (sent + n) fin) →
    I (s.send 0 src text sent n fin)
  success : ∀ s t, I s → s.Busy t → (s.retire 0 t none).Ready →
    (t.kind = .read → (assemble s.taken).complete.getLast? = some ⟨s.gotText, s.buffer⟩) →
    I (P.handler (s.retire 0 t none) t.kind none)
  error : ∀ s t e, I s → s.Busy t → (s.retire 0 t (some e)).Stopped →
    I (P.handler (s.retire 0 t (some e)) t.kind (some e))

variable {P : Program κ μ β} {I : Session μ β → Prop} {s s' : Session μ β}

/-- What one event preserves.

**Proof sketch.** An event other than an arrival concerns the one outstanding operation. -/
lemma ChainRule.step (h : P.ChainRule I) (hs : I s) {e : Event β} (he : P.step s e = some s') :
    I s' := by
  have horderly := h.orderly s hs
  cases e with
  | arrive f =>
    obtain rfl : s.arrive f = s' := Option.some.inj he
    exact h.arrive s f hs
  | receive i =>
    obtain ⟨f, fs, hp, -, rfl⟩ := Session.receive_eq_some he
    obtain ⟨rfl, hb⟩ := horderly.busy hp
    exact h.take s f fs hs hb (hb.take f fs)
  | emit i n fin =>
    obtain ⟨src, text, sent, hp, hn, hfin, rfl⟩ := Session.emit_eq_some he
    obtain ⟨rfl, hb⟩ := horderly.busy hp
    exact h.send s src text sent n fin hs hb (hb.send hn hfin)
  | complete i ec =>
    obtain ⟨⟨k, r⟩, hfin, rfl⟩ := Option.map_eq_some_iff.mp he
    obtain ⟨t, hp, hdone, rfl, rfl⟩ := Session.finish_eq_some hfin
    obtain ⟨rfl, hb⟩ := horderly.busy hp
    cases ec with
    | none =>
      obtain ⟨hready, hread⟩ := hb.retire_success (hdone rfl)
      exact h.success s t hs hb hready hread
    | some e => exact h.error s t e hs hb (hb.retire_error e)

/-- **The invariant rule for chains of operations.** -/
theorem ChainRule.invariant (h : P.ChainRule I) (hs : P.system.Reachable s) : I s :=
  Automata.System.Reachable.invariant hs h.start fun _ _ _ hs he => h.step hs he

end Program

end Websocket
