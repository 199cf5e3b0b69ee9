import Vsna.Client.Session

set_option relaxedAutoImplicit false
set_option autoImplicit false

/-!
# The replies of client sessions

A client session stores the reply it has read in its buffer, starts the closing handshake, and
prints the buffer when this has succeeded. If the closing handshake fails, `on_close` returns
before it prints. So a session has read either no reply, or one reply that it prints, or one
reply that is lost.

## Main definitions

* `Vsna.ClientSession.received` — the replies that `on_read` was called for without an error.
* `Vsna.ClientSession.Fate` — what became of the reply when the session ended.
* `Vsna.ClientSession.CloseSucceeds` — an event that is not the failure of a closing handshake.

## Main results

* `Vsna.ClientSession.fateInv_of_reachable` — every session that has ended has a fate.
* `Vsna.ClientSession.sum_received` — replies read are replies printed or replies lost.
* `Vsna.ClientSession.repliesPrinted_iff` — the runs in which no reply is lost.
-/

namespace Vsna

open Text Websocket

namespace ClientSession

/-! ## Definitions -/

/-- The replies that `on_read` was called for without an error: the messages taken by the reads
that have succeeded. -/
def received (s : ClientSession) : List Str :=
  ((assemble s.taken).complete.take (completed .read s.log)).map Message.data

/-- Is this the failure of the closing handshake? -/
def isCloseFailure : Entry UInt8 → Bool
  | .finished .close (some _) => true
  | _ => false

/-- `on_close` was called with an error. -/
def closeFailed (s : ClientSession) : Bool := s.log.any isCloseFailure

/-- What became of the reply of a session that has ended. -/
inductive Fate (s : ClientSession) : Prop
  /-- There was none. -/
  | unread (hread : completed .read s.log = 0) (hprinted : printed s.log = [])
    (hclose : closeFailed s = false)
  /-- It was printed. -/
  | printed (m : Message UInt8) (hread : completed .read s.log = 1)
    (htaken : (assemble s.taken).complete = [m]) (hprinted : printed s.log = [m.data ++ "\n"])
    (hclose : closeFailed s = false)
  /-- It was lost. -/
  | lost (m : Message UInt8) (hread : completed .read s.log = 1)
    (htaken : (assemble s.taken).complete = [m]) (hprinted : printed s.log = [])
    (hclose : closeFailed s = true)

variable {s s' : ClientSession}

/-- The replies read and printed by a session that has ended. -/
lemma Fate.received_eq (h : Fate s) :
    (closeFailed s = false ∧ Websocket.printed s.log = (received s).map (· ++ ascii "\n")) ∨
      (closeFailed s = true ∧ Websocket.printed s.log = [] ∧ (received s).length = 1) := by
  cases h with
  | unread hread hprinted hclose => exact Or.inl ⟨hclose, by simp [received, hread, hprinted]⟩
  | printed m hread htaken hprinted hclose =>
    exact Or.inl ⟨hclose, by simp [received, hread, htaken, hprinted]⟩
  | lost m hread htaken hprinted hclose =>
    exact Or.inr ⟨hclose, hprinted, by simp [received, hread, htaken]⟩

/-- A session that has ended has printed what it has read exactly if its closing handshake has not
failed. -/
lemma Fate.printed_iff (h : Fate s) :
    Websocket.printed s.log = (received s).map (· ++ ascii "\n") ↔ closeFailed s = false := by
  rcases h.received_eq with ⟨hclose, heq⟩ | ⟨hclose, hnil, hone⟩
  · exact iff_of_true heq hclose
  · refine iff_of_false (fun heq => ?_) (by simp [hclose])
    have hlen := congrArg List.length heq
    simp [hnil, hone] at hlen

/-- Every reply that was read is printed, or lost to a closing handshake that has failed. -/
lemma Fate.length_received (h : Fate s) :
    (received s).length = (Websocket.printed s.log).length + (closeFailed s).toNat := by
  rcases h.received_eq with ⟨hclose, heq⟩ | ⟨hclose, hnil, hone⟩
  · simp [hclose, heq]
  · simp [hclose, hnil, hone]

/-! ## The invariant -/

/-- The handlers complete no operation: what has failed shows before they run. -/
lemma closeFailed_handler (s : ClientSession) (k : OpKind) (ec : ErrorCode UInt8) :
    closeFailed (handler s k ec) = closeFailed s := by
  have hfail : ∀ (e : Error UInt8) (op : Str), closeFailed (s.fail e op) = closeFailed s := by
    intro e op
    unfold Session.fail
    split
    · rfl
    · simp [closeFailed, Session.cerr, isCloseFailure]
  cases ec with
  | some e =>
    cases k with
    | accept => rfl
    | _ => exact hfail e _
  | none =>
    cases k <;> simp [closeFailed, handler, onResolve, onConnect, onHandshake, onWrite, onRead,
      onClose, Session.setOption, Session.cout, Session.asyncConnect, Session.asyncHandshake,
      Session.asyncWrite, Session.asyncRead, Session.asyncClose, isCloseFailure]

/-- The completion of an operation shows at once if it is the failure of the closing handshake. -/
lemma closeFailed_retire (s : ClientSession) (i : ℕ) (t : Websocket.Task UInt8)
    (ec : ErrorCode UInt8) :
    closeFailed (s.retire i t ec) = (closeFailed s || isCloseFailure (.finished t.kind ec)) := by
  simp [closeFailed]

/-- The invariant of a client session, with what became of the reply. -/
structure FateInv (s : ClientSession) : Prop where
  client : ClientInv s
  closing : s.pending ≠ [] → closeFailed s = false
  fate : s.pending = [] → Fate s

/-- A session that has just been created and run. -/
lemma fateInv_start (args : ClientMembers) : FateInv (program.start args) :=
  ⟨clientInv_start args, fun _ => rfl, fun h => by simp [program, run, Session.asyncResolve,
    Session.begin] at h⟩

/-- What neither reads, prints nor completes an operation has no part in the fate of a session. -/
lemma Fate.congr (h : Fate s) (hread : completed .read s'.log = completed .read s.log)
    (htaken : s'.taken = s.taken)
    (hprinted : Websocket.printed s'.log = Websocket.printed s.log)
    (hclose : closeFailed s' = closeFailed s) : Fate s' := by
  cases h with
  | unread h₁ h₂ h₃ => exact .unread (hread.trans h₁) (hprinted.trans h₂) (hclose.trans h₃)
  | printed m h₁ hm h₂ h₃ =>
    exact .printed m (hread.trans h₁) (htaken ▸ hm) (hprinted.trans h₂) (hclose.trans h₃)
  | lost m h₁ hm h₂ h₃ =>
    exact .lost m (hread.trans h₁) (htaken ▸ hm) (hprinted.trans h₂) (hclose.trans h₃)

/-- Before the closing handshake no read has completed, and then one has. -/
lemma ClientInv.completed_read (h : ClientInv s) {t : Websocket.Task UInt8} (hb : s.Busy t) :
    (t.kind ≠ .close ∧ completed .read s.log = 0) ∨
      t = .close ∧ completed .read s.log = 1 ∧
        ∃ kind, (assemble s.taken).complete = [⟨kind, s.buffer⟩] := by
  have hphase := h.phase t (by simp [hb.pending])
  cases t with
  | accept => exact hphase.elim
  | resolve => exact Or.inl ⟨by simp [Task.kind], hphase.2.reads⟩
  | connect => exact Or.inl ⟨by simp [Task.kind], hphase.2.reads⟩
  | handshake => exact Or.inl ⟨by simp [Task.kind], hphase.2.reads⟩
  | write src text sent fin => exact Or.inl ⟨by simp [Task.kind], hphase.2.2⟩
  | read whole => exact Or.inl ⟨by simp [Task.kind], hphase.2⟩
  | close =>
    obtain ⟨-, kind, hm⟩ := hphase
    have hcount := hb.sides.1.count
    exact Or.inr ⟨rfl, by simpa [hm] using hcount.symm, kind, hm⟩

/-- After an error `fail` is called, which neither reads nor prints. -/
lemma Fate.fail (h : Fate s) (e : Error UInt8) (op : Str) : Fate (s.fail e op) := by
  unfold Session.fail
  split
  · exact h
  · refine h.congr ?_ rfl ?_ ?_
    · simp [Session.cerr, Entry.succeeded]
    · simp [Session.cerr, Entry.printedText]
    · simp [closeFailed, Session.cerr, isCloseFailure]

/-- An operation that ends in an error ends the session: with the reply lost if it is the closing
handshake, and else before a reply was read. -/
lemma FateInv.error (h : FateInv s) {t : Websocket.Task UInt8} {e : Error UInt8} (hb : s.Busy t)
    (hst : (s.retire 0 t (some e)).Stopped) :
    FateInv (handler (s.retire 0 t (some e)) t.kind (some e)) := by
  have hpending : s.pending ≠ [] := by simp [hb.pending]
  have hprinted : Websocket.printed (s.retire 0 t (some e)).log = [] := by
    simpa [Entry.printedText] using h.client.printed_eq_nil hpending
  have hclose := closeFailed_retire s 0 t (some e)
  rw [h.closing hpending, Bool.false_or] at hclose
  have hfate : Fate (s.retire 0 t (some e)) := by
    rcases h.client.completed_read hb with ⟨hk, hread⟩ | ⟨rfl, hread, kind, hm⟩
    · refine .unread (by simpa [Entry.succeeded] using hread) hprinted ?_
      rw [hclose]
      cases t <;> simp [Task.kind, isCloseFailure] at hk ⊢
    · exact .lost ⟨kind, s.buffer⟩ (by simpa [Entry.succeeded] using hread) hm hprinted hclose
  have hclient := h.client.error hb hst
  cases t with
  | accept => exact ⟨hclient, fun hp => absurd hst.pending hp, fun _ => hfate⟩
  | _ =>
    have hp : ∀ op, ((s.retire 0 _ (some e)).fail e op).pending = [] := fun op => by
      unfold Session.fail
      split
      · exact hst.pending
      · exact hst.pending
    exact ⟨hclient, fun hne => absurd (hp _) hne, fun _ => hfate.fail e _⟩

/-- An operation that succeeds leads to the next one. The last one prints the reply. -/
lemma FateInv.success (h : FateInv s) {t : Websocket.Task UInt8} (hb : s.Busy t)
    (hready : (s.retire 0 t none).Ready)
    (hread : t.kind = .read →
      (assemble s.taken).complete.getLast? = some ⟨s.gotText, s.buffer⟩) :
    FateInv (handler (s.retire 0 t none) t.kind none) := by
  have hpending : s.pending ≠ [] := by simp [hb.pending]
  have hclose : closeFailed (handler (s.retire 0 t none) t.kind none) = false := by
    rw [closeFailed_handler, closeFailed_retire, h.closing hpending]
    cases t <;> rfl
  refine ⟨h.client.success hb hready hread, fun _ => hclose, fun hp => ?_⟩
  rcases h.client.completed_read hb with ⟨hk, -⟩ | ⟨rfl, hcount, kind, hm⟩
  · -- another operation has been started
    cases t with
    | close => exact absurd rfl hk
    | accept => exact (h.client.phase .accept (by simp [hb.pending])).elim
    | _ => simp [handler, onResolve, onConnect, onHandshake, onWrite, onRead, Task.kind,
        Session.setOption, Session.asyncConnect, Session.asyncHandshake, Session.asyncWrite,
        Session.asyncRead, Session.asyncClose, Session.begin] at hp
  · have hprinted := h.client.printed_eq_nil hpending
    refine .printed ⟨kind, s.buffer⟩ ?_ hm ?_ hclose
    · simpa [handler, onClose, Session.cout, Task.kind, Entry.succeeded] using hcount
    · simp [handler, onClose, Session.cout, Task.kind, Entry.printedText, hprinted,
        Session.retire]

/-- The invariant follows the rule for chains of operations. -/
lemma chainRule_fateInv : program.ChainRule FateInv where
  orderly _ h := h.client.orderly
  start := fateInv_start
  arrive _ f h := ⟨h.client.arrive f, h.closing, fun hp => (h.fate hp).congr rfl rfl rfl rfl⟩
  take s f fs h hb hb' :=
    ⟨h.client.take hb hb', fun _ => by
      simpa [closeFailed, isCloseFailure] using h.closing (by simp [hb.pending]),
      fun hp => by simp [hb'.pending] at hp⟩
  send s src text sent n fin h hb hb' :=
    ⟨h.client.send hb hb', fun _ => h.closing (by simp [hb.pending]),
      fun hp => by simp [hb'.pending] at hp⟩
  success _ _ h hb hready hread := h.success hb hready hread
  error _ _ _ h hb hst := h.error hb hst

/-- **Every session that has ended has a fate.** -/
lemma fateInv_of_reachable (h : program.system.Reachable s) : FateInv s :=
  chainRule_fateInv.invariant h

/-! ## Any number of sessions -/

/-- The event is not the failure of a closing handshake. -/
def CloseSucceeds (l : List ClientSession) : ClientMembers ⊕ ℕ × Event UInt8 → Prop
  | .inr (i, .complete j (some _)) => ∀ s, l[i]? = some s → s.pending[j]? ≠ some .close
  | _ => True

/-- Every session that has ended has printed what it has read, each reply once. -/
def RepliesPrinted (l : List ClientSession) : Prop :=
  ∀ s ∈ l, s.pending = [] → printed s.log = (received s).map (· ++ ascii "\n")

/-- As many replies have been printed as have been read. -/
def CountsAgree (l : List ClientSession) : Prop :=
  (l.map fun s => (printed s.log).length).sum = (l.map fun s => (received s).length).sum

/-- A step of one session brings in a failed closing handshake exactly if it is one. -/
lemma closeFailed_step {e : Event UInt8} (h : program.step s e = some s') :
    closeFailed s' = true ↔ closeFailed s = true ∨
      ∃ j x, e = .complete j (some x) ∧ s.pending[j]? = some .close := by
  cases e with
  | arrive f =>
    obtain rfl : s.arrive f = s' := Option.some.inj h
    simp [closeFailed, Session.arrive]
  | receive i =>
    obtain ⟨f, fs, -, -, rfl⟩ := Session.receive_eq_some h
    simp [closeFailed, isCloseFailure]
  | emit i n fin =>
    obtain ⟨src, text, sent, -, -, -, rfl⟩ := Session.emit_eq_some h
    simp [closeFailed, Session.send]
  | complete i ec =>
    obtain ⟨⟨k, r⟩, hfin, rfl⟩ := Option.map_eq_some_iff.mp h
    obtain ⟨t, hp, -, rfl, rfl⟩ := Session.finish_eq_some hfin
    change closeFailed (handler _ _ _) = true ↔ _
    rw [closeFailed_handler, closeFailed_retire, Bool.or_eq_true]
    refine or_congr_right ?_
    constructor
    · intro hfail
      cases t <;> cases ec <;> simp [Task.kind, isCloseFailure] at hfail
      exact ⟨i, _, rfl, hp⟩
    · rintro ⟨j, x, he, hj⟩
      obtain ⟨rfl, rfl⟩ := Event.complete.inj he
      obtain rfl : t = .close := Option.some.inj (hp.symm.trans hj)
      rfl

/-- A step of the pool brings in a failed closing handshake exactly if it is one. -/
lemma closeFailed_poolStep {l l' : List ClientSession} {e : ClientMembers ⊕ ℕ × Event UInt8}
    (h : program.system.pool.step l e = some l') :
    (∃ s ∈ l', closeFailed s = true) ↔ (∃ s ∈ l, closeFailed s = true) ∨ ¬ CloseSucceeds l e := by
  rcases e with args | ⟨i, e⟩
  · obtain rfl : l ++ [program.start args] = l' := Option.some.inj h
    have hstart : closeFailed (program.start args) = false := rfl
    simp [CloseSucceeds, or_and_right, exists_or, hstart]
  · simp only [Automata.System.pool, Option.bind_eq_bind, Option.bind_eq_some_iff] at h
    obtain ⟨s, hi, s', he, hl'⟩ := h
    obtain rfl : l.set i s' = l' := Option.some.inj hl'
    have hstep := closeFailed_step he
    have hclose : ¬ CloseSucceeds l (.inr (i, e)) ↔
        ∃ j x, e = .complete j (some x) ∧ s.pending[j]? = some .close := by
      cases e with
      | complete j ec =>
        cases ec with
        | none => simp [CloseSucceeds]
        | some x => simp [CloseSucceeds, hi]
      | _ => simp [CloseSucceeds]
    rw [hclose]
    constructor
    · rintro ⟨r, hr, hfailed⟩
      rcases List.mem_or_eq_of_mem_set hr with hr | rfl
      · exact Or.inl ⟨r, hr, hfailed⟩
      · exact (hstep.mp hfailed).imp_left fun hs => ⟨s, List.mem_of_getElem? hi, hs⟩
    · have hlt : i < l.length := (List.getElem?_eq_some_iff.mp hi).1
      have hmem : s' ∈ l.set i s' := List.mem_set hlt s'
      rintro (⟨r, hr, hfailed⟩ | hfails)
      · obtain ⟨j, hj⟩ := List.getElem?_of_mem hr
        by_cases hij : i = j
        · -- the session that fails is the one that acts
          subst hij
          obtain rfl : s = r := Option.some.inj (hi.symm.trans hj)
          exact ⟨s', hmem, hstep.mpr (Or.inl hfailed)⟩
        · refine ⟨r, List.mem_of_getElem? (i := j) ?_, hfailed⟩
          rw [List.getElem?_set_ne hij, hj]
      · exact ⟨s', hmem, hstep.mpr (Or.inr hfails)⟩

/-- **Replies read are replies printed or replies lost**, over sessions that have ended. -/
lemma sum_received {l : List ClientSession} (h : ∀ s ∈ l, Fate s) :
    (l.map fun s => (received s).length).sum =
      (l.map fun s => (printed s.log).length).sum + l.countP closeFailed := by
  induction l with
  | nil => rfl
  | cons s l ih =>
    have hs := (h s (by simp)).length_received
    have hl := ih fun r hr => h r (by simp [hr])
    rw [List.map_cons, List.map_cons, List.sum_cons, List.sum_cons, List.countP_cons, hl, hs]
    cases closeFailed s <;> simp <;> omega

/-- **The runs in which no reply is lost**: those in which no closing handshake fails. In them
every session that has ended has printed what it has read; and when all sessions have ended, as
many replies have been printed as have been read. In no other run either is so.

**Proof sketch.** A session whose closing handshake has failed has ended, with one reply read and
nothing printed. -/
theorem repliesPrinted_iff {l : List ClientSession}
    {es : List (ClientMembers ⊕ ℕ × Event UInt8)}
    (h : program.system.pool.run (program.system.pool.start ()) es = some l) :
    (RepliesPrinted l ↔
        program.system.pool.AllSteps CloseSucceeds (program.system.pool.start ()) es) ∧
      ((∀ s ∈ l, s.pending = []) → (CountsAgree l ↔
        program.system.pool.AllSteps CloseSucceeds (program.system.pool.start ()) es)) := by
  have hinv : ∀ s ∈ l, FateInv s := fun s hs => fateInv_of_reachable
    (Automata.System.reachable_of_mem_pool (Automata.System.reachable_of_run h) hs)
  rw [← Automata.System.not_run_iff_allSteps _ (fun _ _ _ => closeFailed_poolStep)
    (by simp [Automata.System.pool]) h]
  constructor
  · constructor
    · rintro hprinted ⟨s, hs, hfailed⟩
      have hpending : s.pending = [] := by
        by_contra hp
        simp [(hinv s hs).closing hp] at hfailed
      have hclose := ((hinv s hs).fate hpending).printed_iff.mp (hprinted s hs hpending)
      simp [hclose] at hfailed
    · intro hnone s hs hp
      refine ((hinv s hs).fate hp).printed_iff.mpr ?_
      simpa using fun hfailed => hnone ⟨s, hs, hfailed⟩
  · intro hended
    have hsum := sum_received fun s hs => (hinv s hs).fate (hended s hs)
    rw [CountsAgree, hsum, left_eq_add, List.countP_eq_zero]
    simp

/-- One session sends `hi` and reads the reply `hi`; its closing handshake completes with `ec`. -/
def exchange (ec : ErrorCode UInt8) : List (ClientMembers ⊕ ℕ × Event UInt8) :=
  .inl ⟨"localhost", "5555", "hi"⟩ ::
    [.complete 0 none, .complete 0 none, .complete 0 none, .emit 0 2 true, .complete 0 none,
      .arrive ⟨true, true, "hi"⟩, .receive 0, .complete 0 none, .complete 0 ec].map
      fun e => .inr (0, e)

/-- If the closing handshake succeeds, the reply is printed. -/
theorem repliesPrinted_exchange :
    ∃ s, program.system.pool.run (program.system.pool.start ()) (exchange none) = some [s] ∧
      printed s.log = ["hi\n"] ∧
      program.system.pool.AllSteps CloseSucceeds (program.system.pool.start ())
        (exchange none) := by
  obtain ⟨s, hrun, hprinted, hreceived⟩ : ∃ s,
      program.system.pool.run (program.system.pool.start ()) (exchange none) = some [s] ∧
        printed s.log = ["hi\n"] ∧ received s = ["hi"] := ⟨_, rfl, rfl, rfl⟩
  refine ⟨s, hrun, hprinted, (repliesPrinted_iff hrun).1.mp fun r hr _ => ?_⟩
  obtain rfl := List.mem_singleton.mp hr
  rw [hprinted, hreceived]
  rfl

/-- If the connection breaks after the reply was read, the closing handshake fails, and the reply
is not printed. -/
theorem reply_lost :
    ∃ s, program.system.pool.run (program.system.pool.start ())
        (exchange (some ⟨.other, "End of file"⟩)) = some [s] ∧
      s.pending = [] ∧ .finished .read none ∈ s.log ∧ received s = ["hi"] ∧
      printed s.log = [] ∧ ¬ RepliesPrinted [s] ∧ ¬ CountsAgree [s] := by
  obtain ⟨s, hrun, hpending, hread, hreceived, hprinted⟩ : ∃ s,
      program.system.pool.run (program.system.pool.start ())
          (exchange (some ⟨.other, "End of file"⟩)) = some [s] ∧
        s.pending = [] ∧ s.log.contains (.finished .read none) = true ∧
        received s = ["hi"] ∧ printed s.log = [] := ⟨_, rfl, rfl, rfl, rfl, rfl⟩
  refine ⟨s, hrun, hpending, List.contains_iff_mem.mp hread, hreceived, hprinted, fun h => ?_, ?_⟩
  · have hboth := h s (by simp) hpending
    rw [hprinted, hreceived] at hboth
    cases hboth
  · simp [CountsAgree, hprinted, hreceived]

end ClientSession

end Vsna
