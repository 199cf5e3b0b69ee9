import Vsna.Client.Prompt

set_option relaxedAutoImplicit false
set_option autoImplicit false

/-!
# The client program, step by step

`Vsna.Prompt` treats an iteration of the prompt loop as one step, during which a handler may run the
`io_context` to its end. To put a client beside a server and other clients, an iteration has to be
taken apart: while a `connect` command runs the context, the events of its sessions are steps of
their own, and anything may happen elsewhere between them.

This module has the client in small steps, and shows that the two levels agree: a small-step run
from one iteration to another does exactly what the loop does in some number of iterations.

## Main definitions

* `Vsna.Shell`, `Vsna.Shell.system` — the client in small steps.
* `Vsna.Shell.block` — the small steps of one iteration.

## Main results

* `Vsna.Shell.run_block` — an iteration is run by its small steps.
* `Vsna.Shell.run_iff_iterations` — the two levels agree.
* `Vsna.Shell.effect_of_step` — what an event does to the sessions.
-/

namespace Vsna

open Text Websocket

/-- Create a session in the `io_context`, and run it. -/
def Client.spawn (c : Client) : Client := { c with sessions := c.sessions ++ [c.newSession] }

/-- The client: between two iterations of the prompt loop, or in the call of `io_context::run()`
that a `connect` command makes. -/
structure Shell where
  prompt : Prompt
  /-- Is the `io_context` running? -/
  running : Bool := false
  deriving DecidableEq

/-- What can happen to a client. -/
inductive ShellEvent
  /-- The next iteration begins. It comes to its end, unless it runs the `io_context`. -/
  | line
  /-- The event `e` of session `i`, which the `io_context` runs. -/
  | io (i : ℕ) (e : Event UInt8)
  /-- `io_context::run()` returns, and with it the handler. -/
  | ret
  deriving DecidableEq

namespace Shell

/-- The next iteration of the loop, up to the call of `io_context::run()` if it makes one that
does not return at once. -/
def line (p : Prompt) : Option Shell :=
  if p.left then none
  else
    let client := p.client.write "> "
    let r := getline p.cin p.input
    match splitArgs r.2 with
    | [] => some ⟨{ p with client := client, cin := r.1, input := r.2 }, false⟩
    | w :: ws =>
      match findCommand w with
      | none =>
        some ⟨{ p with
          client := client.write ("Unknown command: " ++ w ++ "\n"), cin := r.1, input := r.2
          actions := p.actions ++ [.unknown w] }, false⟩
      | some item =>
        if item.command = .connect then
          some ⟨{ p with
            client := client.spawn, cin := r.1, input := r.2
            actions := p.actions ++ [.invoked item.command ws], left := false }, !client.stopped⟩
        else
          (item.handle client ws []).map fun res =>
            ⟨{ p with
              client := res.2, cin := r.1, input := r.2
              actions := p.actions ++ [.invoked item.command ws], left := res.1 }, false⟩

/-- The prompt with other sessions. -/
def withSessions (p : Prompt) (l : List ClientSession) : Prompt := { p with client.sessions := l }

/-- The prompt with the `io_context` stopped. -/
def stop (p : Prompt) : Prompt := { p with client.stopped := true }

/-- Are all sessions without outstanding operations? -/
def idle (l : List ClientSession) : Bool := l.all fun t => t.pending.isEmpty

/-- One event of a client. -/
def step (s : Shell) : ShellEvent → Option Shell
  | .line => if s.running then none else line s.prompt
  | .io i e =>
    if s.running then
      (ClientSession.program.system.pool.step s.prompt.client.sessions (.inr (i, e))).map fun l =>
        ⟨withSessions s.prompt l, true⟩
    else none
  | .ret =>
    if s.running ∧ idle s.prompt.client.sessions = true then some ⟨stop s.prompt, false⟩ else none

/-- The client, from any fresh one and any standard input. -/
def system : Automata.System ({ c : Client // c.Fresh } × Str) Shell ShellEvent where
  start k := ⟨Prompt.start k.1 k.2, false⟩
  step := step

variable {p p' : Prompt} {s s' : Shell}

/-! ## One iteration -/

/-- An event of a session is a step of the pool. -/
lemma step_io_eq_some_iff {i : ℕ} {e : Event UInt8} :
    (⟨p, true⟩ : Shell).step (.io i e) = some s' ↔ ∃ l,
      ClientSession.program.system.pool.step p.client.sessions (.inr (i, e)) = some l ∧
        s' = ⟨withSessions p l, true⟩ := by
  simp only [step, if_true, Option.map_eq_some_iff]
  exact exists_congr fun l => and_congr Iff.rfl eq_comm

/-- The events of the sessions are a run of the pool. -/
lemma run_io (p : Prompt) (es : List (ℕ × Event UInt8)) :
    system.run ⟨p, true⟩ (es.map fun r => .io r.1 r.2) =
      (ClientSession.program.system.pool.run p.client.sessions (es.map .inr)).map fun l =>
        ⟨withSessions p l, true⟩ := by
  induction es generalizing p with
  | nil => rfl
  | cons r es ih =>
    have hstep : system.step ⟨p, true⟩ (.io r.1 r.2) =
        (ClientSession.program.system.pool.step p.client.sessions (.inr r)).map fun l =>
          ⟨withSessions p l, true⟩ := rfl
    rw [List.map_cons, List.map_cons, Automata.System.run_cons, Automata.System.run_cons, hstep]
    cases hl : ClientSession.program.system.pool.step p.client.sessions (.inr r) with
    | none => rfl
    | some l => exact ih (withSessions p l)

/-- Running the context on the sessions of a client whose context is not stopped. -/
lemma ioRun_eq {c : Client} (hc : c.stopped = false) (es : List (ℕ × Event UInt8)) :
    c.ioRun es = (ClientSession.program.system.pool.run c.sessions (es.map .inr)).bind fun l =>
      if idle l then some { c with sessions := l, stopped := true } else none := by
  simp only [Client.ioRun, hc, Bool.false_eq_true, if_false, Option.bind_eq_bind]
  rfl

/-- A handler other than that of `connect` returns at once. -/
lemma exists_handle_eq {item : MenuItem} (h : item.command ≠ .connect) (c : Client)
    (args : List Str) : ∃ r, ∀ es, item.handle c args es = some r := by
  obtain ⟨command, name, desc, usage⟩ := item
  cases command with
  | connect => exact absurd rfl h
  | _ => exact ⟨_, fun _ => rfl⟩

/-- **What the next iteration is**: either it comes to its end at once, whatever happens; or it runs
the context, and comes to its end when the sessions have nothing left to do.

**Proof sketch.** Only the handler of `connect` runs the context, and if the context is stopped the
call returns at once. -/
lemma line_spec (hl : p.left = false) :
    (∃ q, line p = some ⟨q, false⟩ ∧ p.iterate [] = some q ∧
      ∀ es p', p.iterate es = some p' → p' = q) ∨
    ∃ q, line p = some ⟨q, true⟩ ∧ ∀ es, p.iterate es =
      (ClientSession.program.system.pool.run q.client.sessions (es.map .inr)).bind fun l =>
        if idle l then some (stop (withSessions q l)) else none := by
  have hne : ¬ p.left = true := by simp [hl]
  simp only [line, Prompt.iterate, if_neg hne]
  cases hw : splitArgs (getline p.cin p.input).2 with
  | nil => exact Or.inl ⟨_, rfl, rfl, fun es p' h => (Option.some.inj h).symm⟩
  | cons w ws =>
    simp only []
    cases hf : findCommand w with
    | none => exact Or.inl ⟨_, rfl, rfl, fun es p' h => (Option.some.inj h).symm⟩
    | some item =>
      simp only []
      by_cases hconnect : item.command = .connect
      · have hhandle : ∀ es, item.handle (p.client.write "> ") ws es =
            ((p.client.write "> ").spawn.ioRun es).map fun c => (false, c) := fun es => by
          rw [MenuItem.handle, hconnect]
          rfl
        rw [if_pos hconnect]
        simp only [hhandle]
        cases hstop : (p.client.write "> ").stopped with
        | true =>
          have hrun : ∀ es, (p.client.write "> ").spawn.ioRun es =
              if es.isEmpty then some (p.client.write "> ").spawn else none := fun es =>
            if_pos hstop
          refine Or.inl ⟨_, rfl, ?_, fun es p' h => ?_⟩
          · rw [hrun]
            rfl
          · rw [hrun] at h
            split_ifs at h with hnil
            · exact (Option.some.inj h).symm
            · cases h
        | false =>
          refine Or.inr ⟨_, rfl, fun es => ?_⟩
          rw [ioRun_eq (c := (p.client.write "> ").spawn) hstop]
          cases ClientSession.program.system.pool.run (p.client.write "> ").spawn.sessions
              (es.map .inr) with
          | none => rfl
          | some l =>
            rw [Option.bind_some, Option.bind_some]
            split_ifs <;> rfl
      · obtain ⟨r, hr⟩ := exists_handle_eq hconnect (p.client.write "> ") ws
        rw [if_neg hconnect]
        simp only [hr]
        exact Or.inl ⟨_, rfl, rfl, fun es p' h => (Option.some.inj h).symm⟩

/-- The small steps of one iteration, during which the events `es` happen. -/
def block (p : Prompt) (es : List (ℕ × Event UInt8)) : List ShellEvent :=
  match line p with
  | none => []
  | some s => if s.running then .line :: (es.map (fun r => .io r.1 r.2) ++ [.ret]) else [.line]

/-- After the loop has been left there is no next iteration. -/
lemma line_eq_none (hl : p.left = true) : line p = none := if_pos hl

/-- When the sessions have nothing left to do the context returns. -/
lemma step_ret_eq_some_iff {q : Prompt} :
    (⟨p, true⟩ : Shell).step .ret = some ⟨q, false⟩ ↔
      idle p.client.sessions = true ∧ stop p = q := by
  simp only [step, true_and]
  split_ifs with h
  · simp [h]
  · simp [h]

/-- **An iteration is run by its small steps.** -/
lemma run_block {es : List (ℕ × Event UInt8)} (h : p.iterate es = some p') :
    system.run ⟨p, false⟩ (block p es) = some ⟨p', false⟩ := by
  cases hl : p.left with
  | true =>
    obtain rfl : p = p' := by simpa [Prompt.iterate, hl] using h
    simp [block, line_eq_none hl]
  | false =>
    rcases line_spec hl with ⟨q, hq, -, huniq⟩ | ⟨q, hq, hall⟩
    · obtain rfl := huniq es p' h
      have hstep : system.step ⟨p, false⟩ .line = some ⟨p', false⟩ := hq
      simp [block, hq, hstep]
    · have hstep : system.step ⟨p, false⟩ .line = some ⟨q, true⟩ := hq
      rw [hall es] at h
      obtain ⟨l, hl, hend⟩ := Option.bind_eq_some_iff.mp h
      split_ifs at hend with hidle
      have hret : system.step ⟨withSessions q l, true⟩ .ret = some ⟨p', false⟩ :=
        step_ret_eq_some_iff.mpr ⟨hidle, Option.some.inj hend⟩
      simp [block, hq, hstep, Automata.System.run_append, run_io, hl, hret]

/-! ## Runs -/

/-- Where a client is after some iterations: between two of them, or in the next one, of which the
events `es` of the sessions have happened. -/
inductive Underway (k : { c : Client // c.Fresh } × Str) : Shell → Prop
  | rest {ess : List (List (ℕ × Event UInt8))} {p : Prompt}
    (hrun : Prompt.system.run (Prompt.system.start k) ess = some p) : Underway k ⟨p, false⟩
  | busy {ess : List (List (ℕ × Event UInt8))} {p q : Prompt} {es : List (ℕ × Event UInt8)}
    {l : List ClientSession} (hrun : Prompt.system.run (Prompt.system.start k) ess = some p)
    (hleft : p.left = false) (hline : line p = some ⟨q, true⟩)
    (hio : ClientSession.program.system.pool.run q.client.sessions (es.map .inr) = some l) :
    Underway k ⟨withSessions q l, true⟩

variable {k : { c : Client // c.Fresh } × Str}

/-- One more iteration of a run of the loop. -/
lemma run_snoc {ess : List (List (ℕ × Event UInt8))} {es : List (ℕ × Event UInt8)}
    (hrun : Prompt.system.run (Prompt.system.start k) ess = some p)
    (hit : p.iterate es = some p') :
    Prompt.system.run (Prompt.system.start k) (ess ++ [es]) = some p' :=
  Prompt.system.run_append_eq_some.mpr
    ⟨p, hrun, Prompt.system.run_cons_eq_some.mpr ⟨p', hit, rfl⟩⟩

/-- Every event takes a client to where it can be after some iterations. -/
lemma Underway.step (h : Underway k s) {e : ShellEvent} (he : s.step e = some s') :
    Underway k s' := by
  cases h with
  | @rest ess p hrun =>
    cases e with
    | io i e => simp [Shell.step] at he
    | ret => simp [Shell.step] at he
    | line =>
      have hline : line p = some s' := he
      cases hl : p.left with
      | true => simp [line_eq_none hl] at hline
      | false =>
        rcases line_spec hl with ⟨q, hq, hit, -⟩ | ⟨q, hq, -⟩
        · obtain rfl := Option.some.inj (hq.symm.trans hline)
          exact .rest (run_snoc hrun hit)
        · obtain rfl := Option.some.inj (hq.symm.trans hline)
          have hio : ClientSession.program.system.pool.run q.client.sessions
            (([] : List (ℕ × Event UInt8)).map .inr) = some q.client.sessions := rfl
          exact .busy hrun hl hq hio
  | @busy ess p q es l hrun hleft hline hio =>
    cases e with
    | line => simp [Shell.step] at he
    | io i e =>
      obtain ⟨l', hl', rfl⟩ := step_io_eq_some_iff.mp he
      have hio' : ClientSession.program.system.pool.run q.client.sessions
          ((es ++ [(i, e)]).map .inr) = some l' := by
        rw [List.map_append, Automata.System.run_append, hio, Option.bind_some]
        exact Automata.System.run_cons_eq_some _ |>.mpr ⟨l', hl', rfl⟩
      change Underway k ⟨withSessions q l', true⟩
      exact .busy hrun hleft hline hio'
    | ret =>
      simp only [Shell.step, true_and] at he
      split_ifs at he with hidle
      obtain rfl := Option.some.inj he
      rcases line_spec hleft with ⟨q', hq', -⟩ | ⟨q', hq', hall⟩
      · simp [hline] at hq'
      · obtain rfl : q = q' := by simpa [hline] using hq'
        have hit : p.iterate es = some (stop (withSessions q l)) := by
          rw [hall, hio, Option.bind_some]
          exact if_pos hidle
        exact .rest (run_snoc hrun hit)

/-- **The two levels agree**: the states between iterations that a client reaches in small steps are
those that the loop reaches.

**Proof sketch.** An iteration is run by its small steps. Conversely a small-step run is at every
moment either between two iterations of a run of the loop, or in the middle of its next one. -/
theorem run_iff_iterations (k : { c : Client // c.Fresh } × Str) (p : Prompt) :
    (∃ es, system.run (system.start k) es = some ⟨p, false⟩) ↔
      ∃ ess, Prompt.system.run (Prompt.system.start k) ess = some p := by
  constructor
  · rintro ⟨es, hrun⟩
    have hstart : Underway k (system.start k) := .rest (Prompt.system.run_nil _)
    have h : Underway k ⟨p, false⟩ := system.run_invariant (Q := fun _ => True)
      (fun _ _ _ hs _ he => hs.step he) hstart (fun _ _ => trivial) hrun
    cases h with
    | rest hrun => exact ⟨_, hrun⟩
  · rintro ⟨ess, hrun⟩
    refine Prompt.system.run_induction
      (P := fun _ p => ∃ es, system.run (system.start k) es = some ⟨p, false⟩) ⟨[], rfl⟩ ?_ hrun
    rintro - p es p' ⟨fs, hfs⟩ hit
    exact ⟨fs ++ block p es, system.run_append_eq_some.mpr ⟨_, hfs, run_block hit⟩⟩

/-! ## Sessions -/

/-- What an event does to the sessions of a client: nothing, or it creates one, or it is an event of
one of them. -/
inductive Effect (s s' : Shell) : ShellEvent → Prop
  | idle {e : ShellEvent}
    (hsessions : s'.prompt.client.sessions = s.prompt.client.sessions) : Effect s s' e
  | spawn (hsessions : s'.prompt.client.sessions =
      s.prompt.client.sessions ++ [s.prompt.client.newSession]) : Effect s s' .line
  | session {i : ℕ} {e : Event UInt8} {t t' : ClientSession}
    (hi : s.prompt.client.sessions[i]? = some t)
    (he : ClientSession.program.step t e = some t')
    (hsessions : s'.prompt.client.sessions = s.prompt.client.sessions.set i t') :
    Effect s s' (.io i e)

/-- Writing lines changes neither the configuration nor the sessions. -/
lemma foldl_write (items : List MenuItem) (c : Client) :
    (items.foldl (fun c item => c.write item.helpLine) c).config = c.config ∧
      (items.foldl (fun c item => c.write item.helpLine) c).sessions = c.sessions := by
  induction items generalizing c with
  | nil => exact ⟨rfl, rfl⟩
  | cons item items ih => exact ih (c.write item.helpLine)

/-- A command other than `connect` changes neither the configuration nor the sessions. -/
lemma handle_frame {item : MenuItem} (hne : item.command ≠ .connect) {c : Client}
    {args : List Str} {es : List (ℕ × Event UInt8)} {r : Bool × Client}
    (h : item.handle c args es = some r) :
    r.2.config = c.config ∧ r.2.sessions = c.sessions := by
  obtain ⟨command, name, desc, usage⟩ := item
  cases command with
  | connect => exact absurd rfl hne
  | help =>
    obtain rfl := Option.some.inj h
    exact foldl_write initCommands (c.write "[=] Available commands:\n")
  | _ =>
    obtain rfl := Option.some.inj h
    exact ⟨rfl, rfl⟩

/-- What a new iteration does to the configuration and the sessions. -/
lemma effect_of_line (h : line p = some s') :
    s'.prompt.client.config = p.client.config ∧ Effect ⟨p, false⟩ s' .line := by
  unfold line at h
  split_ifs at h
  simp only [] at h
  cases hw : splitArgs (getline p.cin p.input).2 with
  | nil =>
    rw [hw] at h
    obtain rfl := Option.some.inj h
    exact ⟨rfl, .idle rfl⟩
  | cons w ws =>
    rw [hw] at h
    simp only [] at h
    cases hf : findCommand w with
    | none =>
      rw [hf] at h
      obtain rfl := Option.some.inj h
      exact ⟨rfl, .idle rfl⟩
    | some item =>
      rw [hf] at h
      simp only [] at h
      split_ifs at h with hconnect
      · obtain rfl := Option.some.inj h
        exact ⟨rfl, .spawn rfl⟩
      · obtain ⟨r, hr, rfl⟩ := Option.map_eq_some_iff.mp h
        obtain ⟨hconfig, hsessions⟩ := handle_frame hconnect hr
        exact ⟨hconfig, .idle hsessions⟩

/-- **What an event does to a client**: it keeps the configuration, and has one of the effects on
the sessions. -/
lemma effect_of_step {e : ShellEvent} (h : s.step e = some s') :
    s'.prompt.client.config = s.prompt.client.config ∧ Effect s s' e := by
  obtain ⟨p, running⟩ := s
  cases e with
  | line =>
    simp only [step] at h
    split_ifs at h with hr
    obtain rfl : running = false := by simpa using hr
    exact effect_of_line h
  | io i e =>
    simp only [step] at h
    split_ifs at h
    obtain ⟨l, hl, rfl⟩ := Option.map_eq_some_iff.mp h
    simp only [Automata.System.pool, Option.bind_eq_bind, Option.bind_eq_some_iff] at hl
    obtain ⟨t, hi, t', ht, hl'⟩ := hl
    obtain rfl := Option.some.inj hl'
    exact ⟨rfl, .session hi ht rfl⟩
  | ret =>
    simp only [step] at h
    split_ifs at h
    obtain rfl := Option.some.inj h
    exact ⟨rfl, .idle rfl⟩

/-- An event of a client spawns one session, or steps one session, or leaves the sessions alone. -/
lemma poolStep {e : ShellEvent} (h : s.step e = some s') :
    ClientSession.program.system.PoolStep s.prompt.client.sessions s'.prompt.client.sessions := by
  obtain ⟨-, heff⟩ := effect_of_step h
  cases heff with
  | idle hs => exact hs ▸ .idle _
  | spawn hs => exact hs ▸ .spawn _ _
  | session hi he hs => exact hs ▸ .step hi he

/-- Every session of a client is in a state that is reachable for it alone. -/
lemma session_reachable (h : system.Reachable s) :
    ∀ t ∈ s.prompt.client.sessions, ClientSession.program.system.Reachable t := by
  refine h.invariant (P := fun s => ∀ t ∈ s.prompt.client.sessions,
    ClientSession.program.system.Reachable t)
    (fun k t ht => ?_) fun s e s' hs he => (poolStep he).reachable hs
  have hnone : (system.start k).prompt.client.sessions = [] := k.1.2.sessions
  simp [hnone] at ht

end Shell

end Vsna
