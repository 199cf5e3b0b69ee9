import Vsna.Server.Cli

set_option relaxedAutoImplicit false
set_option autoImplicit false

/-!
# The set-up of the server

The constructor of `Server` reports the first of its four calls that fails, and returns. Nothing
records that it did: `ServerCLI::run` calls `Server::run` all the same, which starts an accept
and announces that the server is running. On an acceptor that does not listen every accept
fails, and `on_accept` starts the next one.

## Main definitions

* `Vsna.AcceptorCalls.Succeed` — all four calls have succeeded.
* `Vsna.ServerCLI.Gated` — the server runs only if it was set up.
* `Vsna.ServerCLI.Spinning` — failed accepts follow one another.

## Main results

* `Vsna.ServerCLI.listening_iff_of_start` — the acceptor listens if all four calls succeed.
* `Vsna.ServerCLI.spinning_of_run` — after a failed set-up, a run is a row of failed accepts.
* `Vsna.ServerCLI.gated_iff` — the outcomes of the four calls with which the server runs only if it
  was set up.
-/

namespace Vsna

open Text Websocket

/-! ## The four calls -/

/-- All four calls have succeeded. -/
structure AcceptorCalls.Succeed (calls : AcceptorCalls) : Prop where
  opened : calls.openEc = none
  optionSet : calls.setOptionEc = none
  bound : calls.bindEc = none
  listening : calls.listenEc = none

namespace Server

/-- Calling `fail` does nothing to the acceptor. -/
lemma fail_acceptor (s : Server) (e : Error UInt8) (op : Str) :
    (s.fail e op).acceptor = s.acceptor := by
  obtain ⟨text, ht⟩ := s.fail_eq e op
  rw [ht]

/-- The acceptor listens exactly if all four calls succeed.

**Proof sketch.** The first call that fails, in the order in which they are made, leaves the
acceptor as it is then. -/
lemma setUp_listening_iff {s : Server} (hs : s.acceptor.listening = false)
    (endpoint : TcpEndpoint) (calls : AcceptorCalls) :
    (s.setUp endpoint calls).acceptor.listening = true ↔ calls.Succeed := by
  obtain ⟨openEc, setOptionEc, bindEc, listenEc⟩ := calls
  cases openEc with
  | some e =>
    refine iff_of_false ?_ fun h => by cases h.opened
    simp [setUp, fail_acceptor, hs]
  | none =>
    cases setOptionEc with
    | some e =>
      refine iff_of_false ?_ fun h => by cases h.optionSet
      simp [setUp, fail_acceptor, print, hs]
    | none =>
      cases bindEc with
      | some e =>
        refine iff_of_false ?_ fun h => by cases h.bound
        simp [setUp, fail_acceptor, print, hs]
      | none =>
        cases listenEc with
        | some e =>
          refine iff_of_false ?_ fun h => by cases h.listening
          simp [setUp, fail_acceptor, print, hs]
        | none => exact iff_of_true rfl ⟨rfl, rfl, rfl, rfl⟩

end Server

namespace ServerCLI

variable {env : Env} {calls : AcceptorCalls} {parsed : Parsed} {s : Server} {pid : ℕ}
  {p p' : Process}

/-- The server that comes up listens exactly if all four calls have succeeded. -/
lemma listening_iff_of_start (h : start env calls parsed = .ok s) :
    s.acceptor.listening = true ↔ calls.Succeed := by
  obtain ⟨s₀, st, hs₀, rfl⟩ := start_eq_ok h
  simp only [Server.construct] at hs₀
  split at hs₀
  · cases hs₀
  · next endpoint _ =>
    obtain rfl := Except.ok.inj hs₀
    exact Server.setUp_listening_iff rfl endpoint calls

/-! ## After a failed set-up -/

/-- An accept is outstanding on an acceptor that does not listen, and there is no session. -/
structure Spinning (p : Process) : Prop where
  thrown : p.thrown = none
  accepts : p.server.accepts = 1
  listening : p.server.acceptor.listening = false
  sessions : p.server.sessions = []

/-- The next event is a failed accept, after which the next one is started. -/
lemma Spinning.step (h : Spinning p) {e : ServerEvent} (he : p.step e = some p') :
    (∃ x, e = .accepted (.error x)) ∧ Spinning p' := by
  obtain ⟨-, heff, hext⟩ := Process.effect_of_step he
  cases heff with
  | @failed x hthrown haccepts hsessions =>
    exact ⟨⟨x, rfl⟩, hthrown, haccepts.trans h.accepts, hext.acceptor ▸ h.listening,
      hsessions.trans h.sessions⟩
  | served => simp [Process.step, h.listening, Except.toBool] at he
  | crashed => simp [Process.step, h.listening, Except.toBool] at he
  | session hi => simp [h.sessions] at hi

/-- Failed accepts can follow one another for ever. -/
lemma Spinning.exists_run (h : Spinning p) (x : Error UInt8) (n : ℕ) :
    ∃ p', Process.system.run p (List.replicate n (.accepted (.error x))) = some p' ∧
      Spinning p' := by
  induction n generalizing p with
  | zero => exact ⟨p, rfl, h⟩
  | succ n ih =>
    obtain ⟨q, hq⟩ : ∃ q, p.step (.accepted (.error x)) = some q := by
      simp [Process.step, h.thrown, h.accepts, Except.toBool]
    obtain ⟨p', hrun, hp'⟩ := ih (h.step hq).2
    exact ⟨p', Process.system.run_cons_eq_some.mpr ⟨q, hq, hrun⟩, hp'⟩

/-- **After a failed set-up** the server keeps accepting, whatever happens.

**Proof sketch.** It starts with one accept on an acceptor that does not listen, and every step
leaves it so. -/
lemma spinning_of_run (h : start env calls parsed = .ok s) (hfail : ¬ calls.Succeed)
    {es : List ServerEvent} (hrun : Process.system.run (Process.start s pid) es = some p) :
    Spinning p := by
  have hfresh := fresh_of_start h
  have hstart : Spinning (Process.start s pid) := by
    refine ⟨rfl, ?_, ?_, ?_⟩
    · exact (Server.run_accepts s pid).trans (congrArg (· + 1) hfresh.accepts)
    · have hacc : (s.run pid).acceptor = s.acceptor := (run_announces s pid).1.acceptor
      rw [Process.start, hacc, ← Bool.not_eq_true, listening_iff_of_start h]
      exact hfail
    · exact (Server.run_sessions s pid).trans hfresh.sessions
  exact Process.system.run_invariant (Q := fun _ => True) (fun _ _ _ hp _ he => (hp.step he).2)
    hstart (fun _ _ => trivial) hrun

/-! ## The gate -/

/-- The server runs only if it was set up. -/
structure Gated (calls : AcceptorCalls) (s : Server) : Prop where
  /-- It announces that it is running only if all four calls have succeeded. -/
  announced : s.announcement <:+: s.cout → calls.Succeed
  /-- It starts an accept only if all four calls have succeeded. -/
  accepting : s.accepts ≠ 0 → calls.Succeed
  /-- An accept is outstanding only on an acceptor that listens. -/
  listening : s.accepts ≠ 0 → s.acceptor.listening = true

/-- **When the server runs only if it was set up**, in every state of every run: if all four calls
have succeeded, and else only if the process ends before `Server::run`.

**Proof sketch.** After a failed set-up the first state already has an accept outstanding. -/
theorem gated_iff (env : Env) (calls : AcceptorCalls) (parsed : Parsed) (pid : ℕ) :
    (∀ s, start env calls parsed = .ok s → ∀ es p,
        Process.system.run (Process.start s pid) es = some p → Gated calls p.server) ↔
      calls.Succeed ∨ ∀ s, start env calls parsed ≠ .ok s := by
  constructor
  · intro hgated
    by_contra hnot
    obtain ⟨hfail, s, hs⟩ : ¬ calls.Succeed ∧ ∃ s, start env calls parsed = .ok s := by
      simpa using hnot
    have hspin : Spinning (Process.start s pid) :=
      spinning_of_run hs hfail (Process.system.run_nil _)
    exact hfail ((hgated s hs [] _ rfl).accepting (by simp [hspin.accepts]))
  · rintro (hsucceed | hnone) s hs es p hp
    · have hlistening : p.server.acceptor.listening = true := by
        rw [(extends_of_run hp).1.acceptor]
        exact (listening_iff_of_start hs).mpr hsucceed
      exact ⟨fun _ => hsucceed, fun _ => hsucceed, fun _ => hlistening⟩
    · exact absurd hs (hnone s)

/-- The default port is in use: the server announces that it is running, and any number of failed
accepts follow one another. -/
theorem not_gated_in_use :
    let calls : AcceptorCalls := { bindEc := some ⟨.other, "Address already in use"⟩ }
    let failed : ServerEvent := .accepted (.error ⟨.other, "Invalid argument"⟩)
    ∃ s, start .small calls (.options none none none none) = .ok s ∧
      (∀ n, ∃ p, Process.system.run (Process.start s 1) (List.replicate n failed) = some p ∧
        s.announcement <:+: p.server.cout ∧ p.server.accepts = 1 ∧
        p.server.acceptor.listening = false) ∧
      ¬ ∀ es p, Process.system.run (Process.start s 1) es = some p → Gated calls p.server := by
  intro calls failed
  obtain ⟨s, hs⟩ : ∃ s, start .small calls (.options none none none none) = .ok s := ⟨_, rfl⟩
  have hfail : ¬ calls.Succeed := fun h => by cases h.bound
  have hspin : Spinning (Process.start s 1) :=
    spinning_of_run hs hfail (Process.system.run_nil _)
  refine ⟨s, hs, fun n => ?_, fun h => hfail ((h [] _ rfl).accepting (by simp [hspin.accepts]))⟩
  obtain ⟨p, hrun, hp⟩ := hspin.exists_run _ n
  exact ⟨p, hrun, (extends_of_run hrun).2, hp.accepts, hp.listening⟩

end ServerCLI

end Vsna
