import Vsna.Common.Startup
import Vsna.Server.Server

set_option relaxedAutoImplicit false
set_option autoImplicit false

/-!
# `ServerCLI`

The class `ServerCLI` of `server/server_cli.h` and `server/server_cli.cpp`, and with it the way a
server process comes up: `main` constructs the server, which sets up its acceptor at once;
`CLIParse` then installs the configuration; and `run` announces the address in it.

## Main definitions

* `Vsna.ServerCLI.start` — `main` up to the call of `Server::run`.
* `Vsna.ServerCLI.BoundToConfig` — the acceptor listens on the configured and announced endpoint.

## Main results

* `Vsna.ServerCLI.fresh_of_start` — the server that comes up is one that `Vsna.Process.system`
  starts from.
* `Vsna.ServerCLI.boundToConfig_iff` — when it listens where it says it does.
-/

namespace Vsna

open Text

namespace ServerCLI

/-- `main` of the server, up to the call of `run()`: the server right before it. -/
def start (env : Env) (calls : AcceptorCalls) (parsed : Parsed) : Except Stop Server :=
  match Server.construct env calls with
  | .error e => .error (.exn e)
  | .ok s =>
    match cliParse env parsed ⟨s.config, "Built as a server.\n" ++ s.cout, s.cerr⟩ with
    | .error stop _ => .error stop
    | .ok _ st => .ok { s.setConfig st.config with cout := st.cout, cerr := st.cerr }

variable {env : Env} {calls : AcceptorCalls} {parsed : Parsed} {s : Server}

/-- Inversion of `start`. -/
lemma start_eq_ok (h : start env calls parsed = .ok s) :
    ∃ (s₀ : Server) (st : Startup), Server.construct env calls = .ok s₀ ∧
      s = { s₀.setConfig st.config with cout := st.cout, cerr := st.cerr } := by
  unfold start at h
  split at h
  · cases h
  · next s₀ hs₀ =>
    split at h
    · cases h
    · next st _ => exact ⟨s₀, st, hs₀, (Except.ok.inj h).symm⟩

/-- Setting up the acceptor starts no accept and no session. -/
lemma fresh_setUp {s : Server} (h : s.Fresh) (endpoint : TcpEndpoint) (calls : AcceptorCalls) :
    (s.setUp endpoint calls).Fresh := by
  have hfail : ∀ (s : Server) (e : Websocket.Error UInt8) (op : Str), s.Fresh →
      (s.fail e op).Fresh := by
    intro s e op hs
    obtain ⟨text, ht⟩ := s.fail_eq e op
    rw [ht]
    exact ⟨hs.accepts, hs.sessions⟩
  unfold Server.setUp
  split
  · exact hfail _ _ _ h
  · simp only []
    split
    · exact hfail _ _ _ ⟨h.accepts, h.sessions⟩
    · split
      · exact hfail _ _ _ ⟨h.accepts, h.sessions⟩
      · split
        · exact hfail _ _ _ ⟨h.accepts, h.sessions⟩
        · exact ⟨h.accepts, h.sessions⟩

/-- The server that comes up has not been run. -/
lemma fresh_of_start (h : start env calls parsed = .ok s) : s.Fresh := by
  obtain ⟨s₀, st, hs₀, rfl⟩ := start_eq_ok h
  simp only [Server.construct] at hs₀
  split at hs₀
  · cases hs₀
  · next endpoint _ =>
    obtain rfl := Except.ok.inj hs₀
    obtain ⟨ha, hs⟩ := fresh_setUp (s := {}) ⟨rfl, rfl⟩ endpoint calls
    exact ⟨ha, hs⟩

/-- The acceptor listens on the endpoint that the configuration holds, and `run` has announced
it. -/
structure BoundToConfig (env : Env) (s : Server) : Prop where
  listening : s.acceptor.listening = true
  bound : ∃ ep, s.config.addr.endpoint env = .ok ep ∧ s.acceptor.bound = some ep
  announced : s.announcement <:+: s.cout

/-- If all calls succeed, the constructor leaves the acceptor listening on the default endpoint. -/
lemma acceptor_of_start (hany : env.ReadsAny) (h : start env {} parsed = .ok s) :
    s.acceptor = ⟨true, true, some ⟨.v4 0 0 0 0, 5555⟩, true⟩ := by
  obtain ⟨s₀, st, hs₀, rfl⟩ := start_eq_ok h
  have hep : ({} : Addr).endpoint env = .ok ⟨.v4 0 0 0 0, 5555⟩ := by
    have hip : env.makeAddress ({} : Addr).ip = .ok (.v4 0 0 0 0) := hany
    have hport : ({} : Addr).portNum = .ok 5555 := rfl
    rw [Addr.endpoint, hip, hport]
  simp only [Server.construct] at hs₀
  rw [hep] at hs₀
  obtain rfl := Except.ok.inj hs₀
  rfl

/-- `run` keeps configuration and acceptor, and announces the configured address. -/
lemma run_announces (s : Server) (pid : ℕ) :
    s.Extends (s.run pid) ∧ s.announcement <:+: (s.run pid).cout := by
  have hext : (s.startAccept.print s.announcement).Extends (s.run pid) :=
    ((Server.foldl_startThread _ _).1.trans (Server.extends_print _ _)).trans
      (Server.extends_print _ _)
  refine ⟨((Server.extends_doAccept s).trans (Server.extends_print _ _)).trans hext, ?_⟩
  exact (List.suffix_append _ _).isInfix.trans hext.cout.isInfix

/-- No event changes configuration or acceptor, and what was announced stays in the output. -/
lemma extends_of_run {pid : ℕ} {es : List ServerEvent} {p : Process}
    (h : Process.system.run (Process.start s pid) es = some p) :
    s.Extends p.server ∧ s.announcement <:+: p.server.cout := by
  refine Process.system.run_invariant
    (P := fun p : Process => s.Extends p.server ∧ s.announcement <:+: p.server.cout)
    (Q := fun _ => True) (fun p e p' hp _ he => ?_) (run_announces s pid) (fun _ _ => trivial) h
  obtain ⟨-, -, hstep⟩ := Process.effect_of_step he
  exact ⟨hp.1.trans hstep, hp.2.trans hstep.cout.isInfix⟩

/-- **When the server listens where it says it does**: in every state of every run the acceptor is
bound to the configured endpoint, exactly if the configuration that was installed names the
default endpoint, on which the constructor has bound the acceptor.

**Proof sketch.** No step changes the configuration or the acceptor, and output stays. -/
theorem boundToConfig_iff (hany : env.ReadsAny) (h : start env {} parsed = .ok s) (pid : ℕ) :
    (∀ es p, Process.system.run (Process.start s pid) es = some p → BoundToConfig env p.server) ↔
      s.config.addr.endpoint env = .ok ⟨.v4 0 0 0 0, 5555⟩ := by
  have hacc := acceptor_of_start hany h
  obtain ⟨hrun, -⟩ := run_announces s pid
  constructor
  · intro hbound
    obtain ⟨-, ⟨ep, hep, hb⟩, -⟩ := hbound [] _ rfl
    have hb' : (s.run pid).acceptor.bound = some ep := hb
    rw [hrun.acceptor, hacc] at hb'
    rw [← hrun.config, Option.some.inj hb']
    exact hep
  · intro hdefault es p hp
    have hext := extends_of_run hp
    refine ⟨by rw [hext.1.acceptor, hacc], ⟨_, hext.1.config ▸ hdefault, ?_⟩, ?_⟩
    · rw [hext.1.acceptor, hacc]
    · rw [Server.announcement, hext.1.config]
      exact hext.2

/-- The server started without any option. -/
theorem boundToConfig_iff_default :
    let s : Server := { Process.listener.1 with
      config := ⟨⟨"0.0.0.0", "5555"⟩, "/"⟩
      cout := "Built as a server.\nopened\nset_option\nbinded\nlistening\n" }
    (∀ es p, Process.system.run (Process.start s 1) es = some p →
        BoundToConfig .small p.server) ↔
      s.config.addr.endpoint .small = .ok ⟨.v4 0 0 0 0, 5555⟩ := by
  have h : start .small {} (.options none none none none) =
      .ok { Process.listener.1 with
        config := ⟨⟨"0.0.0.0", "5555"⟩, "/"⟩
        cout := "Built as a server.\nopened\nset_option\nbinded\nlistening\n" } := rfl
  exact boundToConfig_iff Env.readsAny_small h 1

/-- With `-p 8080` the server announces port 8080 and listens on port 5555. -/
theorem not_boundToConfig_8080 :
    ∃ s, start .small {} (.options none (some "8080") none none) = .ok s ∧
      (s.run 1).config.addr.port = ("8080" : Str) ∧
      (s.run 1).acceptor.bound = some ⟨.v4 0 0 0 0, 5555⟩ ∧
      ¬ ∀ es p, Process.system.run (Process.start s 1) es = some p →
        BoundToConfig .small p.server := by
  refine ⟨_, rfl, rfl, rfl, fun h => ?_⟩
  obtain ⟨-, ⟨ep, hep, hb⟩, -⟩ := h [] _ rfl
  have hep' : ep = ⟨.v4 0 0 0 0, 8080⟩ := (Except.ok.inj hep).symm
  rw [hep'] at hb
  exact absurd hb (by decide)

end ServerCLI

end Vsna
