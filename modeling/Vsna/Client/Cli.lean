import Vsna.Client.Shell
import Vsna.Common.Startup

set_option relaxedAutoImplicit false
set_option autoImplicit false

/-!
# `ClientCLI`

The class `ClientCLI` of `client/cli/client_cli.h` and `client/cli/client_cli.cpp`, and with it the
way a client process comes up: `main` constructs the client, `CLIParse` installs a configuration in
it, and the prompt loop runs its commands.

No command changes the configuration, and every connection of the client is made with it.

## Main definitions

* `Vsna.ClientCLI.start` — `main` up to the prompt loop.
* `Vsna.ClientCLI.target` — what a configuration makes a session connect to.
* `Vsna.ClientCLI.Faithful` — the configuration is the installed one, and so are the targets.

## Main results

* `Vsna.Startup.passed_of_cliParseWith` — what `CLIParse` installs has passed its checks.
* `Vsna.ClientCLI.faithful_of_run` — every session of a client connects to the checked address that
  was installed when it came up.
-/

namespace Vsna

open Text Websocket Posix

/-- If `CLIParse` returns, the configuration it has installed has passed its checks. -/
lemma Startup.passed_of_cliParseWith {env : Env} {ip₀ port₀ path₀ : Str} {parsed : Parsed}
    {s s' : Startup} (h : cliParseWith ip₀ port₀ path₀ env parsed s = .ok () s') :
    ∃ ip port path, Config.Passed env ip port path s'.config := by
  by_cases hc : Contained ip₀ port₀ path₀ env parsed
  · have hclosed := (closed_cliParseWith_iff s parsed).mpr hc
    rw [h] at hclosed
    cases hclosed with
    | installed hpassed => exact ⟨_, _, _, hpassed⟩
  · cases parsed with
    | parseError out err what => exact absurd trivial hc
    | options ip port path config =>
      by_cases hfile : config.getD [] = []
      · rw [cliParseWith_flags hfile] at h
        cases hflags : Config.ofFlags env (ip.getD ip₀) (port.getD port₀) (path.getD path₀) with
        | error e => simp [installed, hflags] at h
        | ok c =>
          rw [hflags] at h
          obtain rfl : { s with config := c } = s' := by simpa [installed] using h
          exact ⟨_, _, _, Config.ofFlags_eq_ok_iff.mp hflags⟩
      · have hexists : ∀ b, env.fs.fileExists (config.getD []) ≠ .ok b := by
          simpa [Contained, hfile, ← FileSystem.exists_fileExists_iff] using hc
        simp only [cliParseWith, if_pos (show config.getD [] ≠ [] from hfile)] at h
        cases hex : env.fs.fileExists (config.getD []) with
        | error e =>
          rw [hex] at h
          cases h
        | ok b => exact absurd hex (hexists b)

namespace ClientCLI

/-- `main` of the client, up to the prompt loop, on the standard input `text`. -/
def start (env : Env) (parsed : Parsed) (text : Str) : Except Stop Prompt :=
  match cliParse env parsed ⟨{}, "Built as a client.\n", []⟩ with
  | .error stop _ => .error stop
  | .ok _ st => .ok (Prompt.start (Client.setConfig { cout := st.cout } st.config) text)

/-- What a client with the configuration `c` tells its sessions. -/
def target (c : Config) : ClientMembers := ⟨cString c.addr.ip, cString c.addr.port, "Hello, World!"⟩

/-- The client has the configuration `c`, and all its sessions were run with it. -/
structure Faithful (c : Config) (p : Prompt) : Prop where
  config : p.client.config = c
  members : ∀ t ∈ p.client.sessions, t.members = target c

variable {c : Config} {p : Prompt} {s s' : Shell}

/-- Every event of a client keeps its configuration and what its sessions were run with. -/
lemma Faithful.step (h : Faithful c s.prompt) {e : ShellEvent} (he : s.step e = some s') :
    Faithful c s'.prompt := by
  obtain ⟨hconfig, heff⟩ := Shell.effect_of_step he
  refine ⟨hconfig.trans h.config, ?_⟩
  cases heff with
  | idle hsessions => exact hsessions ▸ h.members
  | spawn hsessions =>
    intro t ht
    rw [hsessions] at ht
    rcases List.mem_append.mp ht with ht | ht
    · exact h.members t ht
    · obtain rfl := List.mem_singleton.mp ht
      exact congrArg target h.config
  | @session i e t₀ t₁ hi hstep hsessions =>
    intro t ht
    rw [hsessions] at ht
    rcases List.mem_or_eq_of_mem_set ht with ht | rfl
    · exact h.members t ht
    · exact (ClientSession.proper_program.step hstep).2.2.trans
        (h.members t₀ (List.mem_of_getElem? hi))

/-- The client that comes up has the configuration that was installed, which has passed its
checks, and no session. -/
lemma start_spec {env : Env} {parsed : Parsed} {text : Str}
    (h : start env parsed text = .ok p) :
    (∃ ip port path, Config.Passed env ip port path p.client.config) ∧
      p.client.stopped = false ∧ p.client.sessions = [] := by
  unfold start at h
  split at h
  · cases h
  · next st hst =>
    obtain rfl := Except.ok.inj h
    exact ⟨Startup.passed_of_cliParseWith hst, rfl, rfl⟩

/-- **Every session of a client connects to the checked address** that was installed when the client
came up, with that port in canonical form, and is run with the same text, in every state of every
run: no command changes the configuration.

**Proof sketch.** Every step keeps the configuration and the members of the sessions, and a session
is run with the configuration of the moment. A port that has passed its check is a numeral. -/
theorem faithful_of_run {env : Env} {parsed : Parsed} {text : Str}
    (h : start env parsed text = .ok p) {es : List ShellEvent}
    (hrun : Shell.system.run ⟨p, false⟩ es = some s) :
    (∃ ip port path, Config.Passed env ip port path p.client.config) ∧
      Faithful p.client.config s.prompt ∧
      ∃ n ≤ 65535, (target p.client.config).port = decimal n := by
  obtain ⟨⟨ip, port, path, hpassed⟩, -, hsessions⟩ := start_spec h
  have hstart : Faithful p.client.config (Shell.mk p false).prompt :=
    ⟨rfl, by simp [hsessions]⟩
  refine ⟨⟨ip, port, path, hpassed⟩, ?_, ?_⟩
  · exact Shell.system.run_invariant (P := fun s => Faithful p.client.config s.prompt)
      (Q := fun _ => True) (fun _ _ _ hs _ he => hs.step he) hstart (fun _ _ => trivial) hrun
  · obtain ⟨n, rest, hn, -, hport⟩ := Addr.checkPort_eq_ok_iff.mp hpassed.port
    have hdigits : ∀ b ∈ decimal n, (b != 0) = true := fun b hb => by
      have hdigit := isDigit_of_mem_decimal hb
      by_contra hzero
      obtain rfl : b = 0 := by simpa using hzero
      simp [isDigit] at hdigit
    have hcString : cString (decimal n) = decimal n := List.takeWhile_eq_self_iff.mpr hdigits
    exact ⟨n, hn, by rw [target, hport, hcString]⟩

/-- A client with the option `-p 08080`, which is told to connect. -/
theorem faithful_of_run_8080 :
    ∃ p s t, start .small (.options none (some "08080") none none) "connect\n" = .ok p ∧
      Shell.system.run ⟨p, false⟩ [.line] = some s ∧ s.prompt.client.sessions = [t] ∧
      t.members = ⟨"127.0.0.1", "8080", "Hello, World!"⟩ ∧
      Faithful p.client.config s.prompt := by
  obtain ⟨p, s, t, hp, hs, ht, hm⟩ : ∃ p s t,
      start .small (.options none (some "08080") none none) "connect\n" = .ok p ∧
        Shell.system.run ⟨p, false⟩ [.line] = some s ∧ s.prompt.client.sessions = [t] ∧
        t.members = ⟨"127.0.0.1", "8080", "Hello, World!"⟩ := ⟨_, _, _, rfl, rfl, rfl, rfl⟩
  exact ⟨p, s, t, hp, hs, ht, hm, (faithful_of_run hp hs).2.1⟩

end ClientCLI

end Vsna
