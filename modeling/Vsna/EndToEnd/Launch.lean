import Vsna.Client.Cli
import Vsna.CommandLine.Accept
import Vsna.Server.Cli

set_option relaxedAutoImplicit false
set_option autoImplicit false

/-!
# From the command line to the configuration

`CLIParse` sets up an option parser and lets it loose on the arguments of `main`. This module puts
the parser (`CLI.App.parse`) in front of what `CLIParse` does with its results, and says which
command lines bring up a client or a server, and with which configuration.

## Main definitions

* `Vsna.cliApp`, `Vsna.parseCommandLine` — the parser of `CLIParse`, and what it leaves to it.
* `Vsna.Says` — the values that a command line gives to the options.
* `Vsna.CallsFor` — the configuration that such values call for.

## Main results

* `Vsna.parseCommandLine_eq_options_iff` — the parser finds the values that a command line says.
* `Vsna.ClientCLI.launch_client`, `Vsna.ServerCLI.launch_server` — when a client and a server come
  up.
-/

namespace Vsna

open Text Posix

/-! ## The command line -/

/-- The options that `CLIParse` adds, after the help flag that every application has. -/
def cliOptions : List CLI.AppOption :=
  [⟨104, "help", true⟩, ⟨105, "ip", false⟩, ⟨112, "port", false⟩, ⟨100, "dir", false⟩,
    ⟨99, "config", false⟩]

/-- The application that `CLIParse` sets up, with the text of its help. -/
def cliApp (help : Str) : CLI.App where
  options := cliOptions
  proper := ⟨by decide, by decide, by decide, by decide, by decide⟩
  help := help

/-- `app.parse(argc, argv)` in `CLIParse`, with the handler around it. -/
def parseCommandLine (help : Str) (argv : List Str) : Parsed :=
  match (cliApp help).parse argv with
  | .error e => .parseError ((cliApp help).exitOut e) ((cliApp help).exitErr e) e.what
  | .ok values =>
    .options (values.getD 1 none) (values.getD 2 none) (values.getD 3 none) (values.getD 4 none)

/-- The command line gives these values to the options. -/
def Says (argv : List Str) (ip port path config : Option Str) : Prop :=
  ∃ items, CLI.Reading cliOptions argv.tail items none ∧
    CLI.Accepted cliOptions items [none, ip, port, path, config]

/-- The values call for the configuration: it is made of the values of the options or their
defaults, or, if a configuration file is named, it is described by the document in it. -/
def CallsFor (ip₀ port₀ path₀ : Str) (env : Env) (ip port path config : Option Str) (c : Config) :
    Prop :=
  if config.getD [] = [] then
    Config.Passed env (ip.getD ip₀) (port.getD port₀) (path.getD path₀) c
  else
    ∃ text j, env.fs.readFile (config.getD []) = .contents text ∧ env.parseJson text = .ok j ∧
      Config.Describes env j c

variable {help : Str} {argv : List Str} {ip port path config : Option Str}

/-- The values of an accepted command line are those of the four options. -/
lemma exists_values {items : List CLI.Item} {values : List (Option Str)}
    (h : CLI.Accepted cliOptions items values) :
    ∃ ip port path config, values = [none, ip, port, path, config] := by
  have hlen : values.length = 5 := h.length
  match values with
  | [v₀, v₁, v₂, v₃, v₄] =>
    have hnil : CLI.given 0 items = [] := h.noHelp 0 ⟨104, "help", true⟩ rfl rfl
    have hholds : CLI.Holds (CLI.given 0 items) v₀ := h.holds 0 v₀ rfl
    rw [hnil] at hholds
    cases hholds
    exact ⟨v₁, v₂, v₃, v₄, rfl⟩

/-- **The parser finds the values that a command line says**, and no others. -/
lemma parseCommandLine_eq_options_iff :
    parseCommandLine help argv = .options ip port path config ↔ Says argv ip port path config := by
  have hparse : ∀ values, (cliApp help).parse argv = .ok values ↔ ∃ items,
      CLI.Reading cliOptions argv.tail items none ∧ CLI.Accepted cliOptions items values :=
    fun _ => CLI.parse_eq_ok_iff
  constructor
  · intro h
    unfold parseCommandLine at h
    split at h
    · cases h
    · next values hvalues =>
      obtain ⟨items, hread, hacc⟩ := (hparse _).mp hvalues
      obtain ⟨ip', port', path', config', rfl⟩ := exists_values hacc
      cases h
      exact ⟨items, hread, hacc⟩
  · rintro ⟨items, hread, hacc⟩
    unfold parseCommandLine
    rw [(hparse _).mpr ⟨items, hread, hacc⟩]
    rfl

/-- A command line that says nothing is an error. -/
lemma exists_parseError (h : ∀ ip port path config, ¬ Says argv ip port path config) :
    ∃ out err what, parseCommandLine help argv = .parseError out err what := by
  cases hp : parseCommandLine help argv with
  | parseError out err what => exact ⟨out, err, what, rfl⟩
  | options ip port path config =>
    exact absurd (parseCommandLine_eq_options_iff.mp hp) (h ip port path config)

/-! ## `CLIParse` -/

variable {env : Env} {ip₀ port₀ path₀ : Str} {c : Config} {s : Startup}

/-- A file that has been loaded could be read, and holds a document that describes the
configuration. -/
lemma Config.loadFromFile_eq_ok_iff {filename : Str} :
    loadFromFile env filename = .ok c ↔ ∃ text j, env.fs.readFile filename = .contents text ∧
      env.parseJson text = .ok j ∧ Describes env j c := by
  constructor
  · intro h
    have h' := h
    unfold loadFromFile at h
    split at h
    · cases h
    · cases h
    · next text hread =>
      split at h
      · cases h
      · next j hj =>
        rw [loadFromFile_eq_outcome hread hj] at h'
        exact ⟨text, j, hread, hj, outcome_ofJson_eq_ok_iff.mp h'⟩
  · rintro ⟨text, j, hread, hj, hdesc⟩
    rw [loadFromFile_eq_outcome hread hj]
    exact outcome_ofJson_eq_ok_iff.mpr hdesc

/-- A file that can be read exists. -/
lemma fileExists_of_readFile {fs : FileSystem} {filename text : Str}
    (h : fs.readFile filename = .contents text) : fs.fileExists filename = .ok true := by
  unfold FileSystem.readFile at h
  split at h
  · next st contents hfind => simp [FileSystem.fileExists, FileSystem.status, hfind, Node.status,
      Except.map]
  · split_ifs at h
  · cases h

/-- **When `CLIParse` returns**, and with which configuration. -/
lemma cliParseWith_eq_ok_iff {parsed : Parsed} :
    (∃ s', Startup.cliParseWith ip₀ port₀ path₀ env parsed s = .ok () s' ∧ s'.config = c) ↔
      ∃ ip port path config, parsed = .options ip port path config ∧
        CallsFor ip₀ port₀ path₀ env ip port path config c := by
  cases parsed with
  | parseError out err what =>
    refine iff_of_false ?_ (by rintro ⟨_, _, _, _, ⟨⟩, -⟩)
    rintro ⟨s', ⟨⟩, -⟩
  | options ip port path config =>
    have hinj : (∃ ip' port' path' config',
        Parsed.options ip port path config = .options ip' port' path' config' ∧
          CallsFor ip₀ port₀ path₀ env ip' port' path' config' c) ↔
        CallsFor ip₀ port₀ path₀ env ip port path config c := by
      constructor
      · rintro ⟨_, _, _, _, heq, h⟩
        cases heq
        exact h
      · exact fun h => ⟨_, _, _, _, rfl, h⟩
    rw [hinj]
    by_cases hfile : config.getD [] = []
    · rw [Startup.cliParseWith_flags hfile, CallsFor, if_pos hfile, ← Config.ofFlags_eq_ok_iff]
      cases Config.ofFlags env (ip.getD ip₀) (port.getD port₀) (path.getD path₀) with
      | error e => simp [Startup.installed]
      | ok c' => simp [Startup.installed]
    · rw [CallsFor, if_neg hfile, ← Config.loadFromFile_eq_ok_iff]
      simp only [Startup.cliParseWith, if_pos (show config.getD [] ≠ [] from hfile)]
      cases hex : env.fs.fileExists (config.getD []) with
      | error e =>
        refine iff_of_false (by rintro ⟨s', ⟨⟩, -⟩) fun h => ?_
        obtain ⟨text, j, hread, -⟩ := Config.loadFromFile_eq_ok_iff.mp h
        simp [fileExists_of_readFile hread] at hex
      | ok b =>
        cases b with
        | false =>
          refine iff_of_false (by rintro ⟨s', ⟨⟩, -⟩) fun h => ?_
          obtain ⟨text, j, hread, -⟩ := Config.loadFromFile_eq_ok_iff.mp h
          simp [fileExists_of_readFile hread] at hex
        | true =>
          cases hload : Config.loadFromFile env (config.getD []) with
          | error e => exact iff_of_false (by rintro ⟨s', ⟨⟩, -⟩) (by simp)
          | ok c' =>
            constructor
            · rintro ⟨s', ⟨⟩, rfl⟩
              rfl
            · intro h
              obtain rfl := Except.ok.inj h
              exact ⟨_, rfl, rfl⟩

/-- The same, for the arguments of `main`. -/
lemma cliParseWith_commandLine_iff :
    (∃ s', Startup.cliParseWith ip₀ port₀ path₀ env (parseCommandLine help argv) s = .ok () s' ∧
        s'.config = c) ↔
      ∃ ip port path config, Says argv ip port path config ∧
        CallsFor ip₀ port₀ path₀ env ip port path config c := by
  simp only [cliParseWith_eq_ok_iff, parseCommandLine_eq_options_iff]

/-- A command line that says nothing is reported, and the process exits. -/
lemma exists_exit_of_not_says (h : ∀ ip port path config, ¬ Says argv ip port path config) :
    ∃ s', Startup.cliParseWith ip₀ port₀ path₀ env (parseCommandLine help argv) s =
      .error (.exit (-1)) s' := by
  obtain ⟨out, err, what, hparse⟩ : ∃ out err what,
      parseCommandLine help argv = .parseError out err what := exists_parseError h
  rw [hparse]
  exact ⟨_, rfl⟩

/-! ## Client and server -/

/-- A client that comes up has the configuration that `CLIParse` has installed. -/
lemma ClientCLI.start_config_iff {parsed : Parsed} {text : Str} :
    (∃ p, start env parsed text = .ok p ∧ p.client.config = c) ↔
      ∃ s', cliParse env parsed ⟨{}, "Built as a client.\n", []⟩ = .ok () s' ∧ s'.config = c := by
  unfold start
  cases h : cliParse env parsed ⟨{}, "Built as a client.\n", []⟩ with
  | error stop s' => exact iff_of_false (by rintro ⟨p, ⟨⟩, -⟩) (by rintro ⟨s', ⟨⟩, -⟩)
  | ok u s' =>
    constructor
    · rintro ⟨p, ⟨⟩, hc⟩
      exact ⟨s', rfl, hc⟩
    · rintro ⟨s'', ⟨⟩, hc⟩
      exact ⟨_, rfl, hc⟩

/-- A server that comes up has the configuration that `CLIParse` has installed. -/
lemma ServerCLI.start_config_iff {calls : AcceptorCalls} {parsed : Parsed} {s₀ : Server}
    (hs₀ : Server.construct env calls = .ok s₀) :
    (∃ s, start env calls parsed = .ok s ∧ s.config = c) ↔
      ∃ s', cliParse env parsed ⟨s₀.config, "Built as a server.\n" ++ s₀.cout, s₀.cerr⟩ =
        .ok () s' ∧ s'.config = c := by
  unfold start
  simp only [hs₀]
  cases h : cliParse env parsed ⟨s₀.config, "Built as a server.\n" ++ s₀.cout, s₀.cerr⟩ with
  | error stop s' => exact iff_of_false (by rintro ⟨p, ⟨⟩, -⟩) (by rintro ⟨s', ⟨⟩, -⟩)
  | ok u s' =>
    constructor
    · rintro ⟨p, ⟨⟩, hc⟩
      exact ⟨s', rfl, hc⟩
    · rintro ⟨s'', ⟨⟩, hc⟩
      exact ⟨_, rfl, hc⟩

/-- **When a client comes up**: it reaches its prompt exactly if its command line gives values to
the options that call for a configuration, and has this one. If the command line is not accepted
the process exits.

**Proof sketch.** The parser finds the values that the command line says, and `CLIParse` makes of
them what they call for. -/
theorem ClientCLI.launch_client (env : Env) (help : Str) (argv : List Str) (text : Str) :
    (∀ c, (∃ p, start env (parseCommandLine help argv) text = .ok p ∧ p.client.config = c) ↔
      ∃ ip port path config, Says argv ip port path config ∧
        CallsFor "127.0.0.1" "5555" "/" env ip port path config c) ∧
      ((∀ ip port path config, ¬ Says argv ip port path config) →
        start env (parseCommandLine help argv) text = .error (.exit (-1))) := by
  refine ⟨fun c => start_config_iff.trans cliParseWith_commandLine_iff, fun h => ?_⟩
  obtain ⟨s', hs'⟩ : ∃ s', cliParse env (parseCommandLine help argv)
      ⟨{}, "Built as a client.\n", []⟩ = .error (.exit (-1)) s' := exists_exit_of_not_says h
  unfold start
  simp only [hs']

/-- **When a server comes up**: if its constructor returns, then exactly if its command line gives
values to the options that call for a configuration, and it has this one. If the command line
is not accepted the process exits. -/
theorem ServerCLI.launch_server {env : Env} {calls : AcceptorCalls} {s₀ : Server}
    (hs₀ : Server.construct env calls = .ok s₀) (help : Str) (argv : List Str) :
    (∀ c, (∃ s, start env calls (parseCommandLine help argv) = .ok s ∧ s.config = c) ↔
      ∃ ip port path config, Says argv ip port path config ∧
        CallsFor "0.0.0.0" "5555" "/" env ip port path config c) ∧
      ((∀ ip port path config, ¬ Says argv ip port path config) →
        start env calls (parseCommandLine help argv) = .error (.exit (-1))) := by
  refine ⟨fun c => (start_config_iff hs₀).trans cliParseWith_commandLine_iff, fun h => ?_⟩
  obtain ⟨s', hs'⟩ : ∃ s', cliParse env (parseCommandLine help argv)
      ⟨s₀.config, "Built as a server.\n" ++ s₀.cout, s₀.cerr⟩ = .error (.exit (-1)) s' :=
    exists_exit_of_not_says h
  unfold start
  simp only [hs₀, hs']

/-- A server with `--port=8080` comes up. -/
theorem ServerCLI.launch_server_8080 :
    ∃ s, start .small {} (parseCommandLine [] ["vsna", "--port=8080"]) = .ok s ∧
      s.config = ⟨⟨"0.0.0.0", "8080"⟩, "/"⟩ := by
  obtain ⟨s₀, hs₀⟩ : ∃ s₀, Server.construct .small {} = .ok s₀ := ⟨_, rfl⟩
  have hsays : Says ["vsna", "--port=8080"] none (some "8080") none none :=
    parseCommandLine_eq_options_iff.mp
      (rfl : parseCommandLine [] ["vsna", "--port=8080"] = .options none (some "8080") none none)
  exact ((launch_server hs₀ [] _).1 _).mpr ⟨_, _, _, _, hsays, rfl, rfl, rfl⟩

end Vsna
