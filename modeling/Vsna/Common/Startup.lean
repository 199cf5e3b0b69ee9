import Vsna.Common.ConfigFile

set_option relaxedAutoImplicit false
set_option autoImplicit false

/-!
# `CLIParse`

The function `CLIParse` of `client/cli/client_cli.cpp` and its twin in `server/server_cli.cpp`,
which differ in one default value. The option parser is CLI11's; `CLIParse` starts from what it
did with the command line (`Vsna.Parsed`).

## Main definitions

* `Vsna.Stop`, `Vsna.Startup` — how `CLIParse` may end early, and the state it works on.
* `Vsna.ClientCLI.cliParse`, `Vsna.ServerCLI.cliParse` — the two functions.
* `Vsna.Startup.Closed` — either a checked configuration was installed, or an error was reported
  and the process exited.
* `Vsna.Startup.Contained` — the command lines on which nothing is thrown outside of a handler.
* `Vsna.Config.AgreesWithFlags` — what is loaded from a file is what the options would give.

## Main results

* `Vsna.Startup.cliParseWith_flags` — what `CLIParse` installs for the options.
* `Vsna.Startup.closed_cliParseWith_iff`, `Vsna.cliParse_closed_iff` — start-up error handling is
  closed on exactly these command lines.
* `Vsna.Config.loadFromFile_agrees` — configuration files and options agree.
-/

namespace Vsna

open Text Posix

/-! ## The two functions -/

/-- How a function ends that does not return. -/
inductive Stop
  /-- `exit(code)`. -/
  | exit (code : ℤ)
  /-- An exception. -/
  | exn (e : Exn)
  deriving DecidableEq

/-- What the option parser did: it threw a `ParseError`, about which `app.exit` prints `out` and
`err`, or it stored the values of the options that were given. -/
inductive Parsed
  | parseError (out err what : Str)
  | options (ip port path config : Option Str)

/-- The configuration held by the client or the server, and the output so far. -/
structure Startup where
  config : Config := {}
  cout : Str := []
  cerr : Str := []
  deriving DecidableEq

namespace Startup

/-- A function that may throw. -/
def throwing {α : Type} : Except Exn α → EStateM Stop Startup α
  | .ok a => pure a
  | .error e => throw (.exn e)

/-- Print a line to standard error and call `exit(-1)`. -/
def report (text : Str) : EStateM Stop Startup Unit := do
  modify fun s => { s with cerr := s.cerr ++ (text ++ "\n") }
  throw (.exit (-1))

/-- `setConfig`. -/
def setConfig (c : Config) : EStateM Stop Startup Unit := modify fun s => { s with config := c }

/-- `CLIParse` with the default values of its options. -/
def cliParseWith (ip₀ port₀ path₀ : Str) (env : Env) : Parsed → EStateM Stop Startup Unit
  | .parseError out err what => do
    modify fun s => { s with cout := s.cout ++ out, cerr := s.cerr ++ err }
    report what
  | .options ip port path config => do
    let configFile := config.getD []
    if configFile ≠ [] then
      -- this query may throw, and it stands outside of the handler
      match env.fs.fileExists configFile with
      | .error e => throw (.exn (.filesystemError e.what))
      | .ok true =>
        try
          setConfig (← throwing (Config.loadFromFile env configFile))
        catch
          | .exn e => report e.what
          | stop => throw stop
      | .ok false => report ("[!] File not found: " ++ configFile)
    else
      -- no handler at all on this route
      let addr ← throwing (Addr.ofStrings env (ip.getD ip₀) (port.getD port₀))
      setConfig (← throwing (Config.ofAddr env addr (path.getD path₀)))

end Startup

/-- `ClientCLI::CLIParse`. -/
def ClientCLI.cliParse : Env → Parsed → EStateM Stop Startup Unit :=
  Startup.cliParseWith "127.0.0.1" "5555" "/"

/-- `ServerCLI::CLIParse`. -/
def ServerCLI.cliParse : Env → Parsed → EStateM Stop Startup Unit :=
  Startup.cliParseWith "0.0.0.0" "5555" "/"

/-! ## The options -/

namespace Startup

variable {env : Env} {s s' : Startup} {ip₀ port₀ path₀ : Str}

/-- What `CLIParse` does with a configuration, or with the exception thrown instead. -/
def installed (s : Startup) : Except Exn Config → EStateM.Result Stop Startup Unit
  | .ok c => .ok () { s with config := c }
  | .error e => .error (.exn e) s

/-- **What `CLIParse` makes of its options** without a configuration file: it installs
`Config(Addr(ip, port), path)`, or throws what the constructors throw. -/
lemma cliParseWith_flags {config : Option Str} (h : config.getD [] = []) (ip port path : Option Str)
    (s : Startup) :
    cliParseWith ip₀ port₀ path₀ env (.options ip port path config) s =
      s.installed (Config.ofFlags env (ip.getD ip₀) (port.getD port₀) (path.getD path₀)) := by
  simp only [cliParseWith, h, ne_eq, not_true_eq_false, if_false, Config.ofFlags]
  cases Addr.ofStrings env (ip.getD ip₀) (port.getD port₀) with
  | error e => rfl
  | ok a =>
    simp only [throwing, pure_bind, Except.bind]
    cases Config.ofAddr env a (path.getD path₀) <;> rfl

/-! ## Closed error handling -/

/-- The two good ends of `CLIParse`, started in the state `s`. -/
inductive Closed (env : Env) (s : Startup) : EStateM.Result Stop Startup Unit → Prop
  /-- A configuration has been installed all of whose parts passed their checks. -/
  | installed {s' : Startup} {ip port path : Str} (h : Config.Passed env ip port path s'.config) :
    Closed env s (.ok () s')
  /-- An error has been reported, and `exit(-1)` was called with the configuration untouched. -/
  | exited {s' : Startup} (text : Str) (htext : text ≠ []) (hcerr : s'.cerr = s.cerr ++ text)
    (hconfig : s'.config = s.config) : Closed env s (.error (.exit (-1)) s')

/-- The values are an IPv4 address, a port and a directory that its owner may read, by a path that
has a canonical form. -/
structure ValidFlags (env : Env) (ip port path : Str) : Prop where
  ip : ip ≠ [] ∧ isValidIPv4 env ip = true
  port : ∃ (n : ℕ) (rest : Str), n ≤ 65535 ∧ scanInt port = some ((n : ℤ), rest)
  path : path ≠ [] ∧ env.fs.HasCanonical path ∧
    ∃ st es, env.fs.find path = .ok (.dir st es) ∧ st.mode &&& Config.ownerRead ≠ 0

/-- Nothing is thrown outside of a handler: the option parser has failed, or a configuration file
was named whose path leads somewhere or nowhere, or the values of the other options are valid. -/
def Contained (ip₀ port₀ path₀ : Str) (env : Env) : Parsed → Prop
  | .parseError _ _ _ => True
  | .options ip port path config =>
    if config.getD [] ≠ [] then env.fs.Queryable (config.getD [])
    else ValidFlags env (ip.getD ip₀) (port.getD port₀) (path.getD path₀)

/-- Valid values are those that pass their checks. -/
lemma validFlags_iff {ip port path : Str} :
    ValidFlags env ip port path ↔ ∃ c, Config.Passed env ip port path c := by
  constructor
  · rintro ⟨⟨hne, hv4⟩, ⟨n, rest, hn, hscan⟩, hp, hcanonical, hdir⟩
    obtain ⟨st, es, hfind, -⟩ := id hdir
    obtain ⟨q, hq⟩ := (FileSystem.exists_canonical_iff hfind).mpr hcanonical
    refine ⟨⟨⟨ip, decimal n⟩, q⟩, ?_, Addr.checkPort_eq_ok_iff.mpr ⟨n, rest, hn, hscan, rfl⟩,
      Config.checkPath_eq_ok_iff.mpr ⟨hp, hq, hdir⟩⟩
    rw [Addr.checkIp, if_neg hne, if_neg (by simp [hv4])]
  · rintro ⟨c, hi, hp, hq⟩
    obtain ⟨-, hne, x, hx, hv4⟩ := Addr.checkIp_eq_ok_iff.mp hi
    obtain ⟨n, rest, hn, hscan, -⟩ := Addr.checkPort_eq_ok_iff.mp hp
    obtain ⟨hpath, hc, st, es, hfind, hr⟩ := Config.checkPath_eq_ok_iff.mp hq
    exact ⟨⟨hne, by simp [isValidIPv4, hx, hv4]⟩, ⟨n, rest, hn, hscan⟩, hpath,
      (FileSystem.exists_canonical_iff hfind).mp ⟨_, hc⟩, st, es, hfind, hr⟩

/-- A report is a good end. -/
lemma closed_report (text : Str) {pre : Str} (hcerr : s'.cerr = s.cerr ++ pre)
    (hconfig : s'.config = s.config) : Closed env s (report text s') :=
  .exited (pre ++ (text ++ "\n")) (by simp [ascii]) (by simp [hcerr]) hconfig

/-- **Start-up error handling is closed on exactly the command lines that are contained.**

**Proof sketch.** With a configuration file that exists, everything that is thrown is caught and
reported. Without one, the constructors throw past `CLIParse` what their checks complain about. -/
lemma closed_cliParseWith_iff (s : Startup) (p : Parsed) :
    Closed env s (cliParseWith ip₀ port₀ path₀ env p s) ↔ Contained ip₀ port₀ path₀ env p := by
  cases p with
  | parseError out err what =>
    exact iff_of_true (closed_report what rfl rfl) trivial
  | options ip port path config =>
    by_cases hfile : config.getD [] = []
    · -- the values of the other options
      simp only [Contained, hfile, ne_eq, not_true_eq_false, if_false]
      rw [validFlags_iff, cliParseWith_flags hfile]
      cases hflags : Config.ofFlags env (ip.getD ip₀) (port.getD port₀) (path.getD path₀) with
      | error e =>
        refine iff_of_false (by rintro ⟨⟩) ?_
        rintro ⟨c, hpassed⟩
        simp [Config.ofFlags_eq_ok_iff.mpr hpassed] at hflags
      | ok c =>
        have hpassed := Config.ofFlags_eq_ok_iff.mp hflags
        exact iff_of_true (.installed hpassed) ⟨c, hpassed⟩
    · -- the configuration file
      simp only [cliParseWith, Contained, if_pos (show config.getD [] ≠ [] from hfile),
        ← FileSystem.exists_fileExists_iff]
      cases hex : env.fs.fileExists (config.getD []) with
      | error e => exact iff_of_false (by rintro ⟨⟩) (by simp)
      | ok b =>
        refine iff_of_true ?_ ⟨b, rfl⟩
        cases b with
        | false => exact closed_report _ (List.append_nil _).symm rfl
        | true =>
          cases hload : Config.loadFromFile env (config.getD []) with
          | error e => exact closed_report e.what (List.append_nil _).symm rfl
          | ok c =>
            obtain ⟨ip', port', path', hpassed⟩ := Config.passed_of_loadFromFile hload
            exact .installed hpassed

end Startup

namespace Config

variable {env : Env}

/-- What is loaded from the file that holds the document is what the options would give. -/
structure AgreesWithFlags (env : Env) (filename : Str) (j : Json) : Prop where
  /-- With the options, client and server install `ofFlags`, or throw. -/
  flags : ∀ ip port path s,
    ClientCLI.cliParse env (.options (some ip) (some port) (some path) none) s =
        s.installed (ofFlags env ip port path) ∧
      ServerCLI.cliParse env (.options (some ip) (some port) (some path) none) s =
        s.installed (ofFlags env ip port path)
  /-- The file gives the configuration that its document describes. -/
  loads : ∀ c, loadFromFile env filename = .ok c ↔ Describes env j c
  /-- If the document describes none, an exception is thrown. -/
  throws : (∀ c, ¬ Describes env j c) → ∃ e, loadFromFile env filename = .error e
  /-- A file with another object in it gives the same, if the three members are the same. -/
  others : ∀ filename' text' members members', j = .object members →
    env.fs.readFile filename' = .contents text' → env.parseJson text' = .ok (.object members') →
    (∀ key ∈ [ascii "ip", ascii "port", ascii "path"],
      Json.member members' key = Json.member members key) →
    loadFromFile env filename' = loadFromFile env filename

/-- **The two ways agree**: from a file that holds a document, `loadFromFile` makes what the
options make of the document's three strings, and in every other case it throws. -/
theorem loadFromFile_agrees {filename text : Str} {j : Json}
    (hread : env.fs.readFile filename = .contents text) (hparse : env.parseJson text = .ok j) :
    AgreesWithFlags env filename j where
  flags ip port path s :=
    ⟨Startup.cliParseWith_flags rfl (some ip) (some port) (some path) s,
      Startup.cliParseWith_flags rfl (some ip) (some port) (some path) s⟩
  loads c := by rw [loadFromFile_eq_outcome hread hparse, outcome_ofJson_eq_ok_iff]
  throws h := by
    cases hload : loadFromFile env filename with
    | error e => exact ⟨e, rfl⟩
    | ok c =>
      rw [loadFromFile_eq_outcome hread hparse, outcome_ofJson_eq_ok_iff] at hload
      exact absurd hload (h c)
  others filename' text' members members' hj hread' hparse' hsame := by
    subst hj
    have hmember : ∀ key ∈ [ascii "ip", ascii "port", ascii "path"],
        Json.memberOr members' key = Json.memberOr members key := fun key hkey =>
      congrArg (Option.getD · Json.null) (hsame key hkey)
    rw [loadFromFile_eq_outcome hread hparse, loadFromFile_eq_outcome hread' hparse',
      outcome_ofJson_object, outcome_ofJson_object, hmember _ (by simp), hmember _ (by simp),
      hmember _ (by simp)]

/-! ## An example -/

/-- The text of a configuration file. -/
def sampleText : Str :=
  "\x7b\"ip\": \"0.0.0.0\", \"port\": \"8080\", \"path\": \"/\"\x7d"

/-- The document in it. -/
def sampleJson : Json :=
  .object [("ip", .string "0.0.0.0"), ("path", .string "/"), ("port", .string "8080")]

/-- The small environment with the file `/c`, which has this text. -/
def sampleEnv : Env :=
  { Env.small with
    fs := smallFs
      [(⟨"c", by decide, by decide, by decide, by decide, by decide⟩,
        .file ⟨1000, 1000, 0o644⟩ sampleText)]
    parseJson := fun t =>
      if t = sampleText then .ok sampleJson
      else .error "[json.exception.parse_error.101] parse error" }

/-- The file can be read. -/
lemma readFile_sampleEnv : sampleEnv.fs.readFile "/c" = .contents sampleText := by decide +kernel

/-- The two ways agree on the file, and it can be loaded. -/
theorem loadFromFile_agrees_sampleEnv :
    AgreesWithFlags sampleEnv "/c" sampleJson ∧
      loadFromFile sampleEnv "/c" = .ok ⟨⟨"0.0.0.0", "8080"⟩, "/"⟩ :=
  ⟨loadFromFile_agrees readFile_sampleEnv (by simp [sampleEnv]), by decide +kernel⟩

end Config

end Vsna
