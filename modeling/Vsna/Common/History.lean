import Vsna.Automata.System
import Vsna.Common.ConfigFile

set_option relaxedAutoImplicit false
set_option autoImplicit false

/-!
# Histories of addresses and configurations

Any number of `Addr` and `Config` objects, and any sequence of constructions, copies and setter
calls on them, over a fixed environment. A call that throws is caught, and the history goes on
with the objects as the call has left them.

## Main definitions

* `Vsna.Heap`, `Vsna.HeapOp`, `Vsna.Heap.exec` — the objects, the operations, and what an
  operation does.
* `Vsna.Heap.history` — the transition system of all histories.
* `Vsna.Addr.Sound`, `Vsna.Tracked.Sound` — the representation invariants.
* `Vsna.HeapOp.OwnField` — a setter has changed its own field only.

## Main results

* `Vsna.Heap.exec_throws` — a call that throws changes nothing.
* `Vsna.Heap.exec_ownField` — a setter that succeeds changes only its own field.
* `Vsna.Heap.exec_valid` — every operation keeps the invariant.
* `Vsna.Heap.history_sound` — all of this holds in every history.
-/

namespace Vsna

open Text Posix

/-! ## Objects and operations -/

/-- A configuration object, with a note on whether the path it holds was set by `setPath`. A
copy takes the note over with the value. -/
structure Tracked where
  config : Config := {}
  /-- Has `setPath` succeeded on this value? -/
  pathSet : Bool := false

/-- The objects of a history. -/
structure Heap where
  addrs : List Addr := []
  configs : List Tracked := []

/-- The operations of a history. Objects are given by their index. -/
inductive HeapOp
  /-- `Addr()`. -/
  | newAddr
  /-- `Addr(ip, port)`. -/
  | newAddrOf (ip port : Str)
  /-- Copy construction from the address `i`. -/
  | copyAddr (i : ℕ)
  /-- Assignment of the address `j` to the address `i`. -/
  | assignAddr (i j : ℕ)
  /-- `setIp` on the address `i`. -/
  | setIp (i : ℕ) (ip : Str)
  /-- `setPort` on the address `i`. -/
  | setPort (i : ℕ) (port : Str)
  /-- `Config()`. -/
  | newConfig
  /-- `Config(addr, path)` with the address `i`. -/
  | newConfigOf (i : ℕ) (path : Str)
  /-- `Config::loadFromFile`. -/
  | loadFromFile (filename : Str)
  /-- Copy construction from the configuration `k`. -/
  | copyConfig (k : ℕ)
  /-- Assignment of the configuration `l` to the configuration `k`. -/
  | assignConfig (k l : ℕ)
  /-- `setAddr` on the configuration `k`, with the address `i`. -/
  | setAddr (k i : ℕ)
  /-- `setPath` on the configuration `k`. -/
  | setPath (k : ℕ) (path : Str)
  /-- A copy of the address of the configuration `k`, from `getAddr`. -/
  | getAddr (k : ℕ)

/-- Run a setter of the configuration. -/
def Tracked.call (t : Tracked) (f : EStateM Exn Config Unit) (pathSet : Bool) :
    EStateM.Result Exn Tracked Unit :=
  match f t.config with
  | .ok _ c => .ok () ⟨c, pathSet⟩
  | .error e c => .error e ⟨c, t.pathSet⟩

namespace Heap

variable (env : Env) (h : Heap)

/-- Put the outcome of a call on the address `i` into the heap. -/
def putAddr (i : ℕ) : EStateM.Result Exn Addr Unit → Option Exn × Heap
  | .ok _ a => (none, { h with addrs := h.addrs.set i a })
  | .error e a => (some e, { h with addrs := h.addrs.set i a })

/-- Put the outcome of a call on the configuration `k` into the heap. -/
def putConfig (k : ℕ) : EStateM.Result Exn Tracked Unit → Option Exn × Heap
  | .ok _ t => (none, { h with configs := h.configs.set k t })
  | .error e t => (some e, { h with configs := h.configs.set k t })

/-- Add the address that a constructor has built. -/
def addAddr : Except Exn Addr → Option Exn × Heap
  | .ok a => (none, { h with addrs := h.addrs ++ [a] })
  | .error e => (some e, h)

/-- Add the configuration that a constructor or `loadFromFile` has built. -/
def addConfig : Except Exn Config → Option Exn × Heap
  | .ok c => (none, { h with configs := h.configs ++ [⟨c, true⟩] })
  | .error e => (some e, h)

/-- What an operation throws, if it throws, and the objects after it. It is not enabled if one of
its objects does not exist. -/
def exec : HeapOp → Option (Option Exn × Heap)
  | .newAddr => some (h.addAddr (.ok {}))
  | .newAddrOf ip port => some (h.addAddr (Addr.ofStrings env ip port))
  | .copyAddr i => h.addrs[i]?.map fun a => h.addAddr (.ok a)
  | .assignAddr i j => do
    let _ ← h.addrs[i]?
    let a ← h.addrs[j]?
    return h.putAddr i (.ok () a)
  | .setIp i ip => h.addrs[i]?.map fun a => h.putAddr i (Addr.setIp env ip a)
  | .setPort i port => h.addrs[i]?.map fun a => h.putAddr i (Addr.setPort port a)
  | .newConfig => some (none, { h with configs := h.configs ++ [{}] })
  | .newConfigOf i path => h.addrs[i]?.map fun a => h.addConfig (Config.ofAddr env a path)
  | .loadFromFile filename => some (h.addConfig (Config.loadFromFile env filename))
  | .copyConfig k => h.configs[k]?.map fun t => (none, { h with configs := h.configs ++ [t] })
  | .assignConfig k l => do
    let _ ← h.configs[k]?
    let t ← h.configs[l]?
    return h.putConfig k (.ok () t)
  | .setAddr k i => do
    let t ← h.configs[k]?
    let a ← h.addrs[i]?
    return h.putConfig k (t.call (Config.setAddr a) t.pathSet)
  | .setPath k path =>
    h.configs[k]?.map fun t => h.putConfig k (t.call (Config.setPath env path) true)
  | .getAddr k => h.configs[k]?.map fun t => h.addAddr (.ok t.config.addr)

/-- All histories: they begin without objects. -/
def history : Automata.System Unit Heap HeapOp where
  start _ := {}
  step h op := (h.exec env op).map Prod.snd

end Heap

/-! ## The invariants -/

/-- The representation invariant of an address, as its users rely on it. -/
structure Addr.Sound (env : Env) (a : Addr) : Prop where
  /-- The port is the canonical numeral of a port number, and reads back as that number. -/
  port : ∃ n : ℕ, n ≤ 65535 ∧ Canonical a.port ∧ digitsVal a.port = n ∧
    ∃ w, a.portNum = .ok w ∧ w.toNat = n
  /-- Setting the port to what it is changes nothing. -/
  setPort : Addr.setPort a.port a = .ok () a
  /-- `make_address` takes the IP address for an IPv4 address. -/
  ip : ∃ x, env.makeAddress a.ip = .ok x ∧ x.isV4 = true
  /-- The endpoint is formed without an exception. -/
  endpoint : ∃ ep, a.endpoint env = .ok ep

/-- The representation invariant of a configuration, as its users rely on it. -/
structure Tracked.Sound (env : Env) (t : Tracked) : Prop where
  addr : t.config.addr.Sound env
  /-- The path is empty only if it was never set. -/
  unset : t.config.path = [] → t.pathSet = false
  /-- Any other path is the canonical path of a directory. -/
  canonical : t.config.path ≠ [] → env.fs.canonical t.config.path = .ok t.config.path ∧
    env.fs.isDirectory t.config.path = .ok true
  /-- Setting it again changes nothing. -/
  setPath : t.config.path ≠ [] →
    Config.setPath env t.config.path t.config = .ok () t.config

/-- A valid address is sound. -/
lemma Addr.Valid.sound {env : Env} {a : Addr} (h : a.Valid env) : a.Sound env := by
  obtain ⟨n, hn, hp⟩ := h.port
  obtain ⟨ep, hep, -⟩ := h.endpoint
  have hnum := portNum_of_decimal hn hp
  exact ⟨⟨n, hn, hp ▸ decimal_canonical n, hp ▸ digitsVal_decimal n, _, hnum⟩,
    setPort_decimal hn hp, h.ip.2, ep, hep⟩

/-- The invariant of a configuration object, in terms of what the setters store. -/
structure Tracked.Valid (env : Env) (t : Tracked) : Prop where
  addr : t.config.addr.Valid env
  unset : t.pathSet = false → t.config.path = []
  path : t.pathSet = true → Config.DirectoryPath env t.config.path

/-- A valid configuration object is sound. -/
lemma Tracked.Valid.sound {env : Env} {t : Tracked} (h : t.Valid env) : t.Sound env := by
  have hdir : t.config.path ≠ [] → Config.DirectoryPath env t.config.path := fun hne =>
    h.path (by by_contra hset; exact hne (h.unset (by simpa using hset)))
  refine ⟨h.addr.sound, fun hnil => ?_, fun hne => ?_, fun hne => (hdir hne).setPath⟩
  · by_contra hset
    obtain ⟨pos, -, -, hpos, -⟩ := h.path (by simpa using hset)
    exact render_ne_nil pos (hpos ▸ hnil)
  · obtain ⟨-, hc, st, es, hfind, -⟩ := Config.checkPath_eq_ok_iff.mp (hdir hne).checkPath
    refine ⟨hc, ?_⟩
    rw [FileSystem.isDirectory, FileSystem.status, hfind]
    rfl

/-- All objects of a heap are valid. -/
structure Heap.Valid (env : Env) (h : Heap) : Prop where
  addrs : ∀ a ∈ h.addrs, a.Valid env
  configs : ∀ t ∈ h.configs, t.Valid env

/-! ## What an operation does -/

namespace Tracked

/-- `setAddr` stores the address. -/
lemma call_setAddr (t : Tracked) (a : Addr) :
    t.call (Config.setAddr a) t.pathSet = .ok () ⟨{ t.config with addr := a }, t.pathSet⟩ := rfl

/-- `setPath` stores what passes the check, and else throws and changes nothing. -/
lemma call_setPath (env : Env) (t : Tracked) (p : Str) :
    t.call (Config.setPath env p) true =
      stored (fun q => ⟨{ t.config with path := q }, true⟩) t (Config.checkPath env p) := by
  rw [call, Config.setPath_eq]
  cases Config.checkPath env p <;> rfl

end Tracked

namespace Heap

variable {env : Env} {h h' : Heap}

/-- A setter of an address that throws changes nothing. -/
lemma putAddr_stored_throws {put : Str → Addr} {a : Addr} {i : ℕ} {r : Except Exn Str} {e : Exn}
    (hi : h.addrs[i]? = some a) (he : h.putAddr i (stored put a r) = (some e, h')) : h' = h := by
  obtain ⟨hlt, hget⟩ := List.getElem?_eq_some_iff.mp hi
  cases r with
  | ok v => simp [stored, putAddr] at he
  | error e' =>
    simp only [stored, putAddr, Prod.mk.injEq] at he
    rw [← he.2, ← hget, List.set_getElem_self]

/-- A setter of a configuration that throws changes nothing. -/
lemma putConfig_stored_throws {put : Str → Tracked} {t : Tracked} {k : ℕ} {r : Except Exn Str}
    {e : Exn} (hk : h.configs[k]? = some t) (he : h.putConfig k (stored put t r) = (some e, h')) :
    h' = h := by
  obtain ⟨hlt, hget⟩ := List.getElem?_eq_some_iff.mp hk
  cases r with
  | ok v => simp [stored, putConfig] at he
  | error e' =>
    simp only [stored, putConfig, Prod.mk.injEq] at he
    rw [← he.2, ← hget, List.set_getElem_self]

/-- A constructor of an address that throws changes nothing. -/
lemma addAddr_throws {r : Except Exn Addr} {e : Exn} (he : h.addAddr r = (some e, h')) :
    h' = h := by
  cases r with
  | ok a => simp [addAddr] at he
  | error e' => exact ((Prod.mk.injEq ..).mp he).2.symm

/-- A constructor of a configuration that throws changes nothing. -/
lemma addConfig_throws {r : Except Exn Config} {e : Exn} (he : h.addConfig r = (some e, h')) :
    h' = h := by
  cases r with
  | ok c => simp [addConfig] at he
  | error e' => exact ((Prod.mk.injEq ..).mp he).2.symm

/-- **A call that throws changes nothing.** -/
lemma exec_throws {op : HeapOp} {e : Exn} (he : h.exec env op = some (some e, h')) : h' = h := by
  cases op with
  | newAddr => exact addAddr_throws (Option.some.inj he)
  | newAddrOf ip port => exact addAddr_throws (Option.some.inj he)
  | copyAddr i =>
    obtain ⟨a, -, ha⟩ := Option.map_eq_some_iff.mp he
    exact addAddr_throws ha
  | assignAddr i j =>
    simp only [exec, Option.bind_eq_bind, Option.bind_eq_some_iff] at he
    obtain ⟨-, -, a, -, ha⟩ := he
    simp [putAddr] at ha
  | setIp i ip =>
    obtain ⟨a, hi, ha⟩ := Option.map_eq_some_iff.mp he
    rw [Addr.setIp_eq] at ha
    exact putAddr_stored_throws hi ha
  | setPort i port =>
    obtain ⟨a, hi, ha⟩ := Option.map_eq_some_iff.mp he
    rw [Addr.setPort_eq] at ha
    exact putAddr_stored_throws hi ha
  | newConfig => simp [exec] at he
  | newConfigOf i path =>
    obtain ⟨a, -, ha⟩ := Option.map_eq_some_iff.mp he
    exact addConfig_throws ha
  | loadFromFile filename => exact addConfig_throws (Option.some.inj he)
  | copyConfig k => simp [exec] at he
  | assignConfig k l =>
    simp only [exec, Option.bind_eq_bind, Option.bind_eq_some_iff] at he
    obtain ⟨-, -, t, -, ht⟩ := he
    simp [putConfig] at ht
  | setAddr k i =>
    simp only [exec, Option.bind_eq_bind, Option.bind_eq_some_iff] at he
    obtain ⟨t, -, a, -, ha⟩ := he
    simp [Tracked.call_setAddr, putConfig] at ha
  | setPath k path =>
    obtain ⟨t, hk, ht⟩ := Option.map_eq_some_iff.mp he
    rw [Tracked.call_setPath] at ht
    exact putConfig_stored_throws hk ht
  | getAddr k =>
    obtain ⟨t, -, ht⟩ := Option.map_eq_some_iff.mp he
    exact addAddr_throws ht

end Heap

/-- A setter has changed only its own field, and only in the object it was called on. -/
def HeapOp.OwnField (h : Heap) : HeapOp → Heap → Prop
  | .setIp i _, h' => ∃ a v, h.addrs[i]? = some a ∧
      h' = { h with addrs := h.addrs.set i { a with ip := v } }
  | .setPort i _, h' => ∃ a v, h.addrs[i]? = some a ∧
      h' = { h with addrs := h.addrs.set i { a with port := v } }
  | .setAddr k _, h' => ∃ t v, h.configs[k]? = some t ∧
      h' = { h with configs := h.configs.set k ⟨{ t.config with addr := v }, t.pathSet⟩ }
  | .setPath k _, h' => ∃ t v, h.configs[k]? = some t ∧
      h' = { h with configs := h.configs.set k ⟨{ t.config with path := v }, true⟩ }
  | _, _ => True

namespace Heap

variable {env : Env} {h h' : Heap}

/-- A setter of an address that succeeds stores a string. -/
lemma putAddr_stored_returns {put : Str → Addr} {a : Addr} {i : ℕ} {r : Except Exn Str}
    (he : h.putAddr i (stored put a r) = (none, h')) :
    ∃ v, r = .ok v ∧ h' = { h with addrs := h.addrs.set i (put v) } := by
  cases r with
  | ok v => exact ⟨v, rfl, ((Prod.mk.injEq ..).mp he).2.symm⟩
  | error e => simp [stored, putAddr] at he

/-- A setter of a configuration that succeeds stores a string. -/
lemma putConfig_stored_returns {put : Str → Tracked} {t : Tracked} {k : ℕ} {r : Except Exn Str}
    (he : h.putConfig k (stored put t r) = (none, h')) :
    ∃ v, r = .ok v ∧ h' = { h with configs := h.configs.set k (put v) } := by
  cases r with
  | ok v => exact ⟨v, rfl, ((Prod.mk.injEq ..).mp he).2.symm⟩
  | error e => simp [stored, putConfig] at he

/-- **A setter that succeeds changes only its own field.** -/
lemma exec_ownField {op : HeapOp} (he : h.exec env op = some (none, h')) : op.OwnField h h' := by
  cases op with
  | setIp i ip =>
    obtain ⟨a, hi, ha⟩ := Option.map_eq_some_iff.mp he
    rw [Addr.setIp_eq] at ha
    obtain ⟨v, -, rfl⟩ := putAddr_stored_returns ha
    exact ⟨a, v, hi, rfl⟩
  | setPort i port =>
    obtain ⟨a, hi, ha⟩ := Option.map_eq_some_iff.mp he
    rw [Addr.setPort_eq] at ha
    obtain ⟨v, -, rfl⟩ := putAddr_stored_returns ha
    exact ⟨a, v, hi, rfl⟩
  | setAddr k i =>
    simp only [exec, Option.bind_eq_bind, Option.bind_eq_some_iff] at he
    obtain ⟨t, hk, a, -, ha⟩ := he
    exact ⟨t, a, hk, ((Prod.mk.injEq ..).mp (Option.some.inj ha)).2.symm⟩
  | setPath k path =>
    obtain ⟨t, hk, ht⟩ := Option.map_eq_some_iff.mp he
    rw [Tracked.call_setPath] at ht
    obtain ⟨v, -, rfl⟩ := putConfig_stored_returns ht
    exact ⟨t, v, hk, rfl⟩
  | _ => trivial

/-! ## Histories -/

/-- A new address keeps the invariant. -/
lemma Valid.addAddr (hv : h.Valid env) {a : Addr} (ha : a.Valid env) :
    Valid env { h with addrs := h.addrs ++ [a] } := by
  refine ⟨fun b hb => ?_, hv.configs⟩
  rcases List.mem_append.mp hb with hb | hb
  · exact hv.addrs b hb
  · exact (List.mem_singleton.mp hb) ▸ ha

/-- A new configuration keeps the invariant. -/
lemma Valid.addConfig (hv : h.Valid env) {t : Tracked} (ht : t.Valid env) :
    Valid env { h with configs := h.configs ++ [t] } := by
  refine ⟨hv.addrs, fun b hb => ?_⟩
  rcases List.mem_append.mp hb with hb | hb
  · exact hv.configs b hb
  · exact (List.mem_singleton.mp hb) ▸ ht

/-- A changed address keeps the invariant. -/
lemma Valid.setAddr (hv : h.Valid env) (i : ℕ) {a : Addr} (ha : a.Valid env) :
    Valid env { h with addrs := h.addrs.set i a } := by
  refine ⟨fun b hb => ?_, hv.configs⟩
  rcases List.mem_or_eq_of_mem_set hb with hb | rfl
  · exact hv.addrs b hb
  · exact ha

/-- A changed configuration keeps the invariant. -/
lemma Valid.setConfig (hv : h.Valid env) (k : ℕ) {t : Tracked} (ht : t.Valid env) :
    Valid env { h with configs := h.configs.set k t } := by
  refine ⟨hv.addrs, fun b hb => ?_⟩
  rcases List.mem_or_eq_of_mem_set hb with hb | rfl
  · exact hv.configs b hb
  · exact ht

/-- An address that a constructor has built is in the heap afterwards. -/
lemma addAddr_returns {r : Except Exn Addr} (he : h.addAddr r = (none, h')) :
    ∃ a, r = .ok a ∧ h' = { h with addrs := h.addrs ++ [a] } := by
  cases r with
  | ok a => exact ⟨a, rfl, ((Prod.mk.injEq ..).mp he).2.symm⟩
  | error e => simp [Heap.addAddr] at he

/-- A configuration that was built is in the heap afterwards. -/
lemma addConfig_returns {r : Except Exn Config} (he : h.addConfig r = (none, h')) :
    ∃ c, r = .ok c ∧ h' = { h with configs := h.configs ++ [⟨c, true⟩] } := by
  cases r with
  | ok c => exact ⟨c, rfl, ((Prod.mk.injEq ..).mp he).2.symm⟩
  | error e => simp [Heap.addConfig] at he

/-- **Every operation keeps the invariant.**

**Proof sketch.** A call that throws changes nothing. A call that returns adds or replaces one
object, and what it stores in it has passed the check of its field. -/
lemma exec_valid (hany : env.ReadsAny) {op : HeapOp} {out : Option Exn} (hv : h.Valid env)
    (he : h.exec env op = some (out, h')) : h'.Valid env := by
  cases out with
  | some e => exact exec_throws he ▸ hv
  | none =>
    cases op with
    | newAddr =>
      obtain ⟨a, ha, rfl⟩ := addAddr_returns (Option.some.inj he)
      obtain rfl : ({} : Addr) = a := Except.ok.inj ha
      exact hv.addAddr (Addr.valid_default hany)
    | newAddrOf ip port =>
      obtain ⟨a, ha, rfl⟩ := addAddr_returns (Option.some.inj he)
      exact hv.addAddr (Addr.valid_of_ofStrings ha)
    | copyAddr i =>
      obtain ⟨b, hi, hb⟩ := Option.map_eq_some_iff.mp he
      obtain ⟨a, ha, rfl⟩ := addAddr_returns hb
      obtain rfl : b = a := Except.ok.inj ha
      exact hv.addAddr (hv.addrs b (List.mem_of_getElem? hi))
    | assignAddr i j =>
      simp only [exec, Option.bind_eq_bind, Option.bind_eq_some_iff] at he
      obtain ⟨-, -, a, hj, ha⟩ := he
      obtain rfl := ((Prod.mk.injEq ..).mp (Option.some.inj ha)).2
      exact hv.setAddr i (hv.addrs a (List.mem_of_getElem? hj))
    | setIp i ip =>
      obtain ⟨a, hi, ha⟩ := Option.map_eq_some_iff.mp he
      rw [Addr.setIp_eq] at ha
      obtain ⟨v, hcheck, rfl⟩ := putAddr_stored_returns ha
      exact hv.setAddr i ((hv.addrs a (List.mem_of_getElem? hi)).withIp hcheck)
    | setPort i port =>
      obtain ⟨a, hi, ha⟩ := Option.map_eq_some_iff.mp he
      rw [Addr.setPort_eq] at ha
      obtain ⟨v, hcheck, rfl⟩ := putAddr_stored_returns ha
      exact hv.setAddr i ((hv.addrs a (List.mem_of_getElem? hi)).withPort hcheck)
    | newConfig =>
      obtain rfl := ((Prod.mk.injEq ..).mp (Option.some.inj he)).2
      exact hv.addConfig ⟨Addr.valid_default hany, fun _ => rfl, by simp⟩
    | newConfigOf i path =>
      obtain ⟨a, hi, ha⟩ := Option.map_eq_some_iff.mp he
      obtain ⟨c, hc, rfl⟩ := addConfig_returns ha
      rw [Config.ofAddr_eq] at hc
      obtain ⟨q, hq, rfl⟩ : ∃ q, Config.checkPath env path = .ok q ∧ (⟨a, q⟩ : Config) = c := by
        cases hq : Config.checkPath env path with
        | error e => rw [hq] at hc; cases hc
        | ok q => rw [hq] at hc; exact ⟨q, rfl, Except.ok.inj hc⟩
      exact hv.addConfig ⟨hv.addrs a (List.mem_of_getElem? hi), by simp,
        fun _ => Config.directoryPath_of_checkPath hq⟩
    | loadFromFile filename =>
      obtain ⟨c, hc, rfl⟩ := addConfig_returns (Option.some.inj he)
      obtain ⟨ip, port, path, hpassed⟩ := Config.passed_of_loadFromFile hc
      exact hv.addConfig ⟨hpassed.valid.1, by simp, fun _ => hpassed.valid.2⟩
    | copyConfig k =>
      obtain ⟨t, hk, ht⟩ := Option.map_eq_some_iff.mp he
      obtain rfl := ((Prod.mk.injEq ..).mp ht).2
      exact hv.addConfig (hv.configs t (List.mem_of_getElem? hk))
    | assignConfig k l =>
      simp only [exec, Option.bind_eq_bind, Option.bind_eq_some_iff] at he
      obtain ⟨-, -, t, hl, ht⟩ := he
      obtain rfl := ((Prod.mk.injEq ..).mp (Option.some.inj ht)).2
      exact hv.setConfig k (hv.configs t (List.mem_of_getElem? hl))
    | setAddr k i =>
      simp only [exec, Option.bind_eq_bind, Option.bind_eq_some_iff] at he
      obtain ⟨t, hk, a, hi, ha⟩ := he
      obtain rfl := ((Prod.mk.injEq ..).mp (Option.some.inj ha)).2
      have ht := hv.configs t (List.mem_of_getElem? hk)
      exact hv.setConfig k ⟨hv.addrs a (List.mem_of_getElem? hi), ht.unset, ht.path⟩
    | setPath k path =>
      obtain ⟨t, hk, ht⟩ := Option.map_eq_some_iff.mp he
      rw [Tracked.call_setPath] at ht
      obtain ⟨v, hcheck, rfl⟩ := putConfig_stored_returns ht
      exact hv.setConfig k ⟨(hv.configs t (List.mem_of_getElem? hk)).addr, by simp,
        fun _ => Config.directoryPath_of_checkPath hcheck⟩
    | getAddr k =>
      obtain ⟨t, hk, ht⟩ := Option.map_eq_some_iff.mp he
      obtain ⟨a, ha, rfl⟩ := addAddr_returns ht
      obtain rfl : t.config.addr = a := Except.ok.inj ha
      exact hv.addAddr (hv.configs t (List.mem_of_getElem? hk)).addr

/-- Every object of every history is valid. -/
lemma valid_of_reachable (hany : env.ReadsAny) (hr : (history env).Reachable h) :
    h.Valid env := by
  refine hr.invariant (fun _ => ⟨by simp [history], by simp [history]⟩) fun s op s' hs hop => ?_
  obtain ⟨⟨out, h''⟩, he, rfl⟩ := Option.map_eq_some_iff.mp hop
  exact exec_valid hany hs he

/-- **Representation invariant and exception safety of `Addr` and `Config`.** In every history
all objects are sound, a call that throws changes nothing, and a setter that succeeds changes
only its own field. -/
theorem history_sound (hany : env.ReadsAny) (hr : (history env).Reachable h) :
    (∀ a ∈ h.addrs, a.Sound env) ∧ (∀ t ∈ h.configs, t.Sound env) ∧
      (∀ op e h', h.exec env op = some (some e, h') → h' = h) ∧
      ∀ op h', h.exec env op = some (none, h') → op.OwnField h h' := by
  have hv := valid_of_reachable hany hr
  exact ⟨fun a ha => (hv.addrs a ha).sound, fun t ht => (hv.configs t ht).sound,
    fun _ _ _ he => exec_throws he, fun _ _ he => exec_ownField he⟩

/-- A history with a setter that throws, one that succeeds, and a configuration. -/
theorem history_sound_small :
    let h : Heap := ⟨[⟨"0.0.0.0", "80"⟩], [⟨⟨⟨"0.0.0.0", "80"⟩, "/"⟩, true⟩]⟩
    (∀ a ∈ h.addrs, a.Sound .small) ∧ (∀ t ∈ h.configs, t.Sound .small) ∧
      (∀ op e h', h.exec .small op = some (some e, h') → h' = h) ∧
      ∀ op h', h.exec .small op = some (none, h') → op.OwnField h h' := by
  have hrun : (history .small).run ((history .small).start ())
      [.newAddr, .setPort 0 "70000", .setPort 0 "80", .newConfigOf 0 "/"] =
      some ⟨[⟨"0.0.0.0", "80"⟩], [⟨⟨⟨"0.0.0.0", "80"⟩, "/"⟩, true⟩]⟩ := rfl
  exact history_sound Env.readsAny_small (Automata.System.reachable_of_run hrun)

end Heap

end Vsna
