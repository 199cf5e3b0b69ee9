import Vsna.Common.Env

set_option relaxedAutoImplicit false
set_option autoImplicit false

/-!
# `Addr`

The class `Addr` of `common/addr.h` and `common/addr.cpp`: an IPv4 address and a port, both kept
as strings, with setters that validate.

## Main definitions

* `Vsna.Addr`, `Addr.setIp`, `Addr.setPort`, `Addr.ofStrings`, `Addr.portNum` — the class.
* `Vsna.Addr.checkIp`, `Vsna.Addr.checkPort` — what the setters store or throw.
* `Vsna.Addr.Valid` — the representation invariant.
* `Vsna.Addr.PortOutcome` — what the port setter makes of a string.
* `Vsna.Addr.ReadsWhole` — the port setter takes no string for a part of it.

## Main results

* `Vsna.Addr.setIp_eq`, `Vsna.Addr.setPort_eq` — a setter stores what passes its check, and else
  throws with the object unchanged.
* `Vsna.Addr.checkPort_eq_ok_iff` — which ports pass.
* `Vsna.Addr.Valid.withIp`, `Vsna.Addr.Valid.withPort` — the setters keep the invariant.
* `Vsna.Addr.portNum_of_decimal`, `Vsna.Addr.setPort_decimal` — the port reads back.
* `Vsna.Addr.setPort_outcome` — the exact outcome of the port setter on numerals of any size.
* `Vsna.Addr.readsWhole_iff` — for which strings no part of a port is silently dropped.
-/

namespace Vsna

open Text

/-- An IPv4 address and a port. -/
@[ext]
structure Addr where
  ip : Str := "0.0.0.0"
  port : Str := "5555"
  deriving DecidableEq

/-- Is the string an IPv4 address? The `system_error` of `make_address` is caught. -/
def isValidIPv4 (env : Env) (ipString : Str) : Bool :=
  match env.makeAddress ipString with
  | .ok addr => addr.isV4
  | .error _ => false

namespace Addr

/-- `Addr::setIp`. -/
def setIp (env : Env) (ip : Str) : EStateM Exn Addr Unit := do
  if ip = [] then
    throw (.invalidArgument "[!] IP cannot be empty")
  if isValidIPv4 env ip = false then
    throw (.invalidArgument ("[!] Invalid IPv4 format: " ++ ip))
  modify fun a => { a with ip := ip }

/-- `Addr::setPort`. -/
def setPort (port : Str) : EStateM Exn Addr Unit := do
  if port = [] then
    throw (.invalidArgument "[!] Port cannot be empty")
  try
    let portNum ← stoiCall port
    if portNum < 0 ∨ portNum > 65535 then
      throw (.outOfRange ("[!] Port out of range (0-65535): " ++ port))
    modify fun a => { a with port := intToString portNum }
  catch
    | .invalidArgument _ => throw (.invalidArgument ("[!] Invalid port: " ++ port))
    | .outOfRange _ => throw (.outOfRange ("[!] Port out of range (0-65535): " ++ port))
    | e => throw e

/-- `Addr::Addr(ip, port)`; an exception leaves no object. -/
def ofStrings (env : Env) (ip port : Str) : Except Exn Addr :=
  match (do setIp env ip; setPort port : EStateM Exn Addr Unit) {} with
  | .ok _ a => .ok a
  | .error e _ => .error e

/-- `portNum()`: `std::stoi` and the conversion to `uint16_t`. -/
def portNum (a : Addr) : Except Exn UInt16 :=
  match (stoiCall a.port : EStateM Exn Unit ℤ) () with
  | .ok v _ => .ok (UInt16.ofInt v)
  | .error e _ => .error e

/-- `toString()`. -/
def toString (a : Addr) : Str := a.ip ++ ":" ++ a.port

/-- The endpoint of an address, as `tcp::endpoint(make_address(ip()), portNum())`. -/
def endpoint (env : Env) (a : Addr) : Except Exn TcpEndpoint :=
  match env.makeAddress a.ip with
  | .error what => .error (.systemError what)
  | .ok address =>
    match a.portNum with
    | .error e => .error e
    | .ok port => .ok ⟨address, port⟩

/-! ## The checks of the setters -/

/-- The string `setIp` stores, or what it throws. -/
def checkIp (env : Env) (ip : Str) : Except Exn Str :=
  if ip = [] then .error (.invalidArgument "[!] IP cannot be empty")
  else if isValidIPv4 env ip = false then
    .error (.invalidArgument ("[!] Invalid IPv4 format: " ++ ip))
  else .ok ip

/-- The string `setPort` stores, or what it throws. -/
def checkPort (port : Str) : Except Exn Str :=
  if port = [] then .error (.invalidArgument "[!] Port cannot be empty")
  else match stoi port with
  | .error .invalidArgument => .error (.invalidArgument ("[!] Invalid port: " ++ port))
  | .error .outOfRange => .error (.outOfRange ("[!] Port out of range (0-65535): " ++ port))
  | .ok v =>
    if v < 0 ∨ v > 65535 then
      .error (.outOfRange ("[!] Port out of range (0-65535): " ++ port))
    else .ok (intToString v)

/-- `setIp` stores what passes the check, and else throws and changes nothing. -/
lemma setIp_eq (env : Env) (ip : Str) (a : Addr) :
    setIp env ip a = stored (fun v => { a with ip := v }) a (checkIp env ip) := by
  unfold setIp checkIp
  split_ifs <;> rfl

/-- `setPort` stores what passes the check, and else throws and changes nothing. -/
lemma setPort_eq (port : Str) (a : Addr) :
    setPort port a = stored (fun v => { a with port := v }) a (checkPort port) := by
  unfold setPort checkPort
  split_ifs with hp
  · rfl
  · unfold stoiCall
    rcases stoi port with (_ | _) | v
    · rfl
    · rfl
    · by_cases hv : v < 0 ∨ v > 65535
      · simp only [pure_bind, if_pos hv]
        rfl
      · simp only [pure_bind, if_neg hv]
        rfl

/-- The constructor succeeds if both checks do, and keeps what they let pass. -/
lemma ofStrings_eq (env : Env) (ip port : Str) :
    ofStrings env ip port =
      match checkIp env ip, checkPort port with
      | .ok i, .ok p => .ok ⟨i, p⟩
      | .error e, _ => .error e
      | .ok _, .error e => .error e := by
  simp only [ofStrings, bind, EStateM.bind, setIp_eq]
  cases checkIp env ip with
  | error e => rfl
  | ok i =>
    simp only [stored, setPort_eq]
    cases checkPort port <;> rfl

/-- The constructor builds what passes both checks. -/
lemma ofStrings_eq_ok_iff {env : Env} {ip port : Str} {a : Addr} :
    ofStrings env ip port = .ok a ↔ checkIp env ip = .ok a.ip ∧ checkPort port = .ok a.port := by
  rw [ofStrings_eq]
  cases checkIp env ip with
  | error e => simp
  | ok i =>
    cases checkPort port with
    | error e => simp
    | ok p => simp [Addr.ext_iff]

/-! ## What passes the checks -/

/-- An IP address that passes is stored as given, and `make_address` takes it for IPv4. -/
lemma checkIp_eq_ok_iff {env : Env} {ip i : Str} :
    checkIp env ip = .ok i ↔
      i = ip ∧ ip ≠ [] ∧ ∃ x, env.makeAddress ip = .ok x ∧ x.isV4 = true := by
  unfold checkIp isValidIPv4
  split_ifs with h₁ h₂
  · simp [h₁]
  · cases hm : env.makeAddress ip <;> simp_all
  · cases hm : env.makeAddress ip with
    | error what => simp [hm] at h₂
    | ok x =>
      refine ⟨fun h => ⟨by simpa using h.symm, h₁, x, rfl, by simpa [hm] using h₂⟩, ?_⟩
      rintro ⟨rfl, -⟩
      rfl

/-- **The two limits act as one.** A numeral in front of the string decides alone what the setter
does, whether a value out of range is stopped by `std::stoi` or by the setter's own check. -/
lemma checkPort_of_scanInt {s rest : Str} {v : ℤ} (h : scanInt s = some (v, rest)) :
    checkPort s = if 0 ≤ v ∧ v ≤ 65535 then .ok (decimal v.toNat)
      else .error (.outOfRange ("[!] Port out of range (0-65535): " ++ s)) := by
  have hs : s ≠ [] := by
    rintro rfl
    simp [scanInt, takeSign] at h
  rw [checkPort, if_neg hs, stoi, h]
  by_cases hint : -2 ^ 31 ≤ v ∧ v < 2 ^ 31
  · simp only [if_pos hint]
    by_cases hv : 0 ≤ v ∧ v ≤ 65535
    · rw [if_neg (by omega), if_pos hv]
      obtain ⟨n, rfl⟩ := Int.eq_ofNat_of_zero_le hv.1
      rfl
    · rw [if_pos (by omega), if_neg hv]
  · simp only [if_neg hint]
    rw [if_neg (by omega)]

/-- Without a numeral in front, the string is an invalid argument. -/
lemma checkPort_of_scanInt_none {s : Str} (h : scanInt s = none) :
    ∃ what, checkPort s = .error (.invalidArgument what) := by
  by_cases hs : s = []
  · exact ⟨_, if_pos hs⟩
  · refine ⟨"[!] Invalid port: " ++ s, ?_⟩
    rw [checkPort, if_neg hs, stoi, h]

/-- A port that passes has a numeral of a value in range in front, and is stored as the canonical
numeral of that value. -/
lemma checkPort_eq_ok_iff {port p : Str} :
    checkPort port = .ok p ↔
      ∃ (n : ℕ) (rest : Str), n ≤ 65535 ∧ scanInt port = some ((n : ℤ), rest) ∧ p = decimal n := by
  cases hscan : scanInt port with
  | none =>
    obtain ⟨what, hcheck⟩ := checkPort_of_scanInt_none hscan
    simp [hcheck]
  | some r =>
    obtain ⟨v, rest⟩ := r
    rw [checkPort_of_scanInt hscan]
    constructor
    · intro h
      split_ifs at h with hv
      obtain ⟨n, rfl⟩ := Int.eq_ofNat_of_zero_le hv.1
      exact ⟨n, rest, by omega, rfl, (Except.ok.inj h).symm⟩
    · rintro ⟨n, rest', hn, heq, rfl⟩
      obtain ⟨rfl, -⟩ : v = n ∧ rest = rest' := by simpa using heq
      exact if_pos (by omega)

/-! ## The representation invariant -/

/-- The representation invariant: an IPv4 address, and the canonical numeral of a port. -/
structure Valid (env : Env) (a : Addr) : Prop where
  ip : a.ip ≠ [] ∧ ∃ x, env.makeAddress a.ip = .ok x ∧ x.isV4 = true
  port : ∃ n : ℕ, n ≤ 65535 ∧ a.port = decimal n

/-- The default address is valid. -/
lemma valid_default {env : Env} (h : env.ReadsAny) : Valid env {} :=
  ⟨⟨by decide, _, h, rfl⟩, 5555, by omega, by decide⟩

/-- What passes the checks makes a valid address. -/
lemma valid_of_checks {env : Env} {ip port i p : Str} (hi : checkIp env ip = .ok i)
    (hp : checkPort port = .ok p) : Valid env ⟨i, p⟩ := by
  obtain ⟨rfl, hne, hx⟩ := checkIp_eq_ok_iff.mp hi
  obtain ⟨n, rest, hn, -, rfl⟩ := checkPort_eq_ok_iff.mp hp
  exact ⟨⟨hne, hx⟩, n, hn, rfl⟩

/-- An address built by the constructor is valid. -/
lemma valid_of_ofStrings {env : Env} {ip port : Str} {a : Addr}
    (h : ofStrings env ip port = .ok a) : Valid env a := by
  obtain ⟨hi, hp⟩ := ofStrings_eq_ok_iff.mp h
  exact valid_of_checks hi hp

variable {env : Env} {a : Addr}

/-- Storing an IP address that passes the check keeps the invariant. -/
lemma Valid.withIp (h : a.Valid env) {ip i : Str} (hi : checkIp env ip = .ok i) :
    Valid env { a with ip := i } := by
  obtain ⟨rfl, hne, hx⟩ := checkIp_eq_ok_iff.mp hi
  exact ⟨⟨hne, hx⟩, h.port⟩

/-- Storing a port that passes the check keeps the invariant. -/
lemma Valid.withPort (h : a.Valid env) {port p : Str} (hp : checkPort port = .ok p) :
    Valid env { a with port := p } := by
  obtain ⟨n, rest, hn, -, rfl⟩ := checkPort_eq_ok_iff.mp hp
  exact ⟨h.ip, n, hn, rfl⟩

/-- The stored port reads back as its number, without loss. -/
lemma portNum_of_decimal {n : ℕ} (hn : n ≤ 65535) (hp : a.port = decimal n) :
    a.portNum = .ok (UInt16.ofNat n) ∧ (UInt16.ofNat n).toNat = n := by
  refine ⟨?_, by rw [UInt16.toNat_ofNat']; exact Nat.mod_eq_of_lt (by omega)⟩
  have hmod : ((n : ℤ) % 2 ^ 16).toNat = n := by omega
  simp only [portNum, hp, stoiCall, stoi_decimal (show n < 2 ^ 31 by omega)]
  exact congrArg (fun v => Except.ok (UInt16.ofNat v)) hmod

/-- Setting the port to what it is succeeds and changes nothing. -/
lemma setPort_decimal {n : ℕ} (hn : n ≤ 65535) (hp : a.port = decimal n) :
    setPort a.port a = .ok () a := by
  have hc : checkPort a.port = .ok (decimal n) :=
    checkPort_eq_ok_iff.mpr ⟨n, [], hn, hp ▸ (isNumeral_decimal n).scanInt, rfl⟩
  rw [setPort_eq, hc, ← hp]
  rfl

/-- A valid address has an endpoint. -/
lemma Valid.endpoint (h : a.Valid env) :
    ∃ ep, a.endpoint env = .ok ep ∧ ep.address.isV4 = true := by
  obtain ⟨-, x, hx, hv4⟩ := h.ip
  obtain ⟨n, hn, hp⟩ := h.port
  refine ⟨⟨x, UInt16.ofNat n⟩, ?_, hv4⟩
  rw [Addr.endpoint, hx, (portNum_of_decimal hn hp).1]

/-! ## What becomes of a numeral -/

/-- The outcome of the port setter on the string `s`, called on the object `a`. -/
structure PortOutcome (s : Str) (a : Addr) : Prop where
  /-- A numeral is accepted if its value is in range. -/
  accepted : ∀ v, IsNumeral s v → ((∃ a', setPort s a = .ok () a') ↔ 0 ≤ v ∧ v ≤ 65535)
  /-- Then its value is stored in canonical form, and reads back. -/
  stored : ∀ v a', IsNumeral s v → setPort s a = .ok () a' →
    a' = { a with port := decimal v.toNat } ∧ Canonical a'.port ∧
      (digitsVal a'.port : ℤ) = v ∧ ∃ w, a'.portNum = .ok w ∧ (w.toNat : ℤ) = v
  /-- Otherwise it is out of range. -/
  outOfRange : ∀ v, IsNumeral s v → ¬ (0 ≤ v ∧ v ≤ 65535) →
    ∃ what, setPort s a = .error (.outOfRange what) a
  /-- A string without a numeral in front is an invalid argument. -/
  invalidArgument : (∀ p v, p <+: s → ¬ IsNumeral p v) →
    ∃ what, setPort s a = .error (.invalidArgument what) a
  /-- What is thrown as an invalid argument was no number for `std::stoi`. -/
  invalidArgument_iff : (∃ what, setPort s a = .error (.invalidArgument what) a) ↔
    stoi s = .error .invalidArgument
  /-- What is thrown as out of range was out of range for `std::stoi` or for the setter. -/
  outOfRange_iff : (∃ what, setPort s a = .error (.outOfRange what) a) ↔
    stoi s = .error .outOfRange ∨ ∃ v, stoi s = .ok v ∧ ¬ (0 ≤ v ∧ v ≤ 65535)

/-- The outcome where there is no numeral in front. -/
lemma portOutcome_of_scanInt_none {s : Str} (h : scanInt s = none) (a : Addr) :
    PortOutcome s a := by
  obtain ⟨what, hcheck⟩ := checkPort_of_scanInt_none h
  have hset : setPort s a = .error (.invalidArgument what) a := by
    rw [setPort_eq, hcheck]
    rfl
  have hstoi : stoi s = .error .invalidArgument := by rw [stoi, h]
  have hnum : ∀ v, ¬ IsNumeral s v := fun v hv => by simp [hv.scanInt] at h
  refine ⟨fun v hv => absurd hv (hnum v), fun v _ hv => absurd hv (hnum v),
    fun v hv => absurd hv (hnum v), fun _ => ⟨what, hset⟩, iff_of_true ⟨what, hset⟩ hstoi,
    iff_of_false ?_ ?_⟩
  · simp [hset]
  · simp [hstoi]

/-- The outcome where the numeral in front has a value in range. -/
lemma portOutcome_of_mem_range {s rest : Str} {v : ℤ} (h : scanInt s = some (v, rest))
    (hv : 0 ≤ v ∧ v ≤ 65535) (a : Addr) : PortOutcome s a := by
  have hset : setPort s a = .ok () { a with port := decimal v.toNat } := by
    rw [setPort_eq, checkPort_of_scanInt h, if_pos hv]
    rfl
  have hstoi : stoi s = .ok v := by
    rw [stoi, h]
    exact if_pos (by omega)
  have hval : ∀ u, IsNumeral s u → u = v := fun u hu => hu.eq_of_scanInt h
  refine ⟨fun u hu => ?_, fun u a' hu ha' => ?_, fun u hu hout => ?_, fun hnone => ?_,
    iff_of_false ?_ ?_, iff_of_false ?_ ?_⟩
  · obtain rfl := hval u hu
    exact iff_of_true ⟨_, hset⟩ hv
  · obtain rfl := hval u hu
    obtain rfl : { a with port := decimal u.toNat } = a' := by simpa [hset] using ha'
    obtain ⟨hport, hnat⟩ := portNum_of_decimal (a := { a with port := decimal u.toNat })
      (n := u.toNat) (by omega) rfl
    refine ⟨rfl, decimal_canonical _, ?_, _, hport, ?_⟩
    · rw [digitsVal_decimal]
      omega
    · rw [hnat]
      omega
  · exact absurd (hval u hu ▸ hv) hout
  · obtain ⟨p, hp, hnum⟩ := exists_isNumeral_of_scanInt h
    exact absurd hnum (hnone p v hp)
  · simp [hset]
  · simp [hstoi]
  · simp [hset]
  · simp only [hstoi, reduceCtorEq, Except.ok.injEq, false_or]
    rintro ⟨u, rfl, hu⟩
    exact hu hv

/-- The outcome where the numeral in front has a value out of range. -/
lemma portOutcome_of_not_mem_range {s rest : Str} {v : ℤ} (h : scanInt s = some (v, rest))
    (hv : ¬ (0 ≤ v ∧ v ≤ 65535)) (a : Addr) : PortOutcome s a := by
  have hset : setPort s a =
      .error (.outOfRange ("[!] Port out of range (0-65535): " ++ s)) a := by
    rw [setPort_eq, checkPort_of_scanInt h, if_neg hv]
    rfl
  have hstoi : stoi s = .error .outOfRange ∨ stoi s = .ok v := by
    rw [stoi, h]
    by_cases hint : -2 ^ 31 ≤ v ∧ v < 2 ^ 31
    · exact Or.inr (if_pos hint)
    · exact Or.inl (if_neg hint)
  have hval : ∀ u, IsNumeral s u → u = v := fun u hu => hu.eq_of_scanInt h
  refine ⟨fun u hu => ?_, fun u a' hu ha' => ?_, fun u hu hout => ⟨_, hset⟩, fun hnone => ?_,
    iff_of_false ?_ ?_, iff_of_true ⟨_, hset⟩ ?_⟩
  · obtain rfl := hval u hu
    exact iff_of_false (by simp [hset]) hv
  · simp [hset] at ha'
  · obtain ⟨p, hp, hnum⟩ := exists_isNumeral_of_scanInt h
    exact absurd hnum (hnone p v hp)
  · simp [hset]
  · rcases hstoi with hstoi | hstoi <;> simp [hstoi]
  · exact hstoi.imp_right fun hstoi => ⟨v, hstoi, hv⟩

/-- **What becomes of a numeral**: every string and every object have this outcome. -/
theorem setPort_outcome (s : Str) (a : Addr) : PortOutcome s a := by
  cases hscan : scanInt s with
  | none => exact portOutcome_of_scanInt_none hscan a
  | some r =>
    by_cases hv : 0 ≤ r.1 ∧ r.1 ≤ 65535
    · exact portOutcome_of_mem_range hscan hv a
    · exact portOutcome_of_not_mem_range hscan hv a

-- a negative zero is zero, and a value beyond a 32-bit integer is out of range like any other
example : setPort " -00" {} = .ok () ⟨"0.0.0.0", "0"⟩ := rfl
example : setPort "99999999999" {} =
    .error (.outOfRange "[!] Port out of range (0-65535): 99999999999") {} := rfl

/-! ## Which strings pass for a port -/

/-- `s` begins with a numeral, and something other than a digit follows it. -/
def Trailing (s : Str) : Prop :=
  ∃ (p : Str) (c : UInt8) (rest : Str) (v : ℤ),
    s = p ++ c :: rest ∧ IsNumeral p v ∧ isDigit c = false

/-- The scan of such a string leaves something over. -/
lemma trailing_iff {s : Str} : Trailing s ↔ ∃ v rest, scanInt s = some (v, rest) ∧ rest ≠ [] := by
  constructor
  · rintro ⟨p, c, rest, v, rfl, hp, hc⟩
    exact ⟨v, c :: rest, scanInt_eq_some_iff.mpr ⟨p, rfl, hp, by simpa using hc⟩, by simp⟩
  · rintro ⟨v, rest, hscan, hne⟩
    obtain ⟨p, hs, hp, hc⟩ := scanInt_eq_some_iff.mp hscan
    obtain ⟨c, rest, rfl⟩ := List.exists_cons_of_ne_nil hne
    exact ⟨p, c, rest, v, hs, hp, hc c (by simp)⟩

/-- The setter complains about an invalid argument only where there is no numeral at all. -/
lemma scanInt_eq_none_of_checkPort {s what : Str}
    (h : checkPort s = .error (.invalidArgument what)) : scanInt s = none := by
  cases hscan : scanInt s with
  | none => rfl
  | some r =>
    rw [checkPort_of_scanInt hscan] at h
    split_ifs at h
    simp at h

/-- The port setter reads the whole of the string `s`: if it accepts `s`, then `s` is a numeral,
and the port denotes its value; a numeral with something after its digits is an invalid argument,
and leaves the object unchanged. -/
structure ReadsWhole (s : Str) : Prop where
  accepted : ∀ a a' : Addr, setPort s a = .ok () a' → ∃ v, IsNumeral s v ∧ IsNumeral a'.port v
  rejected : ∀ (p : Str) (c : UInt8) (rest : Str) (v : ℤ), s = p ++ c :: rest → IsNumeral p v →
    isDigit c = false → ∀ a : Addr, ∃ what, setPort s a = .error (.invalidArgument what) a

/-- **The port setter reads the whole of a string exactly if nothing follows its numeral.**

**Proof sketch.** A string with something after its numeral is either accepted or out of range,
but the setter calls no string with a numeral in it an invalid argument. Conversely, a string
that is accepted has a numeral in front, and if nothing follows it the string is that numeral. -/
theorem readsWhole_iff (s : Str) : ReadsWhole s ↔ ¬ Trailing s := by
  constructor
  · rintro h ht
    obtain ⟨v, rest, hscan, -⟩ := trailing_iff.mp ht
    obtain ⟨p, c, rest', w, hs, hp, hc⟩ := ht
    obtain ⟨what, hset⟩ := h.rejected p c rest' w hs hp hc {}
    rw [setPort_eq] at hset
    cases hcheck : checkPort s with
    | ok q => simp [hcheck, stored] at hset
    | error e =>
      obtain rfl : e = .invalidArgument what := by simpa [hcheck, stored] using hset
      simp [scanInt_eq_none_of_checkPort hcheck] at hscan
  · intro ht
    refine ⟨fun a a' h => ?_, fun p c rest v hs hp hc => absurd ⟨p, c, rest, v, hs, hp, hc⟩ ht⟩
    rw [setPort_eq] at h
    cases hcheck : checkPort s with
    | error e => simp [hcheck, stored] at h
    | ok q =>
      obtain rfl : { a with port := q } = a' := by simpa [hcheck, stored] using h
      obtain ⟨n, rest, -, hscan, rfl⟩ := checkPort_eq_ok_iff.mp hcheck
      have hrest : rest = [] := by
        by_contra hne
        exact ht (trailing_iff.mpr ⟨_, rest, hscan, hne⟩)
      exact ⟨n, isNumeral_of_scanInt (hrest ▸ hscan), isNumeral_decimal n⟩

/-- The setter takes `"80abc"` for port 80. -/
theorem setPort_80abc :
    setPort "80abc" {} = .ok () ⟨"0.0.0.0", "80"⟩ ∧ ¬ ReadsWhole "80abc" := by
  have hok : setPort "80abc" {} = .ok () ⟨"0.0.0.0", "80"⟩ := rfl
  refine ⟨hok, fun h => ?_⟩
  obtain ⟨what, herr⟩ := h.rejected "80" 97 "bc" 80 rfl (isNumeral_decimal 80) (by decide) {}
  rw [hok] at herr
  cases herr

end Addr

end Vsna
