import Vsna.Common.Config

set_option relaxedAutoImplicit false
set_option autoImplicit false

/-!
# Configuration files

What `loadFromFile` makes of the document in a file: the document stands for the three strings in
its members `ip`, `port` and `path`, and nothing else in it counts. The accessor `operator[]` may
insert a member into the document; this shows in no result, since the member it inserts is null,
and the reading stops there.

## Main definitions

* `Vsna.Json.memberOr`, `Vsna.Json.asString` — a member of an object as the accessor gives it,
  and its string.
* `Vsna.Config.Describes` — the document describes this configuration.

## Main results

* `Vsna.Config.outcome_ofJson_object` — only three members of the document count.
* `Vsna.Config.outcome_ofJson_eq_ok_iff` — a document gives the configuration that it describes.
* `Vsna.Config.passed_of_loadFromFile` — a configuration that was loaded has passed all checks.
-/

namespace Vsna

open Text Posix

/-! ## Outcomes -/

/-- The outcome of a computation, without the state it leaves. -/
def outcome {σ α : Type} : EStateM.Result Exn σ α → Except Exn α
  | .ok a _ => .ok a
  | .error e _ => .error e

/-- The string in a value, or the exception that `get<std::string>()` throws. -/
def Json.asString (j : Json) : Except Exn Str := outcome ((j.getString : EStateM Exn Unit Str) ())

/-- The member of an object that `operator[]` refers to: null if it was missing. -/
def Json.memberOr (members : List (Str × Json)) (key : Str) : Json :=
  (Json.member members key).getD .null

/-- Only a string has a string in it. -/
lemma Json.asString_eq_ok_iff {j : Json} {s : Str} : j.asString = .ok s ↔ j = .string s := by
  constructor
  · intro h
    cases j with
    | string t => exact congrArg Json.string (Except.ok.inj h)
    | _ => cases h
  · rintro rfl
    rfl

/-- A member that is a string was not missing. -/
lemma Json.memberOr_eq_string_iff {members : List (Str × Json)} {key s : Str} :
    Json.memberOr members key = .string s ↔ Json.member members key = some (.string s) := by
  unfold memberOr
  cases Json.member members key with
  | none => simp
  | some j => simp

/-- What `operator[]` does to an object: it may insert the member as null. -/
lemma Json.index_object (members : List (Str × Json)) (key : Str) :
    ∃ members', Json.index key (.object members) =
        .ok (Json.memberOr members key) (.object members') ∧
      (Json.memberOr members key ≠ .null → members' = members) := by
  unfold memberOr
  change ∃ members', EStateM.run (Json.index key) (.object members) = _ ∧ _
  simp only [Json.index, EStateM.run_bind, EStateM.run_get]
  cases Json.member members key with
  | some j => exact ⟨members, rfl, fun _ => rfl⟩
  | none => exact ⟨members ++ [(key, .null)], rfl, fun h => absurd rfl h⟩

/-- Reading the string in a member, and going on with it. If this succeeds, the document is as it
was. -/
lemma Json.outcome_index {α : Type} (members : List (Str × Json)) (key : Str)
    (f : Str → EStateM Exn Json α) :
    outcome ((do let s ← (← Json.index key).getString; f s) (.object members)) =
      (Json.memberOr members key).asString.bind fun s => outcome (f s (.object members)) := by
  obtain ⟨members', hindex, hsame⟩ := Json.index_object members key
  simp only [bind, EStateM.bind, hindex]
  cases hj : Json.memberOr members key with
  | string s =>
    rw [hsame (by simp [hj])]
    rfl
  | _ => rfl

/-! ## Documents -/

namespace Config

/-- What `loadFromFile` makes of three members. -/
def ofMembers (env : Env) (ip port path : Json) : Except Exn Config :=
  ip.asString.bind fun ip => port.asString.bind fun port =>
    (Addr.ofStrings env ip port).bind fun a => path.asString.bind fun path => ofAddr env a path

variable {env : Env} {c : Config}

/-- **Only three members of the document count.** -/
lemma outcome_ofJson_object (env : Env) (members : List (Str × Json)) :
    outcome (ofJson env (.object members)) =
      ofMembers env (Json.memberOr members "ip") (Json.memberOr members "port")
        (Json.memberOr members "path") := by
  rw [ofJson, Json.outcome_index, ofMembers]
  congr 1
  funext ip
  rw [Json.outcome_index]
  congr 1
  funext port
  cases Addr.ofStrings env ip port with
  | error e => rfl
  | ok a =>
    -- the address is set on a new configuration, and the path is still to be read
    change outcome ((do
      let path ← (← Json.index "path").getString
      onLocal (setPath env path) { addr := a }) (.object members)) = _
    rw [Json.outcome_index]
    congr 1
    funext path
    rw [ofAddr_eq, onLocal, setPath_eq]
    cases checkPath env path <;> rfl

/-- A document that is no object gives no configuration. -/
lemma outcome_ofJson_of_not_object {j : Json} (h : ∀ members, j ≠ .object members) :
    ∃ e, outcome (ofJson env j) = .error e := by
  cases j with
  | object members => exact absurd rfl (h members)
  | _ => exact ⟨_, rfl⟩

/-- Three members give a configuration if they are strings from which the options would. -/
lemma ofMembers_eq_ok_iff {ip port path : Json} :
    ofMembers env ip port path = .ok c ↔ ∃ i p q, ip = .string i ∧ port = .string p ∧
      path = .string q ∧ ofFlags env i p q = .ok c := by
  constructor
  · intro h
    obtain ⟨i, hi, h⟩ := bind_eq_ok_iff.mp h
    obtain ⟨p, hp, h⟩ := bind_eq_ok_iff.mp h
    obtain ⟨a, ha, h⟩ := bind_eq_ok_iff.mp h
    obtain ⟨q, hq, h⟩ := bind_eq_ok_iff.mp h
    exact ⟨i, p, q, Json.asString_eq_ok_iff.mp hi, Json.asString_eq_ok_iff.mp hp,
      Json.asString_eq_ok_iff.mp hq, bind_eq_ok_iff.mpr ⟨a, ha, h⟩⟩
  · rintro ⟨i, p, q, rfl, rfl, rfl, h⟩
    exact h

/-- The document describes the configuration: it is an object whose members `ip`, `port` and
`path` are strings, and the options with these values give the configuration. -/
def Describes (env : Env) (j : Json) (c : Config) : Prop :=
  ∃ members ip port path, j = .object members ∧
    Json.member members "ip" = some (.string ip) ∧
    Json.member members "port" = some (.string port) ∧
    Json.member members "path" = some (.string path) ∧ ofFlags env ip port path = .ok c

/-- A document gives the configuration that it describes.

**Proof sketch.** An object gives what its three members give, and these must be strings. Any
other value is refused at the first member. -/
lemma outcome_ofJson_eq_ok_iff {j : Json} :
    outcome (ofJson env j) = .ok c ↔ Describes env j c := by
  by_cases hj : ∃ members, j = .object members
  · obtain ⟨members, rfl⟩ := hj
    rw [outcome_ofJson_object, ofMembers_eq_ok_iff]
    constructor
    · rintro ⟨ip, port, path, hi, hp, hq, h⟩
      exact ⟨members, ip, port, path, rfl, Json.memberOr_eq_string_iff.mp hi,
        Json.memberOr_eq_string_iff.mp hp, Json.memberOr_eq_string_iff.mp hq, h⟩
    · rintro ⟨_, ip, port, path, hobj, hi, hp, hq, h⟩
      cases hobj
      exact ⟨ip, port, path, Json.memberOr_eq_string_iff.mpr hi,
        Json.memberOr_eq_string_iff.mpr hp, Json.memberOr_eq_string_iff.mpr hq, h⟩
  · obtain ⟨e, he⟩ : ∃ e, outcome (ofJson env j) = .error e :=
      outcome_ofJson_of_not_object fun members h => hj ⟨members, h⟩
    rw [he]
    refine iff_of_false (by simp) ?_
    rintro ⟨members, -, -, -, rfl, -⟩
    exact hj ⟨members, rfl⟩

/-! ## Loading a file -/

/-- Loading a file that holds a document. -/
lemma loadFromFile_eq_outcome {filename text : Str} {j : Json}
    (hread : env.fs.readFile filename = .contents text) (hparse : env.parseJson text = .ok j) :
    loadFromFile env filename = outcome (ofJson env j) := by
  simp only [loadFromFile, hread, hparse]
  cases ofJson env j <;> rfl

/-- A configuration loaded from a file has passed all checks. -/
lemma passed_of_loadFromFile {filename : Str} (h : loadFromFile env filename = .ok c) :
    ∃ ip port path, Passed env ip port path c := by
  obtain ⟨j, hj⟩ : ∃ j, outcome (ofJson env j) = .ok c := by
    unfold loadFromFile at h
    split at h
    · cases h
    · cases h
    · split at h
      · cases h
      · next j _ =>
        refine ⟨j, ?_⟩
        cases hj : ofJson env j with
        | ok c' j' => simpa [hj, outcome] using h
        | error e j' => simp [hj] at h
  obtain ⟨-, ip, port, path, -, -, -, -, hflags⟩ := outcome_ofJson_eq_ok_iff.mp hj
  exact ⟨ip, port, path, ofFlags_eq_ok_iff.mp hflags⟩

end Config

end Vsna
