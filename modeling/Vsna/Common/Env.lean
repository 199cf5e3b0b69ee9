import Vsna.Posix.Filesystem

set_option relaxedAutoImplicit false
set_option autoImplicit false

/-!
# Exceptions and the environment of the program

The exceptions that the program throws or lets through, and what it takes from outside: the file
system, the address parser of Boost.Asio and the parser of nlohmann/json. A member function that
changes its object and may throw is a computation in `EStateM Exn σ`, which keeps the object as
it is at the moment of the throw.

## Main definitions

* `Vsna.Exn` — exceptions; all of them derive from `std::exception`.
* `Vsna.Address`, `Vsna.TcpEndpoint` — `boost::asio::ip::address` and `tcp::endpoint`.
* `Vsna.Json`, `Json.index`, `Json.getString` — JSON values, `operator[]` and `get<std::string>`.
* `Vsna.Env` — the environment; `Vsna.Env.small` is one to evaluate the model in.
-/

namespace Vsna

open Text Posix

/-! ## Exceptions -/

/-- An exception, by its dynamic type, with the text of its `what()`. -/
inductive Exn
  /-- `std::invalid_argument`. -/
  | invalidArgument (what : Str)
  /-- `std::out_of_range`. -/
  | outOfRange (what : Str)
  /-- `std::runtime_error` itself. -/
  | runtimeError (what : Str)
  /-- `std::filesystem::filesystem_error`. -/
  | filesystemError (what : Str)
  /-- `boost::system::system_error`. -/
  | systemError (what : Str)
  /-- `std::ios_base::failure`. -/
  | iosFailure (what : Str)
  /-- `nlohmann::json::exception`. -/
  | jsonError (what : Str)
  deriving DecidableEq

/-- The text an exception prints; printing a C string stops at NUL. -/
def Exn.what : Exn → Str
  | .invalidArgument w | .outOfRange w | .runtimeError w | .filesystemError w
  | .systemError w | .iosFailure w | .jsonError w => cString w

/-- A query of the file system throws its errors. -/
def fsCall {σ α : Type} : Except FsError α → EStateM Exn σ α
  | .ok a => pure a
  | .error e => throw (.filesystemError e.what)

/-- `std::stoi`, throwing. -/
def stoiCall {σ : Type} (s : Str) : EStateM Exn σ ℤ :=
  match stoi s with
  | .ok v => pure v
  | .error .invalidArgument => throw (.invalidArgument "stoi")
  | .error .outOfRange => throw (.outOfRange "stoi")

/-- An exception from a function that returns a value. -/
def liftExcept {σ α : Type} : Except Exn α → EStateM Exn σ α
  | .ok a => pure a
  | .error e => throw e

/-- Call a member function on a local object, which is lost if the call throws. -/
def onLocal {σ τ : Type} (f : EStateM Exn τ Unit) (t : τ) : EStateM Exn σ τ :=
  match f t with
  | .ok _ t' => pure t'
  | .error e _ => throw e

/-- The outcome of a setter that either stores a checked value by `put`, or throws with the
object `s` unchanged. -/
def stored {σ : Type} (put : Str → σ) (s : σ) : Except Exn Str → EStateM.Result Exn σ Unit
  | .ok v => .ok () (put v)
  | .error e => .error e s

/-- Inversion of a sequence that succeeds. -/
lemma bind_eq_ok_iff {α β : Type} {x : Except Exn α} {f : α → Except Exn β} {b : β} :
    x.bind f = .ok b ↔ ∃ a, x = .ok a ∧ f a = .ok b := by
  cases x with
  | error e => simp [Except.bind]
  | ok a => simp [Except.bind]

/-! ## Addresses -/

/-- A `boost::asio::ip::address`. An IPv6 address is given by its text. -/
inductive Address
  | v4 (a b c d : UInt8)
  | v6 (text : Str)
  deriving DecidableEq

/-- `is_v4()`. -/
def Address.isV4 : Address → Bool
  | .v4 _ _ _ _ => true
  | .v6 _ => false

/-- `to_string()`. -/
def Address.toString : Address → Str
  | .v4 a b c d =>
    decimal a.toNat ++ "." ++ decimal b.toNat ++ "." ++ decimal c.toNat ++ "." ++ decimal d.toNat
  | .v6 text => text

/-- A `tcp::endpoint`. -/
structure TcpEndpoint where
  address : Address
  port : UInt16
  deriving DecidableEq

/-! ## JSON values -/

/-- A JSON value. -/
inductive Json
  | null
  | boolean (b : Bool)
  | number (text : Str)
  | string (s : Str)
  | array (items : List Json)
  | object (members : List (Str × Json))

/-- `type_name()`. -/
def Json.typeName : Json → Str
  | .null => "null"
  | .boolean _ => "boolean"
  | .number _ => "number"
  | .string _ => "string"
  | .array _ => "array"
  | .object _ => "object"

/-- The member of an object with a given key. -/
def Json.member (members : List (Str × Json)) (key : Str) : Option Json :=
  (members.find? fun m => m.1 = key).map Prod.snd

/-- `operator[]` on a document that may be changed: the member `key`, which is inserted as null
if it is missing. A null document becomes an object. -/
def Json.index (key : Str) : EStateM Exn Json Json := do
  match ← get with
  | .null =>
    set (Json.object [(key, .null)])
    return .null
  | .object members =>
    match Json.member members key with
    | some j => return j
    | none =>
      set (Json.object (members ++ [(key, .null)]))
      return .null
  | j =>
    throw (.jsonError ("[json.exception.type_error.305] " ++
      "cannot use operator[] with a string argument with " ++ j.typeName))

/-- `get<std::string>()`. -/
def Json.getString {σ : Type} : Json → EStateM Exn σ Str
  | .string s => pure s
  | j => throw (.jsonError ("[json.exception.type_error.302] type must be string, but is " ++
      j.typeName))

/-! ## The environment -/

/-- What the program takes from outside. -/
structure Env where
  /-- The file system, as the process sees it. -/
  fs : FileSystem
  /-- `boost::asio::ip::make_address`; an error is thrown as a `system_error` with this text. -/
  makeAddress : Str → Except Str Address
  /-- Reading one JSON value from the beginning of a text; an error is thrown as a
  `parse_error` with this text. -/
  parseJson : Str → Except Str Json

/-- `make_address` reads `"0.0.0.0"` as the unspecified IPv4 address. -/
def Env.ReadsAny (env : Env) : Prop := env.makeAddress "0.0.0.0" = .ok (.v4 0 0 0 0)

/-! ## A small environment

An environment to evaluate the model in: an empty root directory, IPv4 addresses only, and no
JSON. -/

/-- The byte that a canonical numeral denotes. -/
def octet (p : Str) : Option UInt8 :=
  if digitsVal p < 256 ∧ p = decimal (digitsVal p) then some (UInt8.ofNat (digitsVal p)) else none

/-- Four numerals separated by dots. -/
def dottedQuad (s : Str) : Except Str Address :=
  match (s.splitOn 46).map octet with
  | [some a, some b, some c, some d] => .ok (.v4 a b c d)
  | _ => .error "Invalid argument [system:22]"

/-- A file system with the given entries of the root directory, as user 1000 sees it, with the
limits of Linux. -/
def smallFs (entries : List (Name × Node)) : FileSystem :=
  ⟨⟨0, 0, 0o755⟩, entries, ⟨1000, 1000, []⟩, 255, 4096, by decide, [], _, _, rfl⟩

/-- The small environment. -/
def Env.small : Env where
  fs := smallFs []
  makeAddress := dottedQuad
  parseJson _ := .error "[json.exception.parse_error.101] parse error"

/-- The small environment reads the unspecified address. -/
lemma Env.readsAny_small : Env.small.ReadsAny :=
  show dottedQuad "0.0.0.0" = .ok (.v4 0 0 0 0) by decide

end Vsna
