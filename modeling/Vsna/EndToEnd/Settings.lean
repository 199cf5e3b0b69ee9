import Vsna.EndToEnd.Launch
import Vsna.Json.Errors
import Vsna.Json.Values

set_option relaxedAutoImplicit false
set_option autoImplicit false

/-!
# Configuration files as texts

`loadFromFile` with the JSON library that the program is built with: from the bytes of the file to
the configuration.

## Main definitions

* `Vsna.Env.withJson` — the environment with this library.
* `Vsna.Lists`, `Vsna.Last` — the members of an object as they stand in a text, and the last one
  with a given key.
* `Vsna.settings` — a configuration file.

## Main results

* `Vsna.Config.loadFromFile_text` — which files give which configuration.
* `Vsna.Config.loadFromFile_lists` — of several members with one key the last counts.
* `Vsna.Config.loadFromFile_settings` — every three texts can be written to a file, and are then
  read as if they had been given as options.
-/

namespace Vsna

open Text Posix Nlohmann

/-- The environment with the JSON library that the program is built with. -/
def Env.withJson (env : Env) : Env := { env with parseJson := Nlohmann.parseJson }

variable {env : Env} {c : Config} {filename text : Str}

/-- What the library reads. -/
lemma parseJson_withJson_iff {v : Json} : env.withJson.parseJson text = .ok v ↔ Document text v :=
  parseJson_ok_iff.trans parse_eq_ok_iff

/-- A string in a document is a text. -/
lemma isText_of_member {members : List (Str × Json)} {key s : Str}
    (h : Document text (.object members)) (hs : Json.member members key = some (.string s)) :
    IsText s := by
  obtain ⟨bom, body, rest, -, -, hv⟩ := h
  obtain ⟨m, hfind, hm⟩ := Option.map_eq_some_iff.mp hs
  have hproper : Proper (.object members) := hv.proper
  cases hproper with
  | object _ hvalues _ =>
    have hstring := hvalues m (List.mem_of_find?_eq_some hfind)
    rw [hm] at hstring
    cases hstring with
    | string htext => exact htext

namespace Config

/-- **Which files give which configuration.** -/
theorem loadFromFile_text : loadFromFile env.withJson filename = .ok c ↔
    ∃ text members ip port path, env.fs.readFile filename = .contents text ∧
      Document text (.object members) ∧ Json.member members "ip" = some (.string (utf8 ip)) ∧
      Json.member members "port" = some (.string (utf8 port)) ∧
      Json.member members "path" = some (.string (utf8 path)) ∧
      ofFlags env (utf8 ip) (utf8 port) (utf8 path) = .ok c := by
  rw [loadFromFile_eq_ok_iff]
  constructor
  · rintro ⟨text, j, hread, hj, members, ip, port, path, rfl, hip, hport, hpath, hflags⟩
    rw [parseJson_withJson_iff] at hj
    obtain ⟨ip, rfl⟩ := isText_of_member hj hip
    obtain ⟨port, rfl⟩ := isText_of_member hj hport
    obtain ⟨path, rfl⟩ := isText_of_member hj hpath
    exact ⟨text, members, ip, port, path, hread, hj, hip, hport, hpath, hflags⟩
  · rintro ⟨text, members, ip, port, path, hread, hj, hip, hport, hpath, hflags⟩
    exact ⟨text, _, hread, parseJson_withJson_iff.mpr hj, members, _, _, _, rfl, hip, hport, hpath,
      hflags⟩

end Config

/-! ## Members -/

/-- The text begins with an object with these members, in this order. -/
inductive Opens : List (Str × Json) → Str → Prop
  | none {text s rest : Str} : Lexes text .beginObject s → Lexes s .endObject rest → Opens [] text
  | some {m : Str × Json} {ms : List (Str × Json)} {text s s' s'' rest : Str} :
      Lexes text .beginObject s → Derives (.member m) s s' → Derives (.members ms) s' s'' →
      Lexes s'' .endObject rest → Opens (m :: ms) text

/-- The text is an object with these members, in this order, perhaps with a byte order mark before
it, and perhaps with something after it. -/
def Lists (ms : List (Str × Json)) (text : Str) : Prop :=
  ∃ bom body, (bom = [] ∨ bom = [0xEF, 0xBB, 0xBF]) ∧ text = bom ++ body ∧ Opens ms body

/-- The document in such a text. -/
lemma Lists.document {ms : List (Str × Json)} (h : Lists ms text) :
    Document text (.object (collect ms)) := by
  obtain ⟨bom, body, hbom, htext, hopens⟩ := h
  cases hopens with
  | none hbegin hend => exact ⟨bom, body, _, hbom, htext, .emptyObject hbegin hend⟩
  | some hbegin hm hms hend => exact ⟨bom, body, _, hbom, htext, .object hbegin hm hms hend⟩

/-- What `loadFromFile` makes of a text with these members. -/
lemma Lists.loadFromFile_eq {ms : List (Str × Json)} (h : Lists ms text)
    (hread : env.fs.readFile filename = .contents text) :
    Config.loadFromFile env.withJson filename =
      Config.ofMembers env (Json.memberOr ms.reverse "ip") (Json.memberOr ms.reverse "port")
        (Json.memberOr ms.reverse "path") := by
  have hparse : env.withJson.parseJson text = .ok (.object (collect ms)) :=
    parseJson_withJson_iff.mpr h.document
  have hload : Config.loadFromFile env.withJson filename = _ :=
    Config.loadFromFile_eq_outcome hread hparse
  rw [hload, Config.outcome_ofJson_object]
  simp only [Json.memberOr, member_collect]
  rfl

/-- The last member with this key has this value. -/
def Last (ms : List (Str × Json)) (k : Str) (v : Json) : Prop :=
  ∃ before after, ms = before ++ (k, v) :: after ∧ ∀ m ∈ after, m.1 ≠ k

/-- A member that is found from the end is the last one. -/
lemma member_reverse_eq_some_iff {ms : List (Str × Json)} {k : Str} {v : Json} :
    Json.member ms.reverse k = some v ↔ Last ms k v := by
  rw [Json.member, Option.map_eq_some_iff]
  constructor
  · rintro ⟨⟨k', v'⟩, hfind, rfl⟩
    obtain ⟨hk, after, before, heq, hafter⟩ := List.find?_eq_some_iff_append.mp hfind
    obtain rfl : k' = k := by simpa using hk
    refine ⟨before.reverse, after.reverse, ?_, fun m hm => ?_⟩
    · rw [← List.reverse_reverse ms, heq]
      simp
    · simpa using hafter m (List.mem_reverse.mp hm)
  · rintro ⟨before, after, rfl, hafter⟩
    refine ⟨(k, v), List.find?_eq_some_iff_append.mpr ⟨by simp, after.reverse, before.reverse,
      by simp, fun m hm => ?_⟩, rfl⟩
    simpa using hafter m (List.mem_reverse.mp hm)

namespace Config

/-- **Of several members with one key the last counts**, and neither the other members nor the order
matter. -/
theorem loadFromFile_lists {ms : List (Str × Json)} (h : Lists ms text)
    (hread : env.fs.readFile filename = .contents text) :
    loadFromFile env.withJson filename = .ok c ↔
      ∃ ip port path, Last ms "ip" (.string ip) ∧ Last ms "port" (.string port) ∧
        Last ms "path" (.string path) ∧ ofFlags env ip port path = .ok c := by
  rw [h.loadFromFile_eq hread, ofMembers_eq_ok_iff]
  simp only [Json.memberOr_eq_string_iff, member_reverse_eq_some_iff]

end Config

/-! ## Writing a configuration file -/

/-- A member whose value is a string. -/
def stringMember (k v : List Char) : Str := quote k ++ (":" ++ quote v)

/-- A configuration file. -/
def settings (ip port path : List Char) : Str :=
  "\x7b" ++ (stringMember "ip".toList ip ++ ("," ++ (stringMember "port".toList port ++
    ("," ++ (stringMember "path".toList path ++ "\x7d")))))

/-- The member, before a text. -/
lemma derives_stringMember (k v : List Char) (rest : Str) :
    Derives (.member (utf8 k, .string (utf8 v))) (stringMember k v ++ rest) rest := by
  rw [stringMember, List.append_assoc, List.append_assoc]
  exact .member (lexes_quote k _) (lexes_fixed (by decide) _) (.scalar (lexes_quote v rest) rfl)

/-- What follows the first member of an object. -/
def moreMembers (ms : List (List Char × List Char)) : Str :=
  ms.flatMap fun m => "," ++ stringMember m.1 m.2

/-- The members after the first, before a text. -/
lemma derives_moreMembers (ms : List (List Char × List Char)) (rest : Str) :
    Derives (.members (ms.map fun m => (utf8 m.1, .string (utf8 m.2)))) (moreMembers ms ++ rest)
      rest := by
  induction ms with
  | nil => exact .noMembers
  | cons m ms ih =>
    have hcomma := @lexes_fixed "," .valueSeparator (by decide)
    rw [moreMembers, List.flatMap_cons, List.append_assoc, List.append_assoc]
    exact .members (hcomma _) (derives_stringMember m.1 m.2 _) ih

/-- An object whose members are strings. -/
lemma opens_strings (m : List Char × List Char) (ms : List (List Char × List Char)) (rest : Str) :
    Opens ((m :: ms).map fun m => (utf8 m.1, .string (utf8 m.2)))
      ("\x7b" ++ (stringMember m.1 m.2 ++ (moreMembers ms ++ ("\x7d" ++ rest)))) :=
  .some (@lexes_fixed "\x7b" .beginObject (by decide) _) (derives_stringMember m.1 m.2 _)
    (derives_moreMembers ms _) (@lexes_fixed "\x7d" .endObject (by decide) rest)

/-- The members of the file. -/
lemma lists_settings (ip port path : List Char) (rest : Str) :
    Lists [("ip", .string (utf8 ip)), ("port", .string (utf8 port)), ("path", .string (utf8 path))]
      (settings ip port path ++ rest) := by
  have hip : utf8 "ip".toList = "ip" := by decide
  have hport : utf8 "port".toList = "port" := by decide
  have hpath : utf8 "path".toList = "path" := by decide
  have hopens := opens_strings ("ip".toList, ip) [("port".toList, port), ("path".toList, path)] rest
  refine ⟨[], settings ip port path ++ rest, .inl rfl, rfl, ?_⟩
  simp only [List.map_cons, List.map_nil, hip, hport, hpath, moreMembers, List.flatMap_cons,
    List.flatMap_nil, List.append_assoc, List.nil_append] at hopens
  simpa only [settings, List.append_assoc] using hopens

namespace Config

/-- **Every three texts can be written to a file**, and are then read as if they had been given as
options. What follows in the file does not matter. -/
theorem loadFromFile_settings {ip port path : List Char} {rest : Str}
    (hread : env.fs.readFile filename = .contents (settings ip port path ++ rest)) :
    loadFromFile env.withJson filename = ofFlags env (utf8 ip) (utf8 port) (utf8 path) := by
  rw [(lists_settings ip port path rest).loadFromFile_eq hread]
  rfl

/-- A path with a quote, a backslash and a control character in it. -/
def oddPath : List Char := "/a\"b\\c\n".toList

/-- A file with two members `ip`, another member in between, and a byte order mark. -/
def doubled : Str :=
  [0xEF, 0xBB, 0xBF] ++ (ascii "\x7b" ++ (stringMember "ip".toList "::1".toList ++
    (moreMembers [("note".toList, "old".toList), ("port".toList, "8080".toList),
      ("ip".toList, "0.0.0.0".toList), ("path".toList, oddPath)] ++ (ascii "\x7d" ++ ascii "\n"))))

/-- The small environment with the directory of this path, a file with settings, and the file with
two members `ip`. -/
def settingsEnv : Env :=
  { Env.small with
    fs := smallFs
      [(⟨"a\"b\\c\n", by decide, by decide, by decide, by decide, by decide⟩,
        .dir ⟨1000, 1000, 0o755⟩ []),
      (⟨"settings", by decide, by decide, by decide, by decide, by decide⟩,
        .file ⟨1000, 1000, 0o644⟩
          (settings "0.0.0.0".toList "8080".toList oddPath ++ "\n")),
      (⟨"doubled", by decide, by decide, by decide, by decide, by decide⟩,
        .file ⟨1000, 1000, 0o644⟩ doubled)] }

/-- The settings can be read. -/
lemma readFile_settingsEnv : settingsEnv.fs.readFile "/settings" =
    .contents (settings "0.0.0.0".toList "8080".toList oddPath ++ "\n") := by
  decide +kernel

/-- The other file can be read. -/
lemma readFile_doubled : settingsEnv.fs.readFile "/doubled" = .contents doubled := by
  decide +kernel

/-- The settings in the file are read. -/
theorem loadFromFile_settings_sample :
    loadFromFile settingsEnv.withJson "/settings" =
      .ok ⟨⟨"0.0.0.0", "8080"⟩, "/a\"b\\c\n"⟩ :=
  (loadFromFile_settings readFile_settingsEnv).trans (by decide +kernel)

/-- Of the two members `ip` the second is read. -/
theorem loadFromFile_lists_doubled :
    loadFromFile settingsEnv.withJson "/doubled" =
      .ok ⟨⟨"0.0.0.0", "8080"⟩, "/a\"b\\c\n"⟩ := by
  have hlists : Lists _ doubled :=
    ⟨_, _, .inr rfl, rfl, opens_strings ("ip".toList, "::1".toList) _ _⟩
  refine (loadFromFile_lists hlists readFile_doubled).mpr
    ⟨utf8 "0.0.0.0".toList, utf8 "8080".toList, utf8 oddPath, ⟨[_, _, _], [_], rfl, ?_⟩,
      ⟨[_, _], [_, _], rfl, ?_⟩, ⟨[_, _, _, _], [], rfl, ?_⟩, by decide +kernel⟩
  all_goals decide

end Config

end Vsna
