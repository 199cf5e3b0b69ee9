import Mathlib.Data.List.Nodup
import Vsna.Posix.Filesystem

set_option relaxedAutoImplicit false
set_option autoImplicit false

/-!
# The option parser

The part of `common/libs/CLI11.hpp` that parses the command line of this program: an application
with a help flag, options that take one string each, and neither positionals nor subcommands. The
functions are those of `CLI::App` and `CLI::Option`, cut down to what they do there.

The code keeps the arguments in reverse and takes them from the back. Here they are in order.

## Main definitions

* `CLI.AppOption`, `CLI.App` — options and applications; their names are proper.
* `CLI.Parser`, `CLI.parseSingle`, `CLI.parseArgs` — the parser, and its loop.
* `CLI.App.parse` — `App::parse`.
* `CLI.ParseError`, `CLI.App.exitOut`, `CLI.App.exitErr` — errors, and what `App::exit` prints.

## Main results

* `CLI.weight_parseSingle` — every iteration of the loop makes the arguments lighter.
* `CLI.parseArgs_eq` — hence the loop ends, and can be unrolled.
-/

namespace CLI

open Text Posix

/-! ## Applications -/

/-- An option. The flag is the help flag, which takes no value; other options take one string. -/
structure AppOption where
  /-- The short name, without its dash. -/
  sname : UInt8
  /-- The long name, without its dashes. -/
  lname : Str
  flag : Bool := false
  deriving DecidableEq

/-- `valid_first_char`: the bytes that a name may begin with. -/
def validFirstChar (c : UInt8) : Bool := c != 45 && 33 < c

/-- The names of options that `add_option` accepts together. -/
structure Proper (options : List AppOption) : Prop where
  sname : ∀ o ∈ options, validFirstChar o.sname = true
  lname : ∀ o ∈ options, o.lname.head?.any validFirstChar = true
  noValue : ∀ o ∈ options, (61 : UInt8) ∉ o.lname
  snames : (options.map AppOption.sname).Nodup
  lnames : (options.map AppOption.lname).Nodup

/-- An application: its options, and the text that `help()` returns. -/
structure App where
  options : List AppOption
  proper : Proper options
  help : Str

/-! ## Errors -/

/-- A `ParseError`, with its text. -/
inductive ParseError
  | callForHelp
  | argumentMismatch (text : Str)
  | extrasError (text : Str)
  | horribleError (text : Str)
  deriving DecidableEq

/-- `what()`. -/
def ParseError.what : ParseError → Str
  | .callForHelp => "This should be caught in your main function, see examples"
  | .argumentMismatch text | .extrasError text | .horribleError text => cString text

/-- `get_name()` of an option. -/
def AppOption.getName (o : AppOption) : Str := "--" ++ o.lname

/-- `ArgumentMismatch::TypedAtLeast`, for one string. -/
def typedAtLeast (o : AppOption) : ParseError :=
  .argumentMismatch (o.getName ++ ": 1 required TEXT missing")

/-- `ArgumentMismatch::AtLeast`, for one string. -/
def atLeast (o : AppOption) (received : ℕ) : ParseError :=
  .argumentMismatch (o.getName ++ ": At least 1 required but received " ++ decimal received)

/-- `ArgumentMismatch::AtMost`, for one string. -/
def atMost (o : AppOption) (received : ℕ) : ParseError :=
  .argumentMismatch (o.getName ++ ": At most 1 required but received " ++ decimal received)

/-- `detail::join`, with one byte in between, which is dropped at the end. -/
def join (delim : UInt8) (v : List Str) : Str :=
  let rval := [delim].intercalate v
  if rval.getLast? = some delim then rval.dropLast else rval

/-- The `ExtrasError` of an application with the given name. -/
def extrasErrorOf (name : Str) (args : List Str) : ParseError :=
  let header : Str := if name = [] then [] else name ++ ": "
  let text : Str := if 1 < args.length then "The following arguments were not expected: "
    else "The following argument was not expected: "
  .extrasError (header ++ text ++ join 32 args)

/-- What `App::exit` prints to standard output. -/
def App.exitOut (app : App) : ParseError → Str
  | .callForHelp => app.help
  | _ => []

/-- What `App::exit` prints to standard error, by `FailureMessage::simple`. -/
def App.exitErr (_ : App) : ParseError → Str
  | .callForHelp => []
  | e => e.what ++ "\n" ++ "Run with --help for more information.\n"

/-! ## Arguments -/

/-- `split_short`: the short name an argument begins with, and what follows it. -/
def splitShort : Str → Option (UInt8 × Str)
  | d :: c :: rest => if d = 45 ∧ validFirstChar c = true then some (c, rest) else none
  | _ => none

/-- `split_long`: the long name an argument begins with, and the value after `=`. -/
def splitLong : Str → Option (Str × Str)
  | d :: d' :: c :: s =>
    if d = 45 ∧ d' = 45 ∧ validFirstChar c = true then
      some ((c :: s).takeWhile (· != 61), ((c :: s).dropWhile (· != 61)).tail)
    else none
  | _ => none

/-- What an argument is taken for. -/
inductive Classifier
  | none
  | positionalMark
  | short
  | long
  deriving DecidableEq

/-- Does it look like the beginning of a number? -/
def looksNumeric (c : UInt8) (rest : Str) : Bool :=
  isDigit c || (c == 46 && rest.head?.any isDigit)

/-- `_recognize`. -/
def recognize (options : List AppOption) (current : Str) : Classifier :=
  if current = "--" then .positionalMark
  else if (splitLong current).isSome then .long
  else
    match splitShort current with
    | some (c, rest) =>
      if looksNumeric c rest = true ∧ (options.any fun o => o.sname == c) = false then .none
      else .short
    | none => .none

/-! ## Results -/

/-- Are the bytes doubled, up to a last one that is a closing bracket? If so, one of each. -/
def undouble : Str → Option Str
  | [] => some []
  | [c] => if c = 93 then some [c] else none
  | c :: d :: s => if c = d then (undouble s).map (c :: ·) else none

/-- `_add_result`: how a string is stored. Text in double brackets with all bytes doubled is
undoubled. -/
def stored (result : Str) : Str :=
  if 4 ≤ result.length ∧ ("[[" : Str) <+: result ∧ ("]]" : Str) <:+ result then
    match undouble (result.drop 2).dropLast.dropLast with
    | some s => "[" ++ s ++ "]"
    | none => result
  else result

/-- The string that stands for an empty container. -/
def braces : Str := "\x7b\x7d"

/-- The string that stands for the end of one. -/
def percents : Str := "%%"

/-- `get_flag_value`: what is stored for a flag with the given value. -/
def flagValue (value : Str) : Str := if value = [] ∨ value = braces then "true" else value

/-- `_reduce_results`, where more than one result is an error; the reduced results are empty if
they are the same. -/
def reduceResults (o : AppOption) (original : List Str) : Except ParseError (List Str) :=
  if original.length < 1 then .error (atLeast o original.length)
  else if 1 < original.length ∧ original ≠ [braces, percents] then
    .error (atMost o original.length)
  else if 1 < original.length then .ok original
  else if original = [braces] then .ok [braces, percents]
  else .ok []

/-- `run_callback`, if there are results: the value that is assigned to the variable. -/
def runCallback (o : AppOption) (results : List Str) : Except ParseError (Option Str) :=
  if results = [] then .ok none
  else (reduceResults o results).map fun out => (if out = [] then results else out).head?

/-! ## The loop -/

/-- The parser at work: the results of each option, what could not be parsed, and the arguments
that are left. -/
structure Parser where
  results : List (List Str)
  missing : List (Classifier × Str) := []
  positionalOnly : Bool := false
  args : List Str
  deriving DecidableEq

/-- `add_result` for option `i`. -/
def Parser.addResult (p : Parser) (i : ℕ) (result : Str) : Parser :=
  { p with results := p.results.modify i (· ++ [stored result]) }

/-- `_move_to_missing`. -/
def Parser.moveToMissing (p : Parser) (c : Classifier) (s : Str) : Parser :=
  { p with missing := p.missing ++ [(c, s)] }

/-- The part of `_parse_arg` after option `i` was found, with what was split off its name: a value
after `=`, or the rest of a short argument. -/
def parseFound (p : Parser) (i : ℕ) (o : AppOption) (value rest : Str) : Except ParseError Parser :=
  if o.flag then
    let q := p.addResult i (flagValue value)
    .ok (if rest = [] then q else { q with args := (45 :: rest) :: q.args })
  else if value ≠ [] then .ok (p.addResult i value)
  else if rest ≠ [] then .ok (p.addResult i rest)
  else
    match p.args with
    | [] => .error (typedAtLeast o)
    | arg :: args => .ok ({ p with args := args }.addResult i arg)

/-- `_parse_arg`, for the argument `current`, which has been taken from `p`. -/
def parseArg (options : List AppOption) (p : Parser) (type : Classifier) (current : Str)
    (found : AppOption → Bool) (value rest : Str) : Except ParseError Parser :=
  match options.zipIdx.find? fun r => found r.1 with
  | none => .ok (p.moveToMissing type current)
  | some (o, i) => parseFound p i o value rest

/-- `_parse_single`. -/
def parseSingle (options : List AppOption) (p : Parser) : Except ParseError Parser :=
  match p.args with
  | [] => .ok p
  | current :: args =>
    let p := { p with args := args }
    match if p.positionalOnly then Classifier.none else recognize options current with
    | .positionalMark => .ok ({ p with positionalOnly := true }.moveToMissing .positionalMark "--")
    | .none => .ok (p.moveToMissing .none current)
    | .long =>
      match splitLong current with
      | none => .error (.horribleError
          ("Long parsed but missing (you should not see this):" ++ current))
      | some (name, value) =>
        parseArg options p .long current (fun o => o.lname == name) value []
    | .short =>
      match splitShort current with
      | none => .error (.horribleError "Short parsed but missing! You should not see this")
      | some (name, rest) =>
        parseArg options p .short current (fun o => o.sname == name) [] rest

/-- The loop of `_parse`, of at most `n` iterations. -/
def loop (options : List AppOption) : ℕ → Parser → Except ParseError Parser
  | 0, p => .ok p
  | n + 1, p => if p.args = [] then .ok p else (parseSingle options p).bind (loop options n)

/-- The weight of arguments: the bytes in them, and one for each. -/
def weight (args : List Str) : ℕ := (args.map fun a => a.length + 1).sum

/-- The loop of `_parse`. -/
def parseArgs (options : List AppOption) (p : Parser) : Except ParseError Parser :=
  loop options (weight p.args) p

/-- A value after the name, or a rest that is put back, weighs no more than the argument did. -/
lemma weight_parseFound {p q : Parser} {i : ℕ} {o : AppOption} {value rest : Str}
    (h : parseFound p i o value rest = .ok q) :
    weight q.args ≤ weight p.args + (rest.length + 2) := by
  unfold parseFound at h
  split_ifs at h
  · obtain rfl := Except.ok.inj h
    exact Nat.le_add_right _ _
  · obtain rfl := Except.ok.inj h
    simp only [weight, Parser.addResult, List.map_cons, List.sum_cons, List.length_cons]
    omega
  · obtain rfl := Except.ok.inj h
    exact Nat.le_add_right _ _
  · obtain rfl := Except.ok.inj h
    exact Nat.le_add_right _ _
  · split at h
    · cases h
    · next arg args hargs =>
      obtain rfl := Except.ok.inj h
      simp only [weight, Parser.addResult, hargs, List.map_cons, List.sum_cons]
      omega

/-- The argument weighs more than the rest of it. -/
lemma weight_parseArg {options : List AppOption} {p q : Parser} {type : Classifier}
    {current value rest : Str} {found : AppOption → Bool} (hrest : rest.length + 2 ≤ current.length)
    (h : parseArg options p type current found value rest = .ok q) :
    weight q.args < weight (current :: p.args) := by
  have hweight : weight (current :: p.args) = current.length + 1 + weight p.args := by simp [weight]
  unfold parseArg at h
  split at h
  · obtain rfl := Except.ok.inj h
    change weight p.args < _
    omega
  · have hle := weight_parseFound h
    omega

/-- What is split off a short argument. -/
lemma splitShort_eq_some {current rest : Str} {c : UInt8}
    (h : splitShort current = some (c, rest)) :
    current = 45 :: c :: rest ∧ validFirstChar c = true := by
  match current with
  | [] => cases h
  | [_] => cases h
  | d :: c' :: rest' =>
    simp only [splitShort] at h
    split_ifs at h with hc
    obtain ⟨rfl, rfl⟩ : c' = c ∧ rest' = rest := by simpa using h
    exact ⟨by rw [hc.1], hc.2⟩

/-- What is split off a long argument. -/
lemma splitLong_eq_some {current name value : Str} (h : splitLong current = some (name, value)) :
    ∃ c s, current = 45 :: 45 :: c :: s ∧ validFirstChar c = true ∧
      name = (c :: s).takeWhile (· != 61) ∧ value = ((c :: s).dropWhile (· != 61)).tail := by
  match current with
  | [] => cases h
  | [_] => cases h
  | [_, _] => cases h
  | d :: d' :: c :: s =>
    simp only [splitLong] at h
    split_ifs at h with hc
    obtain ⟨rfl, rfl⟩ := Prod.mk.inj (Option.some.inj h)
    exact ⟨c, s, by rw [hc.1, hc.2.1], hc.2.2, rfl, rfl⟩

/-- **Every iteration makes the arguments lighter.** -/
lemma weight_parseSingle {options : List AppOption} {p q : Parser} (hne : p.args ≠ [])
    (h : parseSingle options p = .ok q) : weight q.args < weight p.args := by
  obtain ⟨current, args, hargs⟩ := List.exists_cons_of_ne_nil hne
  have hweight : weight args < weight (current :: args) := by simp [weight]
  simp only [parseSingle, hargs] at h
  rw [hargs]
  split at h
  · obtain rfl := Except.ok.inj h
    exact hweight
  · obtain rfl := Except.ok.inj h
    exact hweight
  · split at h
    · cases h
    · next name value hsplit =>
      obtain ⟨c, s, rfl, -, -, -⟩ := splitLong_eq_some hsplit
      exact weight_parseArg (by simp) h
  · split at h
    · cases h
    · next c rest hsplit =>
      obtain ⟨rfl, -⟩ := splitShort_eq_some hsplit
      exact weight_parseArg (by simp) h

/-- Only no arguments weigh nothing. -/
lemma eq_nil_of_weight {args : List Str} (h : weight args = 0) : args = [] := by
  cases args with
  | nil => rfl
  | cons current args => simp [weight] at h

/-- With enough iterations, their number does not matter. -/
lemma loop_congr {options : List AppOption} {n m : ℕ} {p : Parser} (hn : weight p.args ≤ n)
    (hm : weight p.args ≤ m) : loop options n p = loop options m p := by
  induction n generalizing m p with
  | zero =>
    have hnil : p.args = [] := eq_nil_of_weight (Nat.le_zero.mp hn)
    cases m <;> simp [loop, hnil]
  | succ n ih =>
    cases m with
    | zero =>
      have hnil : p.args = [] := eq_nil_of_weight (Nat.le_zero.mp hm)
      simp [loop, hnil]
    | succ m =>
      simp only [loop]
      split_ifs with hnil
      · rfl
      · cases hstep : parseSingle options p with
        | error e => rfl
        | ok q =>
          have hlt := weight_parseSingle hnil hstep
          exact ih (by omega) (by omega)

/-- **The loop ends, and can be unrolled.** -/
lemma parseArgs_eq (options : List AppOption) (p : Parser) :
    parseArgs options p =
      if p.args = [] then .ok p else (parseSingle options p).bind (parseArgs options) := by
  rw [parseArgs, loop_congr le_rfl (Nat.le_succ _), loop]
  split_ifs with hnil
  · rfl
  · cases hstep : parseSingle options p with
    | error e => rfl
    | ok q => exact loop_congr (by have := weight_parseSingle hnil hstep; omega) le_rfl

/-! ## After the loop -/

/-- `_process`: help first, then the callbacks of all options. -/
def process (options : List AppOption) (results : List (List Str)) :
    Except ParseError (List (Option Str)) :=
  if (options.zip results).any fun r => r.1.flag && !r.2.isEmpty then .error .callForHelp
  else (options.zip results).mapM fun r => runCallback r.1 r.2

/-- `_process_extras`: nothing may be left over but the mark `--`. -/
def processExtras (name : Str) (missing : List (Classifier × Str)) : Except ParseError Unit :=
  if (missing.countP fun m => m.1 ≠ .positionalMark) = 0 then .ok ()
  else .error (extrasErrorOf name (missing.map Prod.snd))

/-- `App::parse` of the arguments of `main`: the values of the options that were given. -/
def App.parse (app : App) (argv : List Str) : Except ParseError (List (Option Str)) := do
  let p ← parseArgs app.options { results := app.options.map fun _ => [], args := argv.tail }
  let values ← process app.options p.results
  processExtras (argv.headD []) p.missing
  return values

end CLI
