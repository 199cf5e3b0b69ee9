import Vsna.CommandLine.Parse

set_option relaxedAutoImplicit false
set_option autoImplicit false

/-!
# What a command line says

The grammar of command lines, without reference to the parser: an option is written with its short
or its long name, its value follows in the same argument or in the next one, and a short flag may be
followed by more short names in the same argument. Everything after the mark `--` is unexpected, and
so is every other argument that does not name an option.

Every command line can be read in this way, and the parser does what its reading says.

## Main definitions

* `CLI.Item` — the pieces of a command line.
* `CLI.Reading` — the grammar.
* `CLI.outcome` — what a reading comes to.

## Main results

* `CLI.exists_reading` — every command line can be read.
* `CLI.parse_of_reading` — the parser does what the reading says.
-/

namespace CLI

open Text

/-! ## The grammar -/

/-- The short name of an option as it is written. -/
def AppOption.short (o : AppOption) : Str := [45, o.sname]

/-- The long name of an option as it is written. -/
def AppOption.long (o : AppOption) : Str := 45 :: 45 :: o.lname

/-- The argument begins with a name of the option. -/
inductive Names (o : AppOption) : Str → Prop
  | short (rest : Str) : Names o (o.short ++ rest)
  | long : Names o o.long
  | longValue (value : Str) : Names o (o.long ++ 61 :: value)

/-- The argument names the option and leaves its value to the next argument. -/
inductive Opens (o : AppOption) : Str → Prop
  | short : Opens o o.short
  | long : Opens o o.long
  | longEq : Opens o (o.long ++ [61])

/-- The argument names the option and holds its value. -/
inductive Joins (o : AppOption) : Str → Str → Prop
  | short {value : Str} (hv : value ≠ []) : Joins o (o.short ++ value) value
  | long {value : Str} (hv : value ≠ []) : Joins o (o.long ++ 61 :: value) value

/-- A piece of a command line. -/
inductive Item
  /-- Option `i` is given a value. -/
  | given (i : ℕ) (value : Str)
  /-- The mark `--`. -/
  | separator
  /-- An argument that is not expected. -/
  | extra (s : Str)

/-- What is left of an argument after a short flag. -/
def dashed (rest : Str) (args : List Str) : List Str :=
  if rest = [] then args else (45 :: rest) :: args

/-- The arguments read as these pieces. If the last argument is an option that its value is missing
from, the reading stops there. -/
inductive Reading (options : List AppOption) : List Str → List Item → Option AppOption → Prop
  | nil : Reading options [] [] none
  | stop {o : AppOption} {a : Str} (ho : o ∈ options) (hf : o.flag = false) (ha : Opens o a) :
    Reading options [a] [] (some o)
  | next {i : ℕ} {o : AppOption} {a : Str} (value : Str) {args : List Str} {items : List Item}
    {last : Option AppOption} (ho : options[i]? = some o) (hf : o.flag = false) (ha : Opens o a)
    (hargs : Reading options args items last) :
    Reading options (a :: value :: args) (.given i value :: items) last
  | joined {i : ℕ} {o : AppOption} {a value : Str} {args : List Str} {items : List Item}
    {last : Option AppOption} (ho : options[i]? = some o) (hf : o.flag = false)
    (ha : Joins o a value) (hargs : Reading options args items last) :
    Reading options (a :: args) (.given i value :: items) last
  | shortFlag {i : ℕ} {o : AppOption} (rest : Str) {args : List Str} {items : List Item}
    {last : Option AppOption} (ho : options[i]? = some o) (hf : o.flag = true)
    (hargs : Reading options (dashed rest args) items last) :
    Reading options ((o.short ++ rest) :: args) (.given i "true" :: items) last
  | longFlag {i : ℕ} {o : AppOption} {args : List Str} {items : List Item}
    {last : Option AppOption} (ho : options[i]? = some o) (hf : o.flag = true)
    (hargs : Reading options args items last) :
    Reading options (o.long :: args) (.given i "true" :: items) last
  | longFlagValue {i : ℕ} {o : AppOption} (value : Str) {args : List Str} {items : List Item}
    {last : Option AppOption} (ho : options[i]? = some o) (hf : o.flag = true)
    (hargs : Reading options args items last) :
    Reading options ((o.long ++ 61 :: value) :: args) (.given i (flagValue value) :: items) last
  | separator (args : List Str) :
    Reading options ("--" :: args) (.separator :: args.map .extra) none
  | extra {a : Str} {args : List Str} {items : List Item} {last : Option AppOption} (ha : a ≠ "--")
    (hnames : ∀ o ∈ options, ¬ Names o a) (hargs : Reading options args items last) :
    Reading options (a :: args) (.extra a :: items) last

/-- The results of the options after one more piece. -/
def Item.store (results : List (List Str)) : Item → List (List Str)
  | .given i value => results.modify i (· ++ [stored value])
  | _ => results

/-- What a piece leaves over: is it the mark, and its text. -/
def Item.leftOver : Item → Option (Bool × Str)
  | .given _ _ => none
  | .separator => some (true, "--")
  | .extra s => some (false, s)

/-- What a reading comes to, for an application that was called by `name`: an error, or the values
of the options that were given. -/
def outcome (options : List AppOption) (name : Str) (items : List Item) :
    Option AppOption → Except ParseError (List (Option Str))
  | some o => .error (typedAtLeast o)
  | none => do
    let values ← process options (items.foldl Item.store (options.map fun _ => []))
    if (items.filterMap Item.leftOver).all Prod.fst then return values
    else throw (extrasErrorOf name ((items.filterMap Item.leftOver).map Prod.snd))

variable {options : List AppOption} {o : AppOption} {i : ℕ} {p q : Parser}

/-! ## Recognizing names -/

/-- A long name begins with a byte that a name may begin with. -/
lemma Proper.exists_lname (h : Proper options) (ho : o ∈ options) :
    ∃ c s, o.lname = c :: s ∧ validFirstChar c = true := by
  have hname := h.lname o ho
  cases hl : o.lname with
  | nil => simp [hl] at hname
  | cons c s => exact ⟨c, s, rfl, by simpa [hl] using hname⟩

/-- A short name is not a dash. -/
lemma Proper.sname_ne (h : Proper options) (ho : o ∈ options) : o.sname ≠ 45 := by
  intro hs
  have hname := h.sname o ho
  rw [hs] at hname
  exact absurd hname (by decide)

/-- What is split off an argument with a long name. -/
lemma splitLong_long (h : Proper options) (ho : o ∈ options) {value : Str}
    (hv : value = [] ∨ value.head? = some 61) :
    splitLong (o.long ++ value) = some (o.lname, value.tail) := by
  obtain ⟨c, s, hname, hc⟩ := h.exists_lname ho
  have hno : ∀ b ∈ o.lname, (b != 61) = true := by
    intro b hb
    have hne : b ≠ 61 := fun heq => h.noValue o ho (heq ▸ hb)
    simpa using hne
  have hsplit : splitLong (o.long ++ value) = some ((o.lname ++ value).takeWhile (· != 61),
      ((o.lname ++ value).dropWhile (· != 61)).tail) := by
    simp [AppOption.long, hname, splitLong, hc]
  rw [hsplit, List.takeWhile_append_of_pos hno, List.dropWhile_append_of_pos hno]
  rcases hv with rfl | hv
  · simp
  · obtain ⟨rest, rfl⟩ : ∃ rest, value = 61 :: rest := List.head?_eq_some_iff.mp hv
    simp

/-- What is split off an argument with a short name. -/
lemma splitShort_short (h : Proper options) (ho : o ∈ options) (rest : Str) :
    splitShort (o.short ++ rest) = some (o.sname, rest) := by
  simp [AppOption.short, splitShort, h.sname o ho]

/-- An argument with a long name is recognized. -/
lemma recognize_long (h : Proper options) (ho : o ∈ options) {value : Str}
    (hv : value = [] ∨ value.head? = some 61) : recognize options (o.long ++ value) = .long := by
  obtain ⟨c, s, hname, -⟩ := h.exists_lname ho
  have hne : o.long ++ value ≠ "--" := by simp [AppOption.long, hname, ascii]
  simp [recognize, hne, splitLong_long h ho hv]

/-- An argument with a short name is recognized, also if it looks like a number. -/
lemma recognize_short (h : Proper options) (ho : o ∈ options) (rest : Str) :
    recognize options (o.short ++ rest) = .short := by
  have hs := h.sname_ne ho
  have hne : o.short ++ rest ≠ "--" := by simp [AppOption.short, ascii, hs]
  have hlong : splitLong (o.short ++ rest) = none := by
    cases rest <;> simp [AppOption.short, splitLong, hs]
  have hany : (options.any fun o' => o'.sname == o.sname) = true :=
    List.any_eq_true.mpr ⟨o, ho, by simp⟩
  simp [recognize, hne, hlong, splitShort_short h ho, hany]

/-- The search for an option by a name finds the one that has it. -/
lemma find_zipIdx {α : Type} [BEq α] [LawfulBEq α] {f : AppOption → α}
    (hf : (options.map f).Nodup) (ho : options[i]? = some o) :
    (options.zipIdx.find? fun r => f r.1 == f o) = some (o, i) := by
  obtain ⟨hi, rfl⟩ := List.getElem?_eq_some_iff.mp ho
  refine List.find?_eq_some_iff_getElem.mpr ⟨by simp, i, by simpa using hi, by simp, ?_⟩
  intro j hj
  have hne : f options[j] ≠ f options[i] := by
    intro heq
    have hjl : j < (options.map f).length := by
      rw [List.length_map]
      omega
    have hil : i < (options.map f).length := by simpa using hi
    have hij : j = i := (List.Nodup.getElem_inj_iff hf).mp
      (show (options.map f)[j] = (options.map f)[i] by simpa using heq)
    omega
  simpa using hne

/-! ## One piece -/

/-- An argument with the long name of an option. -/
lemma parseSingle_long (h : Proper options) (ho : options[i]? = some o) {value : Str}
    (hv : value = [] ∨ value.head? = some 61) {args : List Str}
    (hargs : p.args = (o.long ++ value) :: args) (hp : p.positionalOnly = false) :
    parseSingle options p = parseFound { p with args := args } i o value.tail [] := by
  have hmem := List.mem_of_getElem? ho
  simp only [parseSingle, hargs, hp, Bool.false_eq_true, if_false, recognize_long h hmem hv,
    splitLong_long h hmem hv, parseArg, find_zipIdx h.lnames ho]

/-- An argument with the short name of an option. -/
lemma parseSingle_short (h : Proper options) (ho : options[i]? = some o) (rest : Str)
    {args : List Str} (hargs : p.args = (o.short ++ rest) :: args)
    (hp : p.positionalOnly = false) :
    parseSingle options p = parseFound { p with args := args } i o [] rest := by
  have hmem := List.mem_of_getElem? ho
  simp only [parseSingle, hargs, hp, Bool.false_eq_true, if_false, recognize_short h hmem,
    splitShort_short h hmem, parseArg, find_zipIdx h.snames ho]

/-- An argument that names no option is left over. -/
lemma parseSingle_extra {a : Str} {args : List Str} (ha : a ≠ "--")
    (hnames : ∀ o ∈ options, ¬ Names o a) (hargs : p.args = a :: args)
    (hp : p.positionalOnly = false) :
    ∃ c, c ≠ Classifier.positionalMark ∧
      parseSingle options p = .ok ({ p with args := args }.moveToMissing c a) := by
  simp only [parseSingle, hargs, hp, Bool.false_eq_true, if_false, recognize, if_neg ha]
  cases hlong : splitLong a with
  | some r =>
    obtain ⟨name, value⟩ := r
    obtain ⟨c, s, rfl, -, rfl, rfl⟩ := splitLong_eq_some hlong
    have hnone : (options.zipIdx.find? fun r => r.1.lname ==
        (c :: s).takeWhile (· != 61)) = none := by
      rw [List.find?_eq_none]
      intro r hr hname
      have hmem : r.1 ∈ options := List.fst_mem_of_mem_zipIdx hr
      have hl : r.1.lname = (c :: s).takeWhile (· != 61) := by simpa using hname
      have hcut := List.takeWhile_append_dropWhile (p := (· != 61)) (l := c :: s)
      cases hd : (c :: s).dropWhile (· != 61) with
      | nil =>
        refine hnames r.1 hmem ?_
        rw [← hcut, hd, List.append_nil, ← hl]
        exact .long
      | cons b rest =>
        have hb : b = 61 := by
          have := List.dropWhile_get_zero_not (· != 61) (c :: s) (by simp [hd])
          simpa [hd] using this
        refine hnames r.1 hmem ?_
        rw [← hcut, hd, ← hl, hb]
        exact .longValue rest
    exact ⟨.long, by decide, by simp only [Option.isSome_some, if_true, parseArg, hnone]⟩
  | none =>
    simp only [Option.isSome_none, Bool.false_eq_true, if_false]
    cases hshort : splitShort a with
    | none => exact ⟨.none, by decide, rfl⟩
    | some r =>
      obtain ⟨c, rest⟩ := r
      obtain ⟨rfl, -⟩ := splitShort_eq_some hshort
      simp only []
      split_ifs with hnum
      · exact ⟨.none, by decide, rfl⟩
      · have hnone : (options.zipIdx.find? fun r => r.1.sname == c) = none := by
          rw [List.find?_eq_none]
          intro r hr hname
          have hs : r.1.sname = c := by simpa using hname
          exact hnames r.1 (List.fst_mem_of_mem_zipIdx hr) (hs ▸ .short rest)
        exact ⟨.short, by decide, by simp only [parseArg, hnone]⟩

/-! ## The loop -/

/-- Something that could not be parsed: is it the mark, and its text. -/
def tag (m : Classifier × Str) : Bool × Str := (m.1 == .positionalMark, m.2)

/-- The parser has gone from `p` to `q` by storing these pieces. -/
structure Stores (items : List Item) (p q : Parser) : Prop where
  results : q.results = items.foldl Item.store p.results
  missing : q.missing.map tag = p.missing.map tag ++ items.filterMap Item.leftOver

/-- What the loop comes to from `p`, if the arguments read as these pieces. -/
def Ends (items : List Item) (p : Parser) : Option AppOption → Except ParseError Parser → Prop
  | some o, r => r = .error (typedAtLeast o)
  | none, r => ∃ q, r = .ok q ∧ Stores items p q

variable {item : Item} {items : List Item} {last : Option AppOption} {args : List Str}

/-- Without arguments the loop ends. -/
lemma ends_nil (hp : p.args = []) : Ends [] p none (parseArgs options p) := by
  rw [parseArgs_eq, if_pos hp]
  exact ⟨p, rfl, rfl, by simp⟩

/-- One iteration, and those that follow. -/
lemma Ends.cons (hne : p.args ≠ []) (hstep : parseSingle options p = .ok q)
    (hresults : q.results = item.store p.results)
    (hmissing : q.missing.map tag = p.missing.map tag ++ item.leftOver.toList)
    (h : Ends items q last (parseArgs options q)) :
    Ends (item :: items) p last (parseArgs options p) := by
  rw [parseArgs_eq, if_neg hne, hstep]
  cases last with
  | some o => exact h
  | none =>
    obtain ⟨q', hq', hs⟩ := h
    refine ⟨q', hq', ?_, ?_⟩
    · rw [hs.results, hresults, List.foldl_cons]
    · rw [hs.missing, hmissing, List.append_assoc]
      cases hl : item.leftOver <;> simp [hl]

/-- An iteration that stores a value for option `i`. -/
lemma Ends.given {value : Str} (hne : p.args ≠ [])
    (hstep : parseSingle options p = .ok ({ p with args := args }.addResult i value))
    (h : Ends items ({ p with args := args }.addResult i value) last
      (parseArgs options ({ p with args := args }.addResult i value))) :
    Ends (.given i value :: items) p last (parseArgs options p) :=
  h.cons hne hstep rfl (by simp [Parser.addResult, Item.leftOver])

/-- After the mark every argument is left over. -/
lemma ends_extras (hp : p.positionalOnly = true) :
    Ends (p.args.map .extra) p none (parseArgs options p) := by
  induction hargs : p.args generalizing p with
  | nil => exact ends_nil hargs
  | cons a args ih =>
    have hstep : parseSingle options p = .ok ({ p with args := args }.moveToMissing .none a) := by
      simp [parseSingle, hargs, hp]
    refine Ends.cons (by simp [hargs]) hstep rfl ?_ (ih (by exact hp) rfl)
    simp [Parser.moveToMissing, tag, Item.leftOver]

/-- **The loop does what the reading says.**

**Proof sketch.** Induction on the reading. The parser recognizes every name, takes what belongs
to it, and goes on with the rest. -/
lemma ends_of_reading (h : Proper options) (hr : Reading options args items last)
    (hargs : p.args = args) (hp : p.positionalOnly = false) :
    Ends items p last (parseArgs options p) := by
  induction hr generalizing p with
  | nil => exact ends_nil hargs
  | @stop o a ho hf ha =>
    obtain ⟨i, hi⟩ := List.getElem?_of_mem ho
    have hstep : parseSingle options p = parseFound { p with args := [] } i o [] [] := by
      cases ha with
      | short => exact parseSingle_short h hi [] (by simpa using hargs) hp
      | long => exact parseSingle_long h hi (Or.inl rfl) (by simpa using hargs) hp
      | longEq => exact parseSingle_long h hi (Or.inr rfl) hargs hp
    change parseArgs options p = _
    rw [parseArgs_eq, if_neg (by simp [hargs]), hstep]
    simp [parseFound, hf, Except.bind]
  | @next i o a value args items last hi hf ha _ ih =>
    have hstep : parseSingle options p = parseFound { p with args := value :: args } i o [] [] := by
      cases ha with
      | short => exact parseSingle_short h hi [] (by simpa using hargs) hp
      | long => exact parseSingle_long h hi (Or.inl rfl) (by simpa using hargs) hp
      | longEq => exact parseSingle_long h hi (Or.inr rfl) hargs hp
    refine Ends.given (by simp [hargs]) (hstep.trans ?_) (ih rfl hp)
    simp [parseFound, hf]
  | @joined i o a value args items last hi hf ha _ ih =>
    have hstep : parseSingle options p = .ok ({ p with args := args }.addResult i value) := by
      cases ha with
      | short hv =>
        rw [parseSingle_short h hi value hargs hp]
        simp [parseFound, hf, hv]
      | long hv =>
        rw [parseSingle_long h hi (Or.inr rfl) hargs hp]
        simp [parseFound, hf, hv]
    exact Ends.given (by simp [hargs]) hstep (ih rfl hp)
  | @shortFlag i o rest args items last hi hf _ ih =>
    have hstep : parseSingle options p =
        .ok ({ p with args := dashed rest args }.addResult i "true") := by
      rw [parseSingle_short h hi rest hargs hp]
      cases rest <;> simp [parseFound, hf, flagValue, dashed, Parser.addResult]
    exact Ends.given (by simp [hargs]) hstep (ih rfl hp)
  | @longFlag i o args items last hi hf _ ih =>
    have hstep : parseSingle options p = .ok ({ p with args := args }.addResult i "true") := by
      rw [parseSingle_long h hi (Or.inl rfl) (by simpa using hargs) hp]
      simp [parseFound, hf, flagValue]
    exact Ends.given (by simp [hargs]) hstep (ih rfl hp)
  | @longFlagValue i o value args items last hi hf _ ih =>
    have hstep : parseSingle options p =
        .ok ({ p with args := args }.addResult i (flagValue value)) := by
      rw [parseSingle_long h hi (Or.inr rfl) hargs hp]
      simp [parseFound, hf]
    exact Ends.given (by simp [hargs]) hstep (ih rfl hp)
  | separator args =>
    have hstep : parseSingle options p = .ok ({ p with args := args, positionalOnly := true
        }.moveToMissing .positionalMark "--") := by
      simp [parseSingle, hargs, hp, recognize]
    refine Ends.cons (by simp [hargs]) hstep rfl ?_ (ends_extras rfl)
    simp [Parser.moveToMissing, tag, Item.leftOver]
  | @extra a args items last ha hnames _ ih =>
    obtain ⟨c, hc, hstep⟩ := parseSingle_extra ha hnames hargs hp
    refine Ends.cons (by simp [hargs]) hstep rfl ?_ (ih rfl hp)
    simp [Parser.moveToMissing, tag, Item.leftOver, hc]

/-- What is left over decides about the error at the end. -/
lemma processExtras_eq (name : Str) {missing : List (Classifier × Str)} {l : List (Bool × Str)}
    (h : missing.map tag = l) :
    processExtras name missing =
      if l.all Prod.fst then .ok () else .error (extrasErrorOf name (l.map Prod.snd)) := by
  subst h
  have hzero : (missing.countP fun m => m.1 ≠ .positionalMark) = 0 ↔
      ((missing.map tag).all Prod.fst) = true := by
    simp [tag]
  simp only [processExtras, hzero, List.map_map]
  rfl

/-- **The parser does what the reading of its arguments says.** -/
theorem parse_of_reading {app : App} {argv : List Str}
    (h : Reading app.options argv.tail items last) :
    app.parse argv = outcome app.options (argv.headD []) items last := by
  let p : Parser := { results := app.options.map fun _ => [], args := argv.tail }
  have hends := ends_of_reading app.proper (p := p) h rfl rfl
  cases last with
  | some o =>
    have herror : parseArgs app.options p = .error (typedAtLeast o) := hends
    rw [App.parse, herror]
    rfl
  | none =>
    obtain ⟨q, hq, hs⟩ := hends
    have hmissing : q.missing.map tag = items.filterMap Item.leftOver := hs.missing
    rw [App.parse, hq, outcome, ← hs.results]
    change (process app.options q.results >>= fun values =>
      processExtras (argv.headD []) q.missing >>= fun _ => pure values) = _
    rw [processExtras_eq _ hmissing]
    refine congrArg _ (funext fun values => ?_)
    split_ifs <;> rfl

/-! ## Every command line can be read -/

/-- An argument names no option, or one. -/
lemma names_or_not (options : List AppOption) (a : Str) :
    (∀ o ∈ options, ¬ Names o a) ∨ ∃ (i : ℕ) (o : AppOption), options[i]? = some o ∧ Names o a := by
  by_cases hall : ∀ o ∈ options, ¬ Names o a
  · exact Or.inl hall
  · push Not at hall
    obtain ⟨o, ho, hnames⟩ := hall
    obtain ⟨i, hi⟩ := List.getElem?_of_mem ho
    exact Or.inr ⟨i, o, hi, hnames⟩

/-- **Every command line can be read.**

**Proof sketch.** Induction on the weight of the arguments. The first one is the mark, or it names
an option, and the value is in it, after it, or missing; or it is not expected. -/
theorem exists_reading (options : List AppOption) (args : List Str) :
    ∃ items last, Reading options args items last := by
  induction hn : weight args using Nat.strong_induction_on generalizing args with
  | _ n ih =>
    have ih' : ∀ args', weight args' < weight args →
        ∃ items last, Reading options args' items last := fun args' hlt =>
      ih _ (hn ▸ hlt) args' rfl
    cases args with
    | nil => exact ⟨[], none, .nil⟩
    | cons a args =>
      obtain ⟨items, last, hargs⟩ := ih' args (by simp [weight])
      -- a value that is in the next argument, or missing
      have hopens : ∀ {i : ℕ} {o : AppOption}, options[i]? = some o → o.flag = false →
          Opens o a → ∃ items last, Reading options (a :: args) items last := by
        intro i o hi hf ha
        cases args with
        | nil => exact ⟨[], some o, .stop (List.mem_of_getElem? hi) hf ha⟩
        | cons value args =>
          obtain ⟨items, last, hrest⟩ := ih' args (by simp [weight]; omega)
          exact ⟨_, _, .next value hi hf ha hrest⟩
      by_cases ha : a = "--"
      · subst ha
        exact ⟨_, _, .separator args⟩
      · rcases names_or_not options a with hnames | ⟨i, o, hi, hnames⟩
        · exact ⟨_, _, .extra ha hnames hargs⟩
        · cases hf : o.flag with
          | true =>
            cases hnames with
            | short rest =>
              obtain ⟨items, last, hrest⟩ := ih' (dashed rest args) (by
                cases rest <;> simp [weight, dashed, AppOption.short])
              exact ⟨_, _, .shortFlag rest hi hf hrest⟩
            | long => exact ⟨_, _, .longFlag hi hf hargs⟩
            | longValue value => exact ⟨_, _, .longFlagValue value hi hf hargs⟩
          | false =>
            cases hnames with
            | long => exact hopens hi hf .long
            | short rest =>
              by_cases hrest : rest = []
              · subst hrest
                exact hopens hi hf (by simpa using Opens.short (o := o))
              · exact ⟨_, _, .joined hi hf (.short hrest) hargs⟩
            | longValue value =>
              by_cases hvalue : value = []
              · subst hvalue
                exact hopens hi hf .longEq
              · exact ⟨_, _, .joined hi hf (.long hvalue) hargs⟩

end CLI
