import Mathlib.Data.List.Forall2
import Vsna.CommandLine.Reading

set_option relaxedAutoImplicit false
set_option autoImplicit false

/-!
# Command lines that are accepted

A command line is accepted if nothing in it is unexpected, help is not called for, and no option is
given twice. What it says about an option is then the value it is given, and neither the order
of the options nor the way in which they are written matters.

## Main definitions

* `CLI.given` — the values that an option is given.
* `CLI.Holds`, `CLI.Accepted` — what is accepted.

## Main results

* `CLI.parse_eq_ok_iff` — the accepted command lines, and their values.
* `CLI.parse_spec` — what the parser does with every command line.
* `CLI.parse_perm` — order and way of writing do not matter.
-/

namespace CLI

open Text

/-! ## Values -/

/-- The values that option `i` is given, as they are stored. -/
def given (i : ℕ) (items : List Item) : List Str :=
  items.filterMap fun
    | .given j value => if j = i then some (stored value) else none
    | _ => none

/-- The results of an option come to this value. More than one result is an error, except for a pair
that stands for an empty container. -/
inductive Holds : List Str → Option Str → Prop
  | none : Holds [] none
  | one (value : Str) : Holds [value] (some value)
  | braces : Holds [braces, percents] (some braces)

/-- The pieces of a command line that is accepted, and the values of its options. -/
structure Accepted (options : List AppOption) (items : List Item) (values : List (Option Str)) :
    Prop where
  expected : ∀ s, Item.extra s ∉ items
  noHelp : ∀ (i : ℕ) o, options[i]? = some o → o.flag = true → given i items = []
  length : values.length = options.length
  holds : ∀ (i : ℕ) v, values[i]? = some v → Holds (given i items) v

variable {options : List AppOption} {o : AppOption} {i : ℕ} {items items' : List Item}
  {values : List (Option Str)} {results : List (List Str)}

/-- Storing pieces adds to each option what it is given. -/
lemma getElem?_foldl_store (items : List Item) (results : List (List Str)) (i : ℕ) :
    (items.foldl Item.store results)[i]? = results[i]?.map (· ++ given i items) := by
  induction items generalizing results with
  | nil => simp [given]
  | cons item items ih =>
    rw [List.foldl_cons, ih]
    cases item with
    | given j value =>
      rw [Item.store, List.getElem?_modify]
      by_cases hij : j = i
      · subst hij
        cases results[j]? <;> simp [given]
      · cases results[i]? <;> simp [given, hij]
    | separator => rfl
    | extra s => rfl

/-- Storing pieces keeps the number of options. -/
lemma length_foldl_store (items : List Item) (results : List (List Str)) :
    (items.foldl Item.store results).length = results.length := by
  induction items generalizing results with
  | nil => rfl
  | cons item items ih =>
    rw [List.foldl_cons, ih]
    cases item <;> simp [Item.store]

/-! ## Callbacks -/

/-- When the callback of an option assigns, and what. -/
lemma runCallback_eq_ok_iff {rs : List Str} {v : Option Str} :
    runCallback o rs = .ok v ↔ Holds rs v := by
  constructor
  · intro h
    match rs with
    | [] =>
      obtain rfl : none = v := Except.ok.inj h
      exact .none
    | [r] =>
      have hone : runCallback o [r] = .ok (some r) := by
        by_cases hr : r = braces <;> simp [runCallback, reduceResults, hr, Except.map]
      obtain rfl : some r = v := Except.ok.inj (hone.symm.trans h)
      exact .one r
    | r :: r' :: rs =>
      by_cases hpair : r :: r' :: rs = [braces, percents]
      · rw [hpair] at h ⊢
        obtain rfl : some _ = v := Except.ok.inj h
        exact .braces
      · simp [runCallback, reduceResults, hpair, Except.map] at h
  · rintro (_ | _ | _)
    · rfl
    · next value =>
      by_cases hr : value = braces <;> simp [runCallback, reduceResults, hr, Except.map]
    · rfl

/-- A traversal that succeeds, element by element. -/
lemma mapM_eq_ok_iff {α β ε : Type} {f : α → Except ε β} {l : List α} {l' : List β} :
    l.mapM f = .ok l' ↔ List.Forall₂ (fun a b => f a = .ok b) l l' := by
  induction l generalizing l' with
  | nil => cases l' <;> simp [pure, Except.pure]
  | cons a l ih =>
    rw [List.mapM_cons, List.forall₂_cons_left_iff]
    cases hf : f a with
    | error e => simp [bind, Except.bind]
    | ok b =>
      cases hl : l.mapM f with
      | error e => simp [bind, Except.bind, ← ih, hl]
      | ok bs => simp [bind, Except.bind, pure, Except.pure, ← ih, hl, eq_comm]

/-- **When the parser is satisfied with the results**: no flag has any, and those of every option
come to a value. -/
lemma process_eq_ok_iff (hlen : results.length = options.length) :
    process options results = .ok values ↔
      (∀ (i : ℕ) o, options[i]? = some o → o.flag = true → results[i]? = some []) ∧
        values.length = options.length ∧
        ∀ (i : ℕ) r v, results[i]? = some r → values[i]? = some v → Holds r v := by
  have hflag : ((options.zip results).any fun r => r.1.flag && !r.2.isEmpty) = true ↔
      ¬ ∀ (i : ℕ) o, options[i]? = some o → o.flag = true → results[i]? = some [] := by
    rw [List.any_eq_true]
    push Not
    constructor
    · rintro ⟨⟨o, r⟩, hmem, hr⟩
      obtain ⟨i, hi⟩ := List.getElem?_of_mem hmem
      obtain ⟨ho, hres⟩ := List.getElem?_zip_eq_some.mp hi
      simp only [Bool.and_eq_true, Bool.not_eq_true', List.isEmpty_eq_false_iff] at hr
      exact ⟨i, o, ho, hr.1, by simpa [hres] using hr.2⟩
    · rintro ⟨i, o, ho, hf, hne⟩
      obtain ⟨hi, rfl⟩ := List.getElem?_eq_some_iff.mp ho
      have hres : results[i]? = some results[i] := List.getElem?_eq_getElem (by omega)
      refine ⟨(options[i], results[i]), List.mem_of_getElem? (i := i)
        (List.getElem?_zip_eq_some.mpr ⟨ho, hres⟩), ?_⟩
      simp only [Bool.and_eq_true, Bool.not_eq_true', List.isEmpty_eq_false_iff]
      exact ⟨hf, by simpa [hres] using hne⟩
  unfold process
  split_ifs with hany
  · exact iff_of_false (by simp) fun h => hflag.mp hany h.1
  · have hall := not_not.mp (fun h => hany (hflag.mpr h))
    rw [mapM_eq_ok_iff, List.forall₂_iff_get, and_iff_right hall]
    simp only [List.length_zip, hlen, Nat.min_self, List.get_eq_getElem, List.getElem_zip,
      runCallback_eq_ok_iff]
    refine and_congr eq_comm ⟨fun h i r v hr hv => ?_, fun h i hi hi' => ?_⟩
    · obtain ⟨hi, rfl⟩ := List.getElem?_eq_some_iff.mp hr
      obtain ⟨hi', rfl⟩ := List.getElem?_eq_some_iff.mp hv
      exact h i (by omega) hi'
    · exact h i _ _ (List.getElem?_eq_getElem (by omega)) (List.getElem?_eq_getElem hi')

/-! ## Command lines -/

variable {app : App} {argv argv' : List Str}

/-- Nothing but marks is left over if nothing is unexpected. -/
lemma all_leftOver_iff (items : List Item) :
    (items.filterMap Item.leftOver).all Prod.fst = true ↔ ∀ s, Item.extra s ∉ items := by
  rw [List.all_eq_true]
  constructor
  · intro h s hs
    exact absurd (h (false, s) (List.mem_filterMap.mpr ⟨_, hs, rfl⟩)) (by simp)
  · intro h x hx
    obtain ⟨item, hitem, hl⟩ := List.mem_filterMap.mp hx
    cases item with
    | given i value => cases hl
    | separator =>
      obtain rfl := Option.some.inj hl
      rfl
    | extra s => exact absurd hitem (h s)

/-- When a reading comes to values. -/
lemma outcome_eq_ok_iff {name : Str} :
    outcome options name items none = .ok values ↔ Accepted options items values := by
  let results := items.foldl Item.store (options.map fun _ => [])
  have hlen : results.length = options.length := by
    rw [length_foldl_store, List.length_map]
  have hresults : ∀ {i : ℕ}, i < options.length → results[i]? = some (given i items) := by
    intro i hi
    rw [getElem?_foldl_store, List.getElem?_map, List.getElem?_eq_getElem hi]
    rfl
  have houtcome : outcome options name items none = .ok values ↔
      process options results = .ok values ∧ ∀ s, Item.extra s ∉ items := by
    rw [← all_leftOver_iff]
    change (process options results >>= fun values => _) = _ ↔ _
    cases hp : process options results with
    | error e => simp [bind, Except.bind]
    | ok vs =>
      cases hall : (items.filterMap Item.leftOver).all Prod.fst <;>
        simp [bind, Except.bind, pure, Except.pure, throw, throwThe, MonadExceptOf.throw]
  rw [houtcome, process_eq_ok_iff hlen]
  constructor
  · rintro ⟨⟨hflag, hl, hholds⟩, hexpected⟩
    refine ⟨hexpected, fun i o ho hf => ?_, hl, fun i v hv => ?_⟩
    · have hi := (List.getElem?_eq_some_iff.mp ho).1
      exact Option.some.inj ((hresults hi).symm.trans (hflag i o ho hf))
    · have hi := (List.getElem?_eq_some_iff.mp hv).1
      exact hholds i _ v (hresults (hl ▸ hi)) hv
  · intro h
    refine ⟨⟨fun i o ho hf => ?_, h.length, fun i r v hr hv => ?_⟩, h.expected⟩
    · have hi := (List.getElem?_eq_some_iff.mp ho).1
      rw [hresults hi, h.noHelp i o ho hf]
    · have hi := (List.getElem?_eq_some_iff.mp hr).1
      obtain rfl := Option.some.inj ((hresults (hlen ▸ hi)).symm.trans hr)
      exact h.holds i v hv

/-- **The accepted command lines, and their values.** -/
lemma parse_eq_ok_iff : app.parse argv = .ok values ↔
    ∃ items, Reading app.options argv.tail items none ∧ Accepted app.options items values := by
  constructor
  · intro h
    obtain ⟨items, last, hr⟩ := exists_reading app.options argv.tail
    rw [parse_of_reading hr] at h
    cases last with
    | some o => cases h
    | none => exact ⟨items, hr, outcome_eq_ok_iff.mp h⟩
  · rintro ⟨items, hr, hacc⟩
    rw [parse_of_reading hr]
    exact outcome_eq_ok_iff.mpr hacc

/-- **What the parser does with every command line**: it can be read, and whichever way it is read,
the parser does what the reading says. -/
theorem parse_spec (app : App) (argv : List Str) :
    (∃ items last, Reading app.options argv.tail items last) ∧
      ∀ items last, Reading app.options argv.tail items last →
        app.parse argv = outcome app.options (argv.headD []) items last :=
  ⟨exists_reading app.options argv.tail, fun _ _ => parse_of_reading⟩

/-- The pieces of an accepted command line may be given in another order, if no option is given
twice. -/
lemma Accepted.perm (h : Accepted options items values) (hp : items.Perm items')
    (honce : ∀ i, (given i items).length ≤ 1) : Accepted options items' values := by
  have hgiven : ∀ i, given i items' = given i items := by
    intro i
    have hperm : (given i items).Perm (given i items') := hp.filterMap _
    rcases Nat.le_one_iff_eq_zero_or_eq_one.mp (honce i) with hzero | hone
    · have hnil := List.length_eq_zero_iff.mp hzero
      rw [hnil] at hperm ⊢
      exact hperm.nil_eq.symm
    · obtain ⟨value, hvalue⟩ := List.length_eq_one_iff.mp hone
      rw [hvalue] at hperm ⊢
      exact (List.singleton_perm.mp hperm).symm
  refine ⟨fun s hs => h.expected s (hp.mem_iff.mpr hs), fun i o ho hf => ?_, h.length,
    fun i v hv => ?_⟩
  · rw [hgiven]
    exact h.noHelp i o ho hf
  · rw [hgiven]
    exact h.holds i v hv

/-- **Neither the order of the options nor the way in which they are written matters**: if a
command line is accepted that gives no option twice, then every other one that says the same in
another order, with any of the forms that options can be written in, has the same values.

**Proof sketch.** The values depend on what each option is given, and a permutation of the pieces
does not change this if each option is given one value at most. -/
theorem parse_perm (h : Reading app.options argv.tail items none)
    (h' : Reading app.options argv'.tail items' none) (hp : items.Perm items')
    (honce : ∀ i, (given i items).length ≤ 1) (hparse : app.parse argv = .ok values) :
    app.parse argv' = .ok values := by
  rw [parse_of_reading h] at hparse
  rw [parse_of_reading h']
  exact outcome_eq_ok_iff.mpr ((outcome_eq_ok_iff.mp hparse).perm hp honce)

/-- An application with two options. -/
def twoOptions : App where
  options := [⟨105, "ip", false⟩, ⟨112, "port", false⟩]
  proper := ⟨by decide, by decide, by decide, by decide, by decide⟩
  help := []

/-- `-i a -p b` is the same as `--port=b -ia`. -/
theorem parse_perm_two :
    twoOptions.parse ["vsna", "--port=b", "-ia"] = .ok [some "a", some "b"] := by
  let argv : List Str := ["vsna", "-i", "a", "-p", "b"]
  let argv' : List Str := ["vsna", "--port=b", "-ia"]
  have h : Reading twoOptions.options argv.tail [.given 0 "a", .given 1 "b"] none :=
    .next "a" rfl rfl .short (.next "b" rfl rfl .short .nil)
  have h' : Reading twoOptions.options argv'.tail [.given 1 "b", .given 0 "a"] none :=
    .joined rfl rfl (.long (by decide)) (.joined rfl rfl (.short (by decide)) .nil)
  have hvalues : twoOptions.parse argv = .ok [some "a", some "b"] := rfl
  have honce : ∀ i, (given i [.given 0 "a", .given 1 "b"]).length ≤ 1
    | 0 => le_rfl
    | 1 => le_rfl
    | i + 2 => Nat.zero_le 1
  exact parse_perm h h' (.swap _ _ _) honce hvalues

end CLI
