import Mathlib.Data.List.Induction
import Vsna.Json.Grammar

set_option relaxedAutoImplicit false
set_option autoImplicit false

/-!
# The values of JSON

What the parser returns: its strings are in UTF-8, its numbers are numerals that a `double` can
hold, and no object has two members with one key. Every such value is returned for some text.

## Main definitions

* `Nlohmann.Proper` — such a value.
* `Nlohmann.quote` — a string, with its escapes.

## Main results

* `Nlohmann.member_collect` — of several members with one key the last counts.
* `Nlohmann.Derives.proper`, `Nlohmann.Proper.hasText` — the values of the grammar.
* `Nlohmann.exists_parseJson_iff` — the values that the parser returns.
* `Nlohmann.parseJson_append` — what follows an array or an object is not looked at.
-/

namespace Nlohmann

open Text Automata Vsna

/-! ## Members -/

variable {k k' : Str} {v : Json} {members : List (Str × Json)}

/-- What a member is after an assignment. -/
lemma member_assign : Json.member (assign k v members) k' =
    if k' = k then some v else Json.member members k' := by
  induction members with
  | nil =>
    by_cases h : k' = k
    · simp [assign, Json.member, h]
    · simp [assign, Json.member, h, Ne.symm h]
  | cons m members ih =>
    simp only [Json.member] at ih ⊢
    by_cases hm : m.1 = k
    · by_cases h : k' = k
      · simp [assign, hm, h]
      · simp [assign, hm, h, Ne.symm h]
    · rw [assign, if_neg hm]
      by_cases hm' : m.1 = k'
      · simp [hm', show k' ≠ k from hm' ▸ hm]
      · simp [hm', ih]

/-- The keys after an assignment. -/
lemma keys_assign : (assign k v members).map Prod.fst =
    if k ∈ members.map Prod.fst then members.map Prod.fst else members.map Prod.fst ++ [k] := by
  induction members with
  | nil => simp [assign]
  | cons m members ih =>
    by_cases h : m.1 = k
    · simp [assign, h]
    · rw [assign, if_neg h, List.map_cons, ih, List.map_cons]
      by_cases hmem : k ∈ members.map Prod.fst
      · simp [hmem]
      · simp [hmem, Ne.symm h]

/-- **The last member with a key counts.** -/
lemma member_collect (members : List (Str × Json)) (k : Str) :
    Json.member (collect members) k = Json.member members.reverse k := by
  induction members using List.reverseRecOn with
  | nil => rfl
  | append_singleton members m ih =>
    rw [collect, List.foldl_append, List.foldl_cons, List.foldl_nil, member_assign, ← collect, ih,
      List.reverse_append]
    simp only [Json.member, List.reverse_singleton, List.cons_append, List.nil_append,
      List.find?_cons]
    by_cases h : k = m.1
    · simp [h]
    · simp [h, Ne.symm h]

/-- No two members have one key. -/
lemma nodup_collect (members : List (Str × Json)) :
    ((collect members).map Prod.fst).Nodup := by
  induction members using List.reverseRecOn with
  | nil => simp [collect]
  | append_singleton members m ih =>
    rw [collect, List.foldl_append, List.foldl_cons, List.foldl_nil, keys_assign, ← collect]
    split_ifs with hmem
    · exact ih
    · refine List.nodup_append.mpr ⟨ih, by simp, fun a ha b hb => ?_⟩
      rw [List.mem_singleton] at hb
      rintro rfl
      exact hmem (hb ▸ ha)

/-- A member with a new key is added. -/
lemma assign_of_notMem (h : k ∉ members.map Prod.fst) :
    assign k v members = members ++ [(k, v)] := by
  induction members with
  | nil => rfl
  | cons m members ih =>
    rw [List.map_cons, List.mem_cons, not_or] at h
    rw [assign, if_neg (Ne.symm h.1), ih h.2, List.cons_append]

/-- Members with different keys stay as they are. -/
lemma collect_of_nodup (h : (members.map Prod.fst).Nodup) : collect members = members := by
  induction members using List.reverseRecOn with
  | nil => rfl
  | append_singleton members m ih =>
    rw [List.map_append, List.nodup_append] at h
    obtain ⟨hnodup, -, hdisjoint⟩ := h
    rw [collect, List.foldl_append, List.foldl_cons, List.foldl_nil, ← collect, ih hnodup,
      assign_of_notMem]
    intro hmem
    exact hdisjoint _ hmem _ (by simp) rfl

/-! ## Proper values -/

/-- The text is in UTF-8. -/
def IsText (s : Str) : Prop := ∃ cs, s = utf8 cs

/-- A value that the parser may return. -/
inductive Proper : Json → Prop
  | null : Proper .null
  | boolean (b : Bool) : Proper (.boolean b)
  | number {numeral : Str} : Numeral numeral → ¬ Overflows numeral → Proper (.number numeral)
  | string {s : Str} : IsText s → Proper (.string s)
  | array {items : List Json} : (∀ v ∈ items, Proper v) → Proper (.array items)
  | object {members : List (Str × Json)} : (∀ m ∈ members, IsText m.1) →
      (∀ m ∈ members, Proper m.2) → (members.map Prod.fst).Nodup → Proper (.object members)

/-- What a token spells is proper. -/
lemma Lexes.proper {text rest : Str} {tok : Token} (h : Lexes text tok rest) :
    (∀ s, tok = .string s → IsText s) ∧ ∀ numeral, tok = .number numeral → Numeral numeral := by
  obtain ⟨blanks, s, -, hlex, -⟩ := h
  cases hlex with
  | fixed hmem =>
    have hfixed : ∀ p ∈ fixedLexemes, (∀ s, p.2 ≠ .string s) ∧ ∀ n, p.2 ≠ .number n := by
      simp [fixedLexemes]
    exact ⟨fun s h => absurd h ((hfixed _ hmem).1 s), fun n h => absurd h ((hfixed _ hmem).2 n)⟩
  | @string _ cs _ => exact ⟨fun s h => ⟨cs, (Token.string.inj h).symm⟩, by simp⟩
  | number hnum => exact ⟨by simp, fun n h => Token.number.inj h ▸ hnum⟩

/-- Every member of what is collected was there. -/
lemma mem_of_mem_collect {m : Str × Json} (h : m ∈ collect members) : m ∈ members := by
  have hassign : ∀ {k v ms}, m ∈ assign k v ms → m = (k, v) ∨ m ∈ ms := by
    intro k v ms h
    induction ms with
    | nil => simpa [assign] using h
    | cons a ms ih =>
      rw [assign] at h
      split_ifs at h with ha
      · rcases List.mem_cons.mp h with rfl | h
        · exact .inl rfl
        · exact .inr (List.mem_cons_of_mem _ h)
      · rcases List.mem_cons.mp h with rfl | h
        · exact .inr (by simp)
        · exact (ih h).imp_right (List.mem_cons_of_mem _)
  induction members using List.reverseRecOn with
  | nil => simp [collect] at h
  | append_singleton members a ih =>
    rw [collect, List.foldl_append, List.foldl_cons, List.foldl_nil] at h
    rcases hassign h with rfl | h
    · simp
    · exact List.mem_append_left _ (ih h)

/-- What is said of a phrase. -/
def Phrase.Proper : Phrase → Prop
  | .value v => Nlohmann.Proper v
  | .elements items => ∀ v ∈ items, Nlohmann.Proper v
  | .member m => IsText m.1 ∧ Nlohmann.Proper m.2
  | .members ms => ∀ m ∈ ms, IsText m.1 ∧ Nlohmann.Proper m.2

/-- **The values of the grammar are proper.** -/
lemma Derives.proper {phrase : Phrase} {text rest : Str} (h : Derives phrase text rest) :
    phrase.Proper := by
  induction h with
  | @scalar tok v text rest hlex hv =>
    cases tok with
    | literalTrue | literalFalse =>
      obtain rfl := Option.some.inj hv
      exact .boolean _
    | literalNull =>
      obtain rfl := Option.some.inj hv
      exact .null
    | string s =>
      obtain rfl := Option.some.inj hv
      exact .string (hlex.proper.1 s rfl)
    | number numeral =>
      rw [Token.scalar] at hv
      split_ifs at hv with hover
      obtain rfl := Option.some.inj hv
      exact .number (hlex.proper.2 numeral rfl) hover
    | _ => cases hv
  | emptyArray => exact .array (by simp)
  | array _ _ _ _ hv hitems => exact .array (List.forall_mem_cons.mpr ⟨hv, hitems⟩)
  | emptyObject => exact .object (by simp) (by simp) (by simp)
  | @object m ms _ _ _ _ _ _ _ _ _ hm hms =>
    have hall : ∀ a ∈ m :: ms, IsText a.1 ∧ Nlohmann.Proper a.2 :=
      List.forall_mem_cons.mpr ⟨hm, hms⟩
    exact .object (fun a ha => (hall a (mem_of_mem_collect ha)).1)
      (fun a ha => (hall a (mem_of_mem_collect ha)).2) (nodup_collect _)
  | noElements | noMembers => simp [Phrase.Proper]
  | elements _ _ _ hv hitems => exact List.forall_mem_cons.mpr ⟨hv, hitems⟩
  | member hkey _ _ hv => exact ⟨hkey.proper.1 _ rfl, hv⟩
  | members _ _ _ hm hms => exact List.forall_mem_cons.mpr ⟨hm, hms⟩

/-! ## Texts of values -/

/-- A character in a string. -/
def spell (c : Char) : Str :=
  if c = '"' then "\\\""
  else if c = '\\' then "\\\\"
  else if c.toNat < 0x20 then "\\u00" ++ hexByte (.ofNat c.toNat)
  else String.utf8EncodeChar c

/-- It is spelled so. -/
lemma spells_spell (c : Char) : Spells (spell c) c := by
  unfold spell
  split_ifs with hquote hslash hcontrol
  · subst hquote
    exact .escape (by decide)
  · subst hslash
    exact .escape (by decide)
  · refine .unicode (.one ?_)
    have hval : (UInt8.ofNat c.toNat).toNat = c.toNat := by
      rw [UInt8.toNat_ofNat', Nat.mod_eq_of_lt (by omega)]
    have hdigit : ∀ n < 16, hexDigit (hexChar n) = some n := by decide
    refine ⟨48, 48, _, _, 0, 0, _, _, rfl, rfl, rfl, hdigit _ ?_, hdigit _ ?_, ?_⟩
    all_goals
      rw [hval]
      omega
  · exact .plain (by omega) hquote hslash

/-- A string. -/
def quote (cs : List Char) : Str := "\"" ++ (cs.flatMap spell ++ "\"")

/-- It is a lexeme. -/
lemma lexeme_quote (cs : List Char) : Lexeme (quote cs) (.string (utf8 cs)) := by
  refine .string ?_
  induction cs with
  | nil => exact .nil
  | cons c cs ih => exact .cons (spells_spell c) ih

/-- A lexeme at the beginning of a text. -/
lemma lexes_of_lexeme {s rest : Str} {tok : Token} (h : Lexeme s tok)
    (hends : tok = .number s → Ends s rest) : Lexes (s ++ rest) tok rest :=
  ⟨[], s, by simp, h, hends, rfl⟩

/-- The characters of a numeral. -/
lemma Numeral.mem {s : Str} (h : Numeral s) {b : UInt8} (hb : b ∈ s) :
    isDigit b = true ∨ b = 46 ∨ IsE b ∨ IsSign b := by
  obtain ⟨sign, int, frac, exp, hsign, hint, hfrac, hexp, rfl⟩ := h
  simp only [List.mem_append] at hb
  rcases hb with hb | hb | hb | hb
  · rcases hsign with rfl | rfl
    · cases hb
    · obtain rfl : b = 45 := by simpa [ascii] using hb
      exact .inr (.inr (.inr (.inr rfl)))
  · exact .inl (hint.digits b hb)
  · cases hfrac with
    | none => cases hb
    | digits hs =>
      rcases List.mem_cons.mp hb with rfl | hb
      · exact .inr (.inl rfl)
      · exact .inl (hs.2 b hb)
  · cases hexp with
    | none => cases hb
    | plain he hs =>
      rcases List.mem_cons.mp hb with rfl | hb
      · exact .inr (.inr (.inl he))
      · exact .inl (hs.2 b hb)
    | signed he hg hs =>
      rcases List.mem_cons.mp hb with rfl | hb
      · exact .inr (.inr (.inl he))
      · rcases List.mem_cons.mp hb with rfl | hb
        · exact .inr (.inr (.inr hg))
        · exact .inl (hs.2 b hb)

/-- No numeral goes on in the text. -/
def Stops (rest : Str) : Prop := ∀ c s, rest = c :: s → c = 44 ∨ c = 93 ∨ c = 125

/-- Every numeral ends before such a text. -/
lemma Stops.ends {rest : Str} (h : Stops rest) (numeral : Str) : Ends numeral rest := by
  intro c s w hrest hnum
  have hc := hnum.mem (b := c) (by simp)
  rcases h c s hrest with rfl | rfl | rfl <;> simp [isDigit, IsE, IsSign] at hc

/-- A value with a text that may be followed by others. -/
def HasText (v : Json) : Prop :=
  ∃ s, ∀ rest, Stops rest → Derives (.value v) (s ++ rest) rest

/-- A token that always looks the same, before a text. -/
lemma lexes_fixed {s : Str} {tok : Token} (h : (s, tok) ∈ fixedLexemes) (rest : Str) :
    Lexes (s ++ rest) tok rest := by
  refine lexes_of_lexeme (.fixed h) ?_
  rintro rfl
  exact absurd h (by simp [fixedLexemes])

/-- A string, before a text. -/
lemma lexes_quote (cs : List Char) (rest : Str) :
    Lexes (quote cs ++ rest) (.string (utf8 cs)) rest :=
  lexes_of_lexeme (lexeme_quote cs) (by simp)

/-- The texts of further elements. -/
lemma exists_elements {items : List Json} (h : ∀ v ∈ items, HasText v) :
    ∃ s, ∀ rest, Stops rest → Stops (s ++ rest) ∧ Derives (.elements items) (s ++ rest) rest := by
  induction items with
  | nil => exact ⟨[], fun rest hrest => ⟨hrest, .noElements⟩⟩
  | cons v items ih =>
    rw [List.forall_mem_cons] at h
    obtain ⟨s₁, hv⟩ := h.1
    obtain ⟨s₂, hitems⟩ := ih h.2
    refine ⟨"," ++ (s₁ ++ s₂), fun rest hrest => ⟨?_, ?_⟩⟩
    · intro c s heq
      exact .inl (List.cons.inj heq).1.symm
    · obtain ⟨hstops, hderives⟩ := hitems rest hrest
      rw [List.append_assoc, List.append_assoc]
      exact .elements (lexes_fixed (by decide) _) (hv _ hstops) hderives

/-- The text of a member. -/
lemma exists_member {m : Str × Json} (hkey : IsText m.1) (hv : HasText m.2) :
    ∃ s, ∀ rest, Stops rest → Derives (.member m) (s ++ rest) rest := by
  obtain ⟨k, v⟩ := m
  obtain ⟨cs, rfl⟩ := hkey
  obtain ⟨s, hv⟩ := hv
  refine ⟨quote cs ++ (":" ++ s), fun rest hrest => ?_⟩
  rw [List.append_assoc, List.append_assoc]
  exact .member (lexes_quote cs _) (lexes_fixed (by decide) _) (hv rest hrest)

/-- The texts of further members. -/
lemma exists_members {ms : List (Str × Json)} (hkeys : ∀ m ∈ ms, IsText m.1)
    (h : ∀ m ∈ ms, HasText m.2) :
    ∃ s, ∀ rest, Stops rest → Stops (s ++ rest) ∧ Derives (.members ms) (s ++ rest) rest := by
  induction ms with
  | nil => exact ⟨[], fun rest hrest => ⟨hrest, .noMembers⟩⟩
  | cons m ms ih =>
    rw [List.forall_mem_cons] at h hkeys
    obtain ⟨s₁, hm⟩ := exists_member hkeys.1 h.1
    obtain ⟨s₂, hms⟩ := ih hkeys.2 h.2
    refine ⟨"," ++ (s₁ ++ s₂), fun rest hrest => ⟨?_, ?_⟩⟩
    · intro c s heq
      exact .inl (List.cons.inj heq).1.symm
    · obtain ⟨hstops, hderives⟩ := hms rest hrest
      rw [List.append_assoc, List.append_assoc]
      exact .members (lexes_fixed (by decide) _) (hm _ hstops) hderives

/-- **Every proper value has a text.** -/
lemma Proper.hasText (h : Proper v) : HasText v := by
  have hscalar : ∀ {s : Str} {tok : Token} {v : Json}, Lexeme s tok → tok.scalar = some v →
      HasText v := fun hlex hv =>
    ⟨_, fun rest hrest => .scalar (lexes_of_lexeme hlex fun _ => hrest.ends _) hv⟩
  induction h with
  | null => exact @hscalar "null" .literalNull _ (.fixed (by decide)) rfl
  | boolean b =>
    cases b with
    | true => exact @hscalar "true" .literalTrue _ (.fixed (by decide)) rfl
    | false => exact @hscalar "false" .literalFalse _ (.fixed (by decide)) rfl
  | number hnum hover => exact hscalar (.number hnum) (by rw [Token.scalar, if_neg hover])
  | string hs =>
    obtain ⟨cs, rfl⟩ := hs
    exact hscalar (lexeme_quote cs) rfl
  | @array items _ ih =>
    cases items with
    | nil =>
      refine ⟨"[]", fun rest _ => ?_⟩
      exact .emptyArray (@lexes_fixed "[" .beginArray (by decide) ("]" ++ rest))
        (lexes_fixed (by decide) _)
    | cons v items =>
      rw [List.forall_mem_cons] at ih
      obtain ⟨s₁, hv⟩ := ih.1
      obtain ⟨s₂, hitems⟩ := exists_elements ih.2
      refine ⟨"[" ++ (s₁ ++ (s₂ ++ "]")), fun rest _ => ?_⟩
      obtain ⟨hstops, hderives⟩ := hitems ("]" ++ rest) fun c s h =>
        .inr (.inl (List.cons.inj h).1.symm)
      rw [List.append_assoc, List.append_assoc, List.append_assoc]
      exact .array (lexes_fixed (by decide) _) (hv _ hstops) hderives
        (lexes_fixed (by decide) _)
  | @object members hkeys _ hnodup ih =>
    cases members with
    | nil =>
      refine ⟨"\x7b\x7d", fun rest _ => ?_⟩
      exact .emptyObject (@lexes_fixed "\x7b" .beginObject (by decide) ("\x7d" ++ rest))
        (lexes_fixed (by decide) _)
    | cons m ms =>
      rw [← collect_of_nodup hnodup]
      rw [List.forall_mem_cons] at ih hkeys
      obtain ⟨s₁, hm⟩ := exists_member hkeys.1 ih.1
      obtain ⟨s₂, hms⟩ := exists_members hkeys.2 ih.2
      refine ⟨"\x7b" ++ (s₁ ++ (s₂ ++ "\x7d")), fun rest _ => ?_⟩
      obtain ⟨hstops, hderives⟩ := hms ("\x7d" ++ rest) fun c s h =>
        .inr (.inr (List.cons.inj h).1.symm)
      rw [List.append_assoc, List.append_assoc, List.append_assoc]
      exact .object (lexes_fixed (by decide) _) (hm _ hstops) hderives
        (lexes_fixed (by decide) _)

/-! ## Trailing text -/

variable {text rest : Str}

/-- What is left is no longer than the text. -/
lemma Derives.length_le {phrase : Phrase} (h : Derives phrase text rest) :
    rest.length ≤ text.length := by
  induction h with
  | scalar hlex => exact (length_lt_of_lexes hlex).le
  | noElements | noMembers => exact Nat.le_refl _
  | emptyArray h₁ h₂ | emptyObject h₁ h₂ =>
    have := length_lt_of_lexes h₁
    have := length_lt_of_lexes h₂
    omega
  | array h₁ _ _ h₂ | object h₁ _ _ h₂ =>
    have := length_lt_of_lexes h₁
    have := length_lt_of_lexes h₂
    omega
  | elements h | members h =>
    have := length_lt_of_lexes h
    omega
  | member h₁ h₂ =>
    have := length_lt_of_lexes h₁
    have := length_lt_of_lexes h₂
    omega

/-- The token is not a number, or its end can be seen. -/
lemma Lexes.append {tok : Token} (h : Lexes text tok rest)
    (hend : rest ≠ [] ∨ ∀ numeral, tok ≠ .number numeral) (t : Str) :
    Lexes (text ++ t) tok (rest ++ t) := by
  obtain ⟨blanks, s, hblanks, hlex, hends, rfl⟩ := h
  refine ⟨blanks, s, hblanks, hlex, fun htok => ?_, by simp⟩
  obtain ⟨c, rest, rfl⟩ := List.exists_cons_of_ne_nil (hend.resolve_right fun h => h s htok)
  intro d u w heq
  obtain ⟨rfl, -⟩ := List.cons.inj heq
  exact hends htok c rest w rfl

/-- The value is an array or an object. -/
def IsContainer (v : Json) : Prop := (∃ items, v = .array items) ∨ ∃ members, v = .object members

/-- What the text after a phrase must not be empty for, so that it may become longer. -/
def Phrase.IsContainer : Phrase → Prop
  | .value v => Nlohmann.IsContainer v
  | .elements _ | .member _ | .members _ => False

/-- A phrase whose end can be seen may be followed by more. -/
lemma Derives.append {phrase : Phrase} (h : Derives phrase text rest) (t : Str)
    (hend : rest ≠ [] ∨ phrase.IsContainer) : Derives phrase (text ++ t) (rest ++ t) := by
  have hnonempty : ∀ {s s' : Str} {tok : Token}, Lexes s tok s' → s ≠ [] := by
    rintro s s' tok hlex rfl
    exact absurd (length_lt_of_lexes hlex) (by simp)
  have hbefore : ∀ {phrase : Phrase} {s s' : Str}, Derives phrase s s' → s' ≠ [] → s ≠ [] := by
    rintro phrase s s' hder hne rfl
    have hle := hder.length_le
    exact hne (List.length_eq_zero_iff.mp (by simpa using hle))
  induction h with
  | @scalar tok v text rest hlex hv =>
    refine .scalar (hlex.append (hend.imp_right ?_) t) hv
    rintro hcontainer numeral rfl
    rw [Token.scalar] at hv
    split_ifs at hv
    obtain rfl := Option.some.inj hv
    obtain ⟨_, h⟩ | ⟨_, h⟩ := hcontainer <;> cases h
  | emptyArray h₁ h₂ =>
    exact .emptyArray (h₁.append (.inl (hnonempty h₂)) t) (h₂.append (.inr (by simp)) t)
  | array h₁ hv hitems h₂ ihv ihitems =>
    have hne := hnonempty h₂
    exact .array (h₁.append (.inr (by simp)) t) (ihv (.inl (hbefore hitems hne)))
      (ihitems (.inl hne)) (h₂.append (.inr (by simp)) t)
  | emptyObject h₁ h₂ =>
    exact .emptyObject (h₁.append (.inr (by simp)) t) (h₂.append (.inr (by simp)) t)
  | object h₁ hm hms h₂ ihm ihms =>
    have hne := hnonempty h₂
    exact .object (h₁.append (.inr (by simp)) t) (ihm (.inl (hbefore hms hne)))
      (ihms (.inl hne)) (h₂.append (.inr (by simp)) t)
  | noElements => exact .noElements
  | elements h₁ hv hitems ihv ihitems =>
    have hne := hend.resolve_right id
    exact .elements (h₁.append (.inr (by simp)) t) (ihv (.inl (hbefore hitems hne)))
      (ihitems (.inl hne))
  | member h₁ h₂ hv ihv =>
    exact .member (h₁.append (.inr (by simp)) t) (h₂.append (.inr (by simp)) t)
      (ihv (.inl (hend.resolve_right id)))
  | noMembers => exact .noMembers
  | members h₁ hm hms ihm ihms =>
    have hne := hend.resolve_right id
    exact .members (h₁.append (.inr (by simp)) t) (ihm (.inl (hbefore hms hne)))
      (ihms (.inl hne))

/-! ## Reading and writing -/

/-- A value without a byte order mark is a document. -/
lemma Derives.document (h : Derives (.value v) text rest) : Document text v :=
  ⟨[], text, rest, .inl rfl, rfl, h⟩

/-- **The values that the parser returns** are the proper ones: each value that it returns is
proper, and each proper value is returned for some text. -/
theorem exists_parseJson_iff : (∃ text, parseJson text = .ok v) ↔ Proper v := by
  simp only [parseJson_ok_iff, parse_eq_ok_iff]
  constructor
  · rintro ⟨text, bom, body, rest, -, -, hv⟩
    exact hv.proper
  · intro h
    obtain ⟨s, hs⟩ := h.hasText
    refine ⟨s, ?_⟩
    have := hs [] (by simp [Stops])
    rw [List.append_nil] at this
    exact this.document

/-- **What follows an array or an object is not looked at.** -/
theorem parseJson_append (h : parseJson text = .ok v) (hv : IsContainer v) (t : Str) :
    parseJson (text ++ t) = .ok v := by
  rw [parseJson_ok_iff, parse_eq_ok_iff] at h ⊢
  obtain ⟨bom, body, rest, hbom, rfl, hder⟩ := h
  exact ⟨bom, body ++ t, rest ++ t, hbom, List.append_assoc _ _ _, hder.append t (.inr hv)⟩

/-- An object with an array in it, and then two more braces. -/
theorem parseJson_append_nested :
    let text : Str := "\x7b" ++ (quote ['a'] ++
      (":" ++ ("[" ++ ("true" ++ ("," ++ ("null" ++ ("]" ++ ascii "\x7d")))))))
    parseJson (text ++ "\x7d\x7d") = .ok (.object [("a", .array [.boolean true, .null])]) := by
  intro text
  have harray : ∀ s, Derives (.value (.array [.boolean true, .null]))
      ("[" ++ ("true" ++ ("," ++ ("null" ++ ("]" ++ s))))) s := fun s =>
    .array (@lexes_fixed "[" .beginArray (by decide) _)
      (.scalar (@lexes_fixed "true" .literalTrue (by decide) _) rfl)
      (.elements (@lexes_fixed "," .valueSeparator (by decide) _)
        (.scalar (@lexes_fixed "null" .literalNull (by decide) _) rfl) .noElements)
      (@lexes_fixed "]" .endArray (by decide) s)
  have hobject : Derives (.value (.object [("a", .array [.boolean true, .null])])) text [] :=
    .object (@lexes_fixed "\x7b" .beginObject (by decide) _)
      (.member (lexes_quote ['a'] _) (@lexes_fixed ":" .nameSeparator (by decide) _) (harray _))
      .noMembers (@lexes_fixed "\x7d" .endObject (by decide) [])
  exact parseJson_append (parseJson_ok_iff.mpr (parse_eq_ok_iff.mpr hobject.document))
    (.inr ⟨_, rfl⟩) _

end Nlohmann
