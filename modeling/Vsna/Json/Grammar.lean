import Vsna.Json.Parser

set_option relaxedAutoImplicit false
set_option autoImplicit false

/-!
# The grammar of JSON

The parser accepts a text exactly if it begins with a value, by the grammar of JSON, and what it
returns is this value. What follows the value is not looked at. Of several members with one key the
last counts.

## Main definitions

* `Nlohmann.Derives` — the grammar, by which a text begins with a value, and what is left.
* `Nlohmann.collect` — the members of an object.
* `Nlohmann.Document` — the text begins with a value, perhaps after a byte order mark.
* `Nlohmann.Parser.Nested` — the parser knows in which containers it is.
* `Nlohmann.Closes` — how the containers go on that have not ended.

## Main results

* `Nlohmann.Derives.completes` — the parser reads every value.
* `Nlohmann.goes_of_run` — what the parser reads is a value, and what closes the containers.
* `Nlohmann.parseJson_eq_ok_iff` — the parser accepts the documents.
-/

namespace Nlohmann

open Text Automata Vsna

/-! ## Values -/

/-- The value of a token. A number must not be too great for a `double`. -/
def Token.scalar : Token → Option Json
  | .literalTrue => some (.boolean true)
  | .literalFalse => some (.boolean false)
  | .literalNull => some .null
  | .string s => some (.string s)
  | .number numeral => if Overflows numeral then none else some (.number numeral)
  | .beginArray | .endArray | .beginObject | .endObject | .nameSeparator | .valueSeparator => none

/-- The members of an object: a later one replaces an earlier one with the same key. -/
def collect (members : List (Str × Json)) : List (Str × Json) :=
  members.foldl (fun collected m => assign m.1 m.2 collected) []

/-- What is derived: a value, or the further elements of an array, each after a comma; a member, or
the further members of an object. -/
inductive Phrase
  | value (v : Json)
  | elements (items : List Json)
  | member (m : Str × Json)
  | members (ms : List (Str × Json))

/-- The grammar: the first text begins with the phrase, and the second text is left. -/
inductive Derives : Phrase → Str → Str → Prop
  | scalar {tok : Token} {v : Json} {text rest : Str} : Lexes text tok rest →
      tok.scalar = some v → Derives (.value v) text rest
  | emptyArray {text s rest : Str} : Lexes text .beginArray s → Lexes s .endArray rest →
      Derives (.value (.array [])) text rest
  | array {v : Json} {items : List Json} {text s s' s'' rest : Str} : Lexes text .beginArray s →
      Derives (.value v) s s' → Derives (.elements items) s' s'' → Lexes s'' .endArray rest →
      Derives (.value (.array (v :: items))) text rest
  | emptyObject {text s rest : Str} : Lexes text .beginObject s → Lexes s .endObject rest →
      Derives (.value (.object [])) text rest
  | object {m : Str × Json} {ms : List (Str × Json)} {text s s' s'' rest : Str} :
      Lexes text .beginObject s → Derives (.member m) s s' → Derives (.members ms) s' s'' →
      Lexes s'' .endObject rest → Derives (.value (.object (collect (m :: ms)))) text rest
  | noElements {text : Str} : Derives (.elements []) text text
  | elements {v : Json} {items : List Json} {text s s' rest : Str} :
      Lexes text .valueSeparator s → Derives (.value v) s s' → Derives (.elements items) s' rest →
      Derives (.elements (v :: items)) text rest
  | member {k : Str} {v : Json} {text s s' rest : Str} : Lexes text (.string k) s →
      Lexes s .nameSeparator s' → Derives (.value v) s' rest → Derives (.member (k, v)) text rest
  | noMembers {text : Str} : Derives (.members []) text text
  | members {m : Str × Json} {ms : List (Str × Json)} {text s s' rest : Str} :
      Lexes text .valueSeparator s → Derives (.member m) s s' → Derives (.members ms) s' rest →
      Derives (.members (m :: ms)) text rest

/-- The text begins with this value, perhaps after a byte order mark. -/
def Document (text : Str) (v : Json) : Prop :=
  ∃ bom body rest, (bom = [] ∨ bom = [0xEF, 0xBB, 0xBF]) ∧ text = bom ++ body ∧
    Derives (.value v) body rest

/-! ## One token ahead -/

variable {p p' : Parser} {text rest : Str} {v : Json} {tok : Token}

/-- The parser has read the first token of the text. -/
structure Ahead (text : Str) (p : Parser) : Prop where
  started : Started p.lexer
  fits : Fits p.lastToken p.lexer.tokenBuffer
  iff : ∀ {tok rest}, Lexes text tok rest ↔ p.token = some tok ∧ p.pending = rest

/-- `get_token` reads ahead. -/
lemma ahead_next {text : Str} (h : p.lexer.text = some text) : Ahead text p.next where
  started := by
    have := started_scanToken p.lexer
    rw [Parser.next, Lexer.scan]
    cases hscan : scanToken p.lexer with
    | ok t l => rwa [hscan] at this
    | error e l => rwa [hscan] at this
  fits := by
    rw [Parser.next, Lexer.scan]
    cases hscan : scanToken p.lexer with
    | ok t l => exact fits_of_scanToken hscan
    | error e l => exact fun h => by simp at h
  iff {tok rest} := by
    rw [Parser.next_eq_iff, h]
    simp

/-- A parser that has started reads ahead from what is pending. -/
lemma Started.ahead_next (h : Started p.lexer) : Ahead p.pending p.next :=
  Nlohmann.ahead_next h.text_eq

/-- A parser that has started reads the token that comes next. -/
lemma Started.next_of_lexes (h : Started p.lexer) (hlex : Lexes p.pending tok rest) :
    p.next.token = some tok ∧ p.next.pending = rest ∧ Started p.next.lexer := by
  obtain ⟨htok, hpending⟩ := h.ahead_next.iff.mp hlex
  exact ⟨htok, hpending, h.ahead_next.started⟩

/-- The value of the token that has been read. -/
lemma Ahead.scalar_eq (h : Ahead text p) (htok : p.token = some tok) : p.scalar = tok.scalar := by
  have hfits := h.fits
  rw [Parser.token] at htok
  rw [Parser.scalar]
  cases htype : p.lastToken <;> rw [htype] at htok hfits
  case valueUnsigned | valueInteger =>
    obtain rfl := Option.some.inj htok
    rw [Token.scalar, if_neg (hfits (by simp))]
  case uninitialized | parseError | endOfInput | literalOrValue => cases htok
  all_goals
    obtain rfl := Option.some.inj htok
    rfl

/-! ## The document while it is parsed -/

variable {d d' : Dom} {frames : List Frame}

/-- Assigning twice to one member. -/
lemma assign_assign (k : Str) (v w : Json) (members : List (Str × Json)) :
    assign k v (assign k w members) = assign k v members := by
  induction members with
  | nil => simp [assign]
  | cons m members ih =>
    by_cases h : m.1 = k
    · simp [assign, h]
    · simp [assign, h, ih]

/-- Assigning to a member that has been looked up. -/
lemma assign_subscript (k : Str) (v : Json) (members : List (Str × Json)) :
    assign k v (subscript k members) = assign k v members := by
  unfold subscript
  cases Json.member members k with
  | none => exact assign_assign k v .null members
  | some w => rfl

/-- A document that awaits a value takes it. -/
lemma Dom.exists_handleValue (h : d.awaits = true) (v : Json) :
    ∃ d', d.handleValue v = some d' := by
  obtain ⟨root, refStack⟩ := d
  match refStack, h with
  | [], _ | .array _ :: _, _ | .object _ (some _) :: _, _ => exact ⟨_, rfl⟩

/-! ## Completeness -/

/-- From the first token on, the parser reads the value. -/
def ReadsValue (v : Json) (text rest : Str) : Prop :=
  ∀ {p}, Ahead text p → p.dom.awaits = true → ∃ p', Started p'.lexer ∧ p'.pending = rest ∧
    p'.states = p.states ∧ p.dom.handleValue v = some p'.dom ∧
    parserLoop.run false p = parserLoop.run true p'

/-- The parser reads the phrase. -/
def Completes : Phrase → Str → Str → Prop
  | .value v, text, rest => ReadsValue v text rest
  | .elements items, text, rest => ∀ {p states done frames}, Started p.lexer → p.pending = text →
      p.states = true :: states → p.dom.refStack = .array done :: frames →
      ∃ p', Started p'.lexer ∧ p'.pending = rest ∧ p'.states = p.states ∧
        p'.dom = { p.dom with refStack := .array (done ++ items) :: frames } ∧
        parserLoop.run true p = parserLoop.run true p'
  | .member m, text, rest => ∃ s s', Lexes text (.string m.1) s ∧ Lexes s .nameSeparator s' ∧
      ReadsValue m.2 s' rest
  | .members ms, text, rest => ∀ {p states done e frames}, Started p.lexer → p.pending = text →
      p.states = false :: states → p.dom.refStack = .object done e :: frames →
      ∃ p' e', Started p'.lexer ∧ p'.pending = rest ∧ p'.states = p.states ∧
        p'.dom = { p.dom with
          refStack := .object (ms.foldl (fun done m => assign m.1 m.2 done) done) e' :: frames } ∧
        parserLoop.run true p = parserLoop.run true p'

/-- A value of one token is read. -/
lemma readsValue_scalar (hlex : Lexes text tok rest) (hv : tok.scalar = some v) :
    ReadsValue v text rest := by
  intro p hahead hawaits
  obtain ⟨htok, hpending⟩ := hahead.iff.mp hlex
  obtain ⟨d, hd⟩ := Dom.exists_handleValue hawaits v
  have hbegun := Begun.scalar ((hahead.scalar_eq htok).trans hv) hd
  exact ⟨{ p with dom := d }, hahead.started, hpending, rfl, hd, run_of_begun_false hbegun⟩

/-- An empty array is read. -/
lemma readsValue_emptyArray {s : Str} (hbegin : Lexes text .beginArray s)
    (hend : Lexes s .endArray rest) : ReadsValue (.array []) text rest := by
  intro p hahead hawaits
  obtain ⟨htok, rfl⟩ := hahead.iff.mp hbegin
  obtain ⟨htok', hpending, hstarted⟩ := hahead.started.next_of_lexes hend
  obtain ⟨d, hd⟩ := Dom.exists_handleValue hawaits (.array [])
  have htype := TokenType.token_eq_fixed_iff.1.mp htok
  exact ⟨{ p.next with dom := d }, hstarted, hpending, rfl, hd,
    run_of_begun_false (.emptyArray htype (if_pos hawaits) htok' hd)⟩

/-- A value does not begin with the end of an array. -/
lemma Derives.exists_first (h : Derives (.value v) text rest) :
    ∃ tok s, Lexes text tok s ∧ tok ≠ .endArray := by
  cases h with
  | scalar hlex hv =>
    refine ⟨_, _, hlex, ?_⟩
    rintro rfl
    cases hv
  | emptyArray hbegin | array hbegin | emptyObject hbegin | object hbegin =>
    exact ⟨_, _, hbegin, by simp⟩

/-- An array is read. -/
lemma readsValue_array {items : List Json} {s s' s'' : Str} (hbegin : Lexes text .beginArray s)
    (hfirst : ∃ tok t, Lexes s tok t ∧ tok ≠ .endArray) (hv : ReadsValue v s s')
    (hitems : Completes (.elements items) s' s'') (hend : Lexes s'' .endArray rest) :
    ReadsValue (.array (v :: items)) text rest := by
  intro p hahead hawaits
  obtain ⟨htok, rfl⟩ := hahead.iff.mp hbegin
  have htype := TokenType.token_eq_fixed_iff.1.mp htok
  have hnext := hahead.started.ahead_next
  have hno : p.next.token ≠ some .endArray := by
    obtain ⟨tok, t, hlex, hne⟩ := hfirst
    rw [(hnext.iff.mp hlex).1]
    simpa using hne
  -- the array begins
  let d : Dom := { p.dom with refStack := .array [] :: p.dom.refStack }
  let q : Parser := { p.next with states := true :: p.states, dom := d }
  have hbegun : Begun p true q := .array htype (if_pos hawaits) hno
  -- its first value is read, and then the others
  obtain ⟨p₁, hstarted₁, hpending₁, hstates₁, hd₁, hrun₁⟩ :=
    @hv q ⟨hnext.started, hnext.fits, hnext.iff⟩ rfl
  have hdom₁ := (Option.some.inj hd₁).symm
  obtain ⟨p₂, hstarted₂, hpending₂, hstates₂, hdom₂, hrun₂⟩ :=
    hitems hstarted₁ hpending₁ hstates₁ (congrArg Dom.refStack hdom₁)
  -- it ends, and is a value
  obtain ⟨d', hd'⟩ := Dom.exists_handleValue hawaits (.array (v :: items))
  obtain ⟨htok₃, hpending₃, hstarted₃⟩ := hstarted₂.next_of_lexes (hpending₂ ▸ hend)
  have hend₂ : p₂.dom.endArray = some d' := by
    rw [hdom₂, hdom₁]
    exact hd'
  have hstates : p₂.states = true :: p.states := hstates₂.trans hstates₁
  refine ⟨{ p₂.next with states := p₂.states.tail, dom := d' }, hstarted₃, hpending₃,
    by rw [hstates]; rfl, hd', ?_⟩
  rw [run_of_begun_true hbegun, hrun₁, hrun₂,
    run_of_evaluated (.endArray hstates htok₃ hend₂)]

/-- An empty object is read. -/
lemma readsValue_emptyObject {s : Str} (hbegin : Lexes text .beginObject s)
    (hend : Lexes s .endObject rest) : ReadsValue (.object []) text rest := by
  intro p hahead hawaits
  obtain ⟨htok, rfl⟩ := hahead.iff.mp hbegin
  obtain ⟨htok', hpending, hstarted⟩ := hahead.started.next_of_lexes hend
  obtain ⟨d, hd⟩ := Dom.exists_handleValue hawaits (.object [])
  have htype := TokenType.token_eq_fixed_iff.2.2.1.mp htok
  exact ⟨{ p.next with dom := d }, hstarted, hpending, rfl, hd,
    run_of_begun_false (.emptyObject htype (if_pos hawaits) htok' hd)⟩

/-- An object is read. -/
lemma readsValue_object {m : Str × Json} {ms : List (Str × Json)} {s s' s'' : Str}
    (hbegin : Lexes text .beginObject s) (hm : Completes (.member m) s s')
    (hms : Completes (.members ms) s' s'') (hend : Lexes s'' .endObject rest) :
    ReadsValue (.object (collect (m :: ms))) text rest := by
  intro p hahead hawaits
  obtain ⟨htok, rfl⟩ := hahead.iff.mp hbegin
  have htype := TokenType.token_eq_fixed_iff.2.2.1.mp htok
  -- the object begins, with a key
  obtain ⟨t, t', hkey, hsep, hv⟩ := hm
  obtain ⟨htok₁, rfl, hstarted₁⟩ := hahead.started.next_of_lexes hkey
  obtain ⟨htok₂, rfl, hstarted₂⟩ := hstarted₁.next_of_lexes hsep
  let d : Dom := { p.dom with refStack := .object (subscript m.1 []) (some m.1) :: p.dom.refStack }
  let q : Parser := { p.next.next.next with states := false :: p.states, dom := d }
  have hbegun : Begun p true q := .object htype (if_pos hawaits) htok₁ rfl htok₂
  -- its first value is read, and then the other members
  have hnext := hstarted₂.ahead_next
  obtain ⟨p₁, hstarted₁, hpending₁, hstates₁, hd₁, hrun₁⟩ :=
    @hv q ⟨hnext.started, hnext.fits, hnext.iff⟩ rfl
  have hdom₁ := (Option.some.inj hd₁).symm
  obtain ⟨p₂, e, hstarted₂, hpending₂, hstates₂, hdom₂, hrun₂⟩ :=
    hms hstarted₁ hpending₁ hstates₁ (congrArg Dom.refStack hdom₁)
  -- it ends, and is a value
  obtain ⟨d', hd'⟩ := Dom.exists_handleValue hawaits (.object (collect (m :: ms)))
  obtain ⟨htok₃, hpending₃, hstarted₃⟩ := hstarted₂.next_of_lexes (hpending₂ ▸ hend)
  have hend₂ : p₂.dom.endObject = some d' := by
    rw [hdom₂, hdom₁, assign_subscript]
    exact hd'
  have hstates : p₂.states = false :: p.states := hstates₂.trans hstates₁
  refine ⟨{ p₂.next with states := p₂.states.tail, dom := d' }, hstarted₃, hpending₃,
    by rw [hstates]; rfl, hd', ?_⟩
  rw [run_of_begun_true hbegun, hrun₁, hrun₂,
    run_of_evaluated (.endObject hstates htok₃ hend₂)]

/-- Further elements are read. -/
lemma completes_elements {items : List Json} {s s' : Str} (hsep : Lexes text .valueSeparator s)
    (hv : ReadsValue v s s') (hitems : Completes (.elements items) s' rest) :
    Completes (.elements (v :: items)) text rest := by
  intro p states done frames hstarted hpending hstates hstack
  subst hpending
  obtain ⟨htok, rfl, hstarted₁⟩ := hstarted.next_of_lexes hsep
  have hstep := run_of_evaluated (.element hstates htok)
  obtain ⟨p₁, hstarted₁, hpending₁, hstates₁, hd₁, hrun₁⟩ :=
    hv hstarted₁.ahead_next (show p.dom.awaits = true by rw [Dom.awaits, hstack]; rfl)
  have hdom₁ : { p.dom with refStack := .array (done ++ [v]) :: frames } = p₁.dom := by
    have : p.dom.handleValue v = some p₁.dom := hd₁
    rw [Dom.handleValue, hstack] at this
    exact Option.some.inj this
  obtain ⟨p₂, hstarted₂, hpending₂, hstates₂, hdom₂, hrun₂⟩ :=
    hitems hstarted₁ hpending₁ (hstates₁.trans hstates) (congrArg Dom.refStack hdom₁).symm
  refine ⟨p₂, hstarted₂, hpending₂, hstates₂.trans hstates₁, ?_,
    hstep.trans (hrun₁.trans hrun₂)⟩
  rw [hdom₂, ← hdom₁, List.append_assoc]
  rfl

/-- Further members are read. -/
lemma completes_members {m : Str × Json} {ms : List (Str × Json)} {s s' : Str}
    (hsep : Lexes text .valueSeparator s) (hm : Completes (.member m) s s')
    (hms : Completes (.members ms) s' rest) : Completes (.members (m :: ms)) text rest := by
  intro p states done e frames hstarted hpending hstates hstack
  subst hpending
  obtain ⟨t, t', hkey, hcolon, hv⟩ := hm
  obtain ⟨htok, rfl, hstarted₁⟩ := hstarted.next_of_lexes hsep
  obtain ⟨htok₁, rfl, hstarted₂⟩ := hstarted₁.next_of_lexes hkey
  obtain ⟨htok₂, rfl, hstarted₃⟩ := hstarted₂.next_of_lexes hcolon
  let d : Dom := { p.dom with refStack := .object (subscript m.1 done) (some m.1) :: frames }
  let q : Parser := { p.next.next.next.next with dom := d }
  have hkey : p.dom.key m.1 = some d := by rw [Dom.key, hstack]
  have hstep : parserLoop.run true p = parserLoop.run false q :=
    run_of_evaluated (.member hstates htok htok₁ hkey htok₂)
  have hnext := hstarted₃.ahead_next
  obtain ⟨p₁, hstarted₁, hpending₁, hstates₁, hd₁, hrun₁⟩ :=
    @hv q ⟨hnext.started, hnext.fits, hnext.iff⟩ rfl
  have hdom₁ := (Option.some.inj hd₁).symm
  obtain ⟨p₂, e', hstarted₂, hpending₂, hstates₂, hdom₂, hrun₂⟩ :=
    hms hstarted₁ hpending₁ (hstates₁.trans hstates) (congrArg Dom.refStack hdom₁)
  refine ⟨p₂, e', hstarted₂, hpending₂, hstates₂.trans hstates₁, ?_,
    hstep.trans (hrun₁.trans hrun₂)⟩
  rw [hdom₂, hdom₁, assign_subscript]
  rfl

/-- **The parser reads every phrase.** -/
lemma Derives.completes {phrase : Phrase} (h : Derives phrase text rest) :
    Completes phrase text rest := by
  induction h with
  | scalar hlex hv => exact readsValue_scalar hlex hv
  | emptyArray hbegin hend => exact readsValue_emptyArray hbegin hend
  | array hbegin hfirst _ hend hv hitems =>
    exact readsValue_array hbegin hfirst.exists_first hv hitems hend
  | emptyObject hbegin hend => exact readsValue_emptyObject hbegin hend
  | object hbegin _ _ hend hm hms => exact readsValue_object hbegin hm hms hend
  | noElements =>
    intro p states done frames hstarted hpending hstates hstack
    exact ⟨p, hstarted, hpending, rfl, by rw [List.append_nil, ← hstack], rfl⟩
  | elements hsep _ _ hv hitems => exact completes_elements hsep hv hitems
  | member hkey hsep _ hv => exact ⟨_, _, hkey, hsep, hv⟩
  | noMembers =>
    intro p states done e frames hstarted hpending hstates hstack
    exact ⟨p, e, hstarted, hpending, rfl, by rw [List.foldl_nil, ← hstack], rfl⟩
  | members hsep _ _ hm hms => exact completes_members hsep hm hms

/-! ## Containers -/

/-- Whether a container is an array. -/
def Frame.isArray : Frame → Bool
  | .array _ => true
  | .object _ _ => false

/-- A container begins where a value is awaited. -/
lemma Dom.startArray_eq_some_iff : d.startArray = some d' ↔
    d.awaits = true ∧ { d with refStack := .array [] :: d.refStack } = d' := by
  unfold startArray
  split_ifs with h <;> simp [h]

/-- A container begins where a value is awaited. -/
lemma Dom.startObject_eq_some_iff : d.startObject = some d' ↔
    d.awaits = true ∧ { d with refStack := .object [] none :: d.refStack } = d' := by
  unfold startObject
  split_ifs with h <;> simp [h]

/-- An assignment takes place in the innermost container. -/
lemma Dom.handleValue_stack (h : d.handleValue v = some d') :
    d'.refStack.map Frame.isArray = d.refStack.map Frame.isArray ∧
      d'.refStack.tail = d.refStack.tail := by
  obtain ⟨root, refStack⟩ := d
  match refStack, h with
  | [], h | .array _ :: _, h | .object _ (some _) :: _, h =>
    obtain rfl := Option.some.inj h
    exact ⟨rfl, rfl⟩

/-- The parser knows in which containers it is. Each of them but the innermost one awaits the value
that is being read, and so does the innermost one if a value is to be read. -/
structure Parser.Nested (skip : Bool) (p : Parser) : Prop where
  states : p.states = p.dom.refStack.map Frame.isArray
  outer : ∀ f ∈ p.dom.refStack.tail, f.awaits = true
  inner : skip = false → p.dom.awaits = true

/-- If a value is to be read, every container awaits one. -/
lemma Parser.Nested.awaits (h : p.Nested false) : ∀ f ∈ p.dom.refStack, f.awaits = true := by
  have hinner := h.inner rfl
  have houter := h.outer
  rw [Dom.awaits] at hinner
  cases hstack : p.dom.refStack with
  | nil => simp
  | cons f frames =>
    rw [hstack] at hinner houter
    exact List.forall_mem_cons.mpr ⟨hinner, houter⟩

/-- Beginning a value keeps the nesting. -/
lemma Begun.nested {b : Bool} (h : Begun p b p') (hp : p.Nested false) : p'.Nested (!b) := by
  cases h with
  | scalar hw hd =>
    obtain ⟨hkinds, htail⟩ := Dom.handleValue_stack hd
    exact ⟨hp.states.trans hkinds.symm, by rw [htail]; exact hp.outer, by simp⟩
  | emptyArray htype hbegin htok hend =>
    obtain ⟨-, rfl⟩ := Dom.startArray_eq_some_iff.mp hbegin
    obtain ⟨hkinds, htail⟩ := Dom.handleValue_stack hend
    exact ⟨hp.states.trans hkinds.symm, by rw [htail]; exact hp.outer, by simp⟩
  | array htype hbegin htok =>
    obtain ⟨-, rfl⟩ := Dom.startArray_eq_some_iff.mp hbegin
    exact ⟨congrArg (true :: ·) hp.states, hp.awaits, fun _ => rfl⟩
  | emptyObject htype hbegin htok hend =>
    obtain ⟨-, rfl⟩ := Dom.startObject_eq_some_iff.mp hbegin
    obtain ⟨hkinds, htail⟩ := Dom.handleValue_stack hend
    exact ⟨hp.states.trans hkinds.symm, by rw [htail]; exact hp.outer, by simp⟩
  | object htype hbegin htok hkey htok' =>
    obtain ⟨-, rfl⟩ := Dom.startObject_eq_some_iff.mp hbegin
    obtain rfl := Option.some.inj hkey
    exact ⟨congrArg (false :: ·) hp.states, hp.awaits, fun _ => rfl⟩

/-- The container that the parser is in. -/
lemma Parser.Nested.exists_frame {skip b : Bool} {states : List Bool} (h : p.Nested skip)
    (hstates : p.states = b :: states) : ∃ f frames, p.dom.refStack = f :: frames ∧
      f.isArray = b ∧ states = frames.map Frame.isArray ∧ ∀ f ∈ frames, f.awaits = true := by
  obtain ⟨f, frames, hstack, hf, hframes⟩ :=
    List.map_eq_cons_iff.mp (h.states.symm.trans hstates)
  exact ⟨f, frames, hstack, hf, hframes.symm, by simpa [hstack] using h.outer⟩

/-- Evaluating the state keeps the nesting. -/
lemma Evaluated.nested {b : Bool} (h : Evaluated p (.inl b) p') (hp : p.Nested true) :
    p'.Nested b := by
  cases h with
  | element hstates htok =>
    obtain ⟨⟨items⟩ | ⟨ms, e⟩, frames, hstack, hf, hframes⟩ := hp.exists_frame hstates <;> cases hf
    exact ⟨hp.states, hp.outer, fun _ => by
      change p.dom.awaits = true
      rw [Dom.awaits, hstack]
      rfl⟩
  | endArray hstates htok hend | endObject hstates htok hend =>
    obtain ⟨⟨items⟩ | ⟨ms, e⟩, frames, hstack, hf, hframes, hawait⟩ := hp.exists_frame hstates <;>
      cases hf
    simp only [Dom.endArray, Dom.endObject, hstack] at hend
    obtain ⟨hkinds, htail⟩ := Dom.handleValue_stack hend
    refine ⟨?_, ?_, by simp⟩
    · rw [hstates]
      exact hframes.trans hkinds.symm
    · rw [htail]
      exact fun f hf => hawait f (List.mem_of_mem_tail hf)
  | member hstates htok htok₁ hkey htok₂ =>
    obtain ⟨⟨items⟩ | ⟨ms, e⟩, frames, hstack, hf, hframes, hawait⟩ := hp.exists_frame hstates <;>
      cases hf
    rw [Dom.key, hstack] at hkey
    obtain rfl := Option.some.inj hkey
    refine ⟨?_, hawait, fun _ => rfl⟩
    change p.states = _
    rw [hp.states, hstack]
    rfl

/-! ## Soundness -/

/-- After a value has been stored, the text goes on until every container has ended, and then this
value is the root, and this text is left. -/
inductive Closes (v : Json) (rest : Str) : Json → List Frame → Str → Prop
  | done : Closes v rest v [] rest
  | element {root w : Json} {items : List Json} {frames : List Frame} {text s s' : Str} :
      Lexes text .valueSeparator s → Derives (.value w) s s' →
      Closes v rest root (.array (items ++ [w]) :: frames) s' →
      Closes v rest root (.array items :: frames) text
  | endArray {root : Json} {items : List Json} {frames : List Frame} {d : Dom} {text s : Str} :
      Lexes text .endArray s → Dom.handleValue (.array items) ⟨root, frames⟩ = some d →
      Closes v rest d.root d.refStack s → Closes v rest root (.array items :: frames) text
  | member {root w : Json} {k : Str} {ms : List (Str × Json)} {e e' : Option Str}
      {frames : List Frame} {text s s' : Str} : Lexes text .valueSeparator s →
      Derives (.member (k, w)) s s' →
      Closes v rest root (.object (assign k w ms) e' :: frames) s' →
      Closes v rest root (.object ms e :: frames) text
  | endObject {root : Json} {ms : List (Str × Json)} {e : Option Str} {frames : List Frame}
      {d : Dom} {text s : Str} : Lexes text .endObject s →
      Dom.handleValue (.object ms) ⟨root, frames⟩ = some d →
      Closes v rest d.root d.refStack s → Closes v rest root (.object ms e :: frames) text

variable {root : Json}

/-- An array goes on with further elements, and ends. -/
lemma Closes.exists_elements {items : List Json}
    (h : Closes v rest root (.array items :: frames) text) :
    ∃ items' s s' d, Derives (.elements items') text s ∧ Lexes s .endArray s' ∧
      Dom.handleValue (.array (items ++ items')) ⟨root, frames⟩ = some d ∧
      Closes v rest d.root d.refStack s' := by
  generalize hstack : Frame.array items :: frames = stack at h
  induction h generalizing items with
  | done => cases hstack
  | @element root w items₁ frames₁ text s s' hsep hw hrest ih =>
    cases hstack
    obtain ⟨items', s₁, s₂, d, hitems, hend, hd, hclose⟩ := ih rfl
    exact ⟨w :: items', s₁, s₂, d, .elements hsep hw hitems, hend, by simpa using hd, hclose⟩
  | endArray hend hd hrest =>
    cases hstack
    exact ⟨[], _, _, _, .noElements, hend, by simpa using hd, hrest⟩
  | member => cases hstack
  | endObject => cases hstack

/-- An object goes on with further members, and ends. -/
lemma Closes.exists_members {ms : List (Str × Json)} {e : Option Str}
    (h : Closes v rest root (.object ms e :: frames) text) :
    ∃ ms' s s' d, Derives (.members ms') text s ∧ Lexes s .endObject s' ∧
      Dom.handleValue (.object (ms'.foldl (fun ms m => assign m.1 m.2 ms) ms)) ⟨root, frames⟩ =
        some d ∧ Closes v rest d.root d.refStack s' := by
  generalize hstack : Frame.object ms e :: frames = stack at h
  induction h generalizing ms e with
  | done => cases hstack
  | element => cases hstack
  | endArray => cases hstack
  | @member root w k ms₁ e₁ e₂ frames₁ text s s' hsep hw hrest ih =>
    cases hstack
    obtain ⟨ms', s₁, s₂, d, hms, hend, hd, hclose⟩ := ih rfl
    exact ⟨(k, w) :: ms', s₁, s₂, d, .members hsep hw hms, hend, hd, hclose⟩
  | endObject hend hd hrest =>
    cases hstack
    exact ⟨[], _, _, _, .noMembers, hend, hd, hrest⟩

/-- What the parser has left to read, by whether it evaluates the state or parses a value. -/
def Goes (v : Json) (rest : Str) : Bool → Parser → Prop
  | true, p => Started p.lexer → Closes v rest p.dom.root p.dom.refStack p.pending
  | false, p => ∀ {text}, Ahead text p → ∃ w s d, Derives (.value w) text s ∧
      p.dom.handleValue w = some d ∧ Closes v rest d.root d.refStack s

/-- The token of a value of one token. -/
lemma Ahead.exists_scalar (h : Ahead text p) (hv : p.scalar = some v) :
    ∃ tok, p.token = some tok ∧ tok.scalar = some v := by
  cases htok : p.token with
  | some tok => exact ⟨tok, rfl, (h.scalar_eq htok).symm.trans hv⟩
  | none =>
    rw [Parser.token] at htok
    rw [Parser.scalar] at hv
    cases htype : p.lastToken with
    | uninitialized | parseError | endOfInput | literalOrValue =>
      rw [htype] at hv
      cases hv
    | _ =>
      rw [htype] at htok
      cases htok

/-- What begins with this step goes on. -/
lemma goes_of_begun {b : Bool} (h : Begun p b p') (hgoes : Goes v rest (!b) p') :
    Goes v rest false p := by
  intro text hahead
  cases h with
  | @scalar w d hw hd =>
    obtain ⟨tok, htok, hw⟩ := hahead.exists_scalar hw
    exact ⟨w, p.pending, d, .scalar (hahead.iff.mpr ⟨htok, rfl⟩) hw, hd, hgoes hahead.started⟩
  | emptyArray htype hbegin htok hend =>
    obtain ⟨-, rfl⟩ := Dom.startArray_eq_some_iff.mp hbegin
    have hlex := hahead.iff.mpr ⟨TokenType.token_eq_fixed_iff.1.mpr htype, rfl⟩
    have hnext := hahead.started.ahead_next
    exact ⟨.array [], _, _, .emptyArray hlex (hnext.iff.mpr ⟨htok, rfl⟩), hend,
      hgoes hnext.started⟩
  | array htype hbegin htok =>
    obtain ⟨-, rfl⟩ := Dom.startArray_eq_some_iff.mp hbegin
    have hlex := hahead.iff.mpr ⟨TokenType.token_eq_fixed_iff.1.mpr htype, rfl⟩
    have hnext := hahead.started.ahead_next
    obtain ⟨w, s, d, hw, hd, hclose⟩ := hgoes ⟨hnext.started, hnext.fits, hnext.iff⟩
    obtain rfl := Option.some.inj hd
    obtain ⟨items, s₁, s₂, d, hitems, hend, hd, hclose⟩ := hclose.exists_elements
    exact ⟨.array (w :: items), s₂, d, .array hlex hw hitems hend, hd, hclose⟩
  | emptyObject htype hbegin htok hend =>
    obtain ⟨-, rfl⟩ := Dom.startObject_eq_some_iff.mp hbegin
    have hlex := hahead.iff.mpr ⟨TokenType.token_eq_fixed_iff.2.2.1.mpr htype, rfl⟩
    have hnext := hahead.started.ahead_next
    exact ⟨.object [], _, _, .emptyObject hlex (hnext.iff.mpr ⟨htok, rfl⟩), hend,
      hgoes hnext.started⟩
  | @object k _ d htype hbegin htok hkey htok' =>
    obtain ⟨-, rfl⟩ := Dom.startObject_eq_some_iff.mp hbegin
    obtain rfl := Option.some.inj hkey
    have hlex := hahead.iff.mpr ⟨TokenType.token_eq_fixed_iff.2.2.1.mpr htype, rfl⟩
    have hnext := hahead.started.ahead_next
    have hnext' := hnext.started.ahead_next
    have hnext'' := hnext'.started.ahead_next
    obtain ⟨w, s, d, hw, hd, hclose⟩ :=
      hgoes ⟨hnext''.started, hnext''.fits, hnext''.iff⟩
    obtain rfl := Option.some.inj hd
    rw [assign_subscript] at hclose
    have hm : Derives (.member (k, w)) p.pending s :=
      .member (hnext.iff.mpr ⟨htok, rfl⟩) (hnext'.iff.mpr ⟨htok', rfl⟩) hw
    obtain ⟨ms, s₁, s₂, d, hms, hend, hd, hclose⟩ := hclose.exists_members
    exact ⟨.object (collect ((k, w) :: ms)), s₂, d, .object hlex hm hms hend, hd, hclose⟩

/-- What follows with this step goes on. -/
lemma goes_of_evaluated {b : Bool} (h : Evaluated p (.inl b) p') (hp : p.Nested true)
    (hgoes : Goes v rest b p') : Goes v rest true p := by
  intro hstarted
  have hnext₁ := hstarted.ahead_next
  have hnext₂ := hnext₁.started.ahead_next
  have hnext₃ := hnext₂.started.ahead_next
  have hnext₄ := hnext₃.started.ahead_next
  cases h with
  | element hstates htok =>
    obtain ⟨⟨items⟩ | ⟨ms, e⟩, frames, hstack, hf, -⟩ := hp.exists_frame hstates <;> cases hf
    obtain ⟨w, s, d, hw, hd, hclose⟩ := hgoes hnext₂
    have hd' : p.dom.handleValue w = some d := hd
    rw [Dom.handleValue, hstack] at hd'
    obtain rfl := Option.some.inj hd'
    rw [hstack]
    exact .element (hnext₁.iff.mpr ⟨htok, rfl⟩) hw hclose
  | endArray hstates htok hend =>
    obtain ⟨⟨items⟩ | ⟨ms, e⟩, frames, hstack, hf, -⟩ := hp.exists_frame hstates <;> cases hf
    rw [Dom.endArray, hstack] at hend
    rw [hstack]
    exact .endArray (hnext₁.iff.mpr ⟨htok, rfl⟩) hend (hgoes hnext₁.started)
  | member hstates htok htok₁ hkey htok₂ =>
    obtain ⟨⟨items⟩ | ⟨ms, e⟩, frames, hstack, hf, -⟩ := hp.exists_frame hstates <;> cases hf
    rw [Dom.key, hstack] at hkey
    obtain rfl := Option.some.inj hkey
    obtain ⟨w, s, d, hw, hd, hclose⟩ := hgoes ⟨hnext₄.started, hnext₄.fits, hnext₄.iff⟩
    obtain rfl := Option.some.inj hd
    rw [assign_subscript] at hclose
    rw [hstack]
    exact .member (hnext₁.iff.mpr ⟨htok, rfl⟩)
      (.member (hnext₂.iff.mpr ⟨htok₁, rfl⟩) (hnext₃.iff.mpr ⟨htok₂, rfl⟩) hw) hclose
  | endObject hstates htok hend =>
    obtain ⟨⟨items⟩ | ⟨ms, e⟩, frames, hstack, hf, -⟩ := hp.exists_frame hstates <;> cases hf
    rw [Dom.endObject, hstack] at hend
    rw [hstack]
    exact .endObject (hnext₁.iff.mpr ⟨htok, rfl⟩) hend (hgoes hnext₁.started)

/-! ## Documents -/

/-- Initially the parser is in no container. -/
lemma Parser.nested_start (text : Str) : (Parser.start text).Nested false :=
  ⟨rfl, by simp [Parser.start, Parser.next], fun _ => rfl⟩

/-- **What the parser reads** is a value, and then what closes the containers. -/
lemma goes_of_run (b : Bool) (p : Parser) : p.Nested b → ∀ u q,
    parserLoop.run b p = .ok u q → Goes q.dom.root q.pending b p := by
  refine run_rule (R := fun b p r => p.Nested b → ∀ u q, r = .ok u q →
    Goes q.dom.root q.pending b p) ?_ ?_ ?_ ?_ ?_ b p
  · rintro p hstates hp u q ⟨⟩
    intro _
    have hstack : p.dom.refStack = [] := by
      rw [← List.map_eq_nil_iff (f := Frame.isArray), ← hp.states, hstates]
    rw [hstack]
    exact .done
  · intro p b p' r h hr hp u q heq
    exact goes_of_begun h (hr (h.nested hp) u q heq)
  · intro p b p' r h hr hp u q heq
    exact goes_of_evaluated h hp (hr (h.nested hp) u q heq)
  · rintro p e p' h hp u q ⟨⟩
  · rintro p e p' h hp u q ⟨⟩

/-- A text that begins with a token has no byte order mark. -/
lemma Lexes.head_ne (h : Lexes text tok rest) : text.head? ≠ some 0xEF := by
  obtain ⟨blanks, s, hblanks, hlex, -, rfl⟩ := h
  intro hhead
  cases blanks with
  | cons b blanks =>
    obtain rfl := Option.some.inj hhead
    exact absurd (hblanks 0xEF (by simp)) (by decide)
  | nil =>
    obtain ⟨c, w, rfl, -⟩ := hlex.exists_cons
    obtain rfl := Option.some.inj hhead
    rcases lexeme_cons_iff.mp hlex with hmem | ⟨hc, -⟩ | ⟨hc, -⟩
    · have hhead : ∀ p ∈ fixedLexemes, p.1.head? ≠ some 0xEF := by decide
      exact hhead _ hmem rfl
    · exact absurd hc (by decide)
    · exact absurd hc (by decide)

/-- A value begins with a token. -/
lemma Derives.head_ne (h : Derives (.value v) text rest) : text.head? ≠ some 0xEF := by
  obtain ⟨tok, s, hlex, -⟩ := h.exists_first
  exact hlex.head_ne

/-- The text without a byte order mark. -/
lemma Lexer.text_new_eq_some_iff {body : Str} : (Lexer.new text).text = some body ↔
    (text = body ∧ body.head? ≠ some 0xEF) ∨ text = [0xEF, 0xBB, 0xBF] ++ body := by
  have htext : (Lexer.new text).text =
      if text.head? = some 0xEF then
        if text.tail.take 2 = [0xBB, 0xBF] then some (text.drop 3) else none
      else some text := by
    rw [Lexer.text]
    exact if_congr (by simp [Lexer.new, Input.pending]) rfl rfl
  rw [htext]
  by_cases hhead : text.head? = some 0xEF
  · obtain ⟨t, rfl⟩ := List.head?_eq_some_iff.mp hhead
    have hno : ¬ (0xEF :: t = body ∧ body.head? ≠ some 0xEF) := by
      rintro ⟨rfl, h⟩
      exact h rfl
    rw [if_pos hhead, or_iff_right hno, List.tail_cons]
    by_cases htake : t.take 2 = [0xBB, 0xBF]
    · have ht : t = [0xBB, 0xBF] ++ t.drop 2 := by rw [← htake, List.take_append_drop]
      rw [if_pos htake]
      constructor
      · intro h
        rw [← Option.some.inj h, ht]
        rfl
      · intro h
        obtain rfl : t = [0xBB, 0xBF] ++ body := (List.cons.inj h).2
        rfl
    · rw [if_neg htake]
      refine iff_of_false (by simp) fun h => htake ?_
      obtain rfl : t = [0xBB, 0xBF] ++ body := (List.cons.inj h).2
      rfl
  · rw [if_neg hhead]
    constructor
    · intro h
      obtain rfl := Option.some.inj h
      exact .inl ⟨rfl, hhead⟩
    · rintro (⟨rfl, -⟩ | rfl)
      · rfl
      · exact absurd rfl hhead

/-- Without the rest of the mark, parsing fails. -/
lemma run_ne_ok_of_text_eq_none (h : (Lexer.new text).text = none) (u : Unit) (q : Parser) :
    parserLoop.run false (.start text) ≠ .ok u q := by
  obtain ⟨e, l, hscan, -⟩ := scanToken_of_text_eq_none h
  have htype : (Parser.start text).lastToken = .parseError := by
    rw [Parser.start, Parser.next, Lexer.scan, hscan]
  have hbegin : beginValue (.start text) =
      (unexpected .uninitialized "value" : Parse Bool) (.start text) := by
    rw [beginValue, look_bind, htype]
  have hbody : parserLoop.body false (.start text) =
      (unexpected .uninitialized "value" : Parse (Bool ⊕ Unit)) (.start text) := by
    change (beginValue >>= fun b => if b = true then pure (.inl false) else evaluate :
      Parse (Bool ⊕ Unit)) (.start text) = _
    rw [bind_of_error hbegin]
    rfl
  rw [Loop.run_of_throw hbody]
  simp

/-- What the parser accepts. -/
lemma run_start_iff {body : Str} (h : (Lexer.new text).text = some body) :
    (∃ u q, parserLoop.run false (.start text) = .ok u q ∧ q.dom.root = v ∧ q.pending = rest) ↔
      Derives (.value v) body rest := by
  have hahead : Ahead body (.start text) := ahead_next h
  constructor
  · rintro ⟨u, q, hrun, rfl, rfl⟩
    obtain ⟨w, s, d, hw, hd, hclose⟩ :=
      goes_of_run false _ (Parser.nested_start text) u q hrun hahead
    obtain rfl := Option.some.inj hd
    cases hclose
    exact hw
  · intro hv
    obtain ⟨q, hstarted, hpending, hstates, hd, hrun⟩ := hv.completes hahead rfl
    refine ⟨(), q, hrun.trans (run_of_done hstates), ?_, hpending⟩
    exact (congrArg Dom.root (Option.some.inj hd)).symm

/-- The parser accepts the documents, and returns their values. -/
lemma parse_eq_ok_iff : parse text = .ok v ↔ Document text v := by
  have hparse : parse text = .ok v ↔
      ∃ u q, parserLoop.run false (.start text) = .ok u q ∧ q.dom.root = v := by
    rw [parse]
    cases parserLoop.run false (.start text) <;> simp
  have hbody : ∀ {body rest}, Derives (.value v) body rest →
      ((Lexer.new text).text = some body ↔
        ∃ bom, (bom = [] ∨ bom = [0xEF, 0xBB, 0xBF]) ∧ text = bom ++ body) := fun h => by
    rw [Lexer.text_new_eq_some_iff, and_iff_left h.head_ne]
    simp [or_and_right, exists_or]
  rw [hparse]
  constructor
  · rintro ⟨u, q, hrun, rfl⟩
    cases htext : (Lexer.new text).text with
    | none => exact absurd hrun (run_ne_ok_of_text_eq_none htext u q)
    | some body =>
      have hv := (run_start_iff htext).mp ⟨u, q, hrun, rfl, rfl⟩
      obtain ⟨bom, hbom, heq⟩ := (hbody hv).mp htext
      exact ⟨bom, body, _, hbom, heq, hv⟩
  · rintro ⟨bom, body, rest, hbom, heq, hv⟩
    obtain ⟨u, q, hrun, hroot, -⟩ := (run_start_iff ((hbody hv).mpr ⟨bom, hbom, heq⟩)).mpr hv
    exact ⟨u, q, hrun, hroot⟩

/-- **The parser and the grammar**: reading a value from a stream succeeds exactly if the stream
begins with one, by the grammar, and returns this value.

**Proof sketch.** A value of the grammar is read by induction on its derivation; the parser is then
where it evaluates the state. Conversely, the steps of a run that succeeds are put together from the
end to the beginning: what comes after a value closes the containers that have not ended. -/
theorem parseJson_eq_ok_iff : parseJson text = .ok v ↔ Document text v :=
  parseJson_ok_iff.trans parse_eq_ok_iff

end Nlohmann
