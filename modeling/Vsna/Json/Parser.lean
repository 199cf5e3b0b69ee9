import Vsna.Common.Env
import Vsna.Json.Scan

set_option relaxedAutoImplicit false
set_option autoImplicit false

/-!
# The parser of the JSON library

The class `parser` of `common/libs/json.hpp`, without a callback, with the class
`json_sax_dom_parser` that it reports its events to. The parser has no recursion: it remembers in
`states` which containers it is in.

The references of `ref_stack` are modelled by the containers themselves. A container is stored in
the one around it when it ends; until then nothing reads it. An assertion of `json_sax_dom_parser`
that fails is modelled as a failure.

## Main definitions

* `Nlohmann.Frame`, `Nlohmann.Dom` — `json_sax_dom_parser`, and its events.
* `Nlohmann.Parser`, `Nlohmann.Failure` — `parser`, and how it fails.
* `Nlohmann.getToken`, `Nlohmann.exceptionMessage` — the functions of these names.
* `Nlohmann.beginValue`, `Nlohmann.evaluate`, `Nlohmann.parserLoop` — `sax_parse_internal`.
* `Nlohmann.parse`, `Nlohmann.parseJson` — reading a value from a stream.
* `Nlohmann.Begun`, `Nlohmann.Evaluated` — the steps of the parser.

## Main results

* `Nlohmann.Parser.next_eq_iff` — what `get_token` reads.
* `Nlohmann.beginValue_eq_ok_iff`, `Nlohmann.evaluate_eq_ok_iff` — what the parts of the loop do.
-/

namespace Nlohmann

open Text Automata Vsna

/-! ## The document -/

/-- A container that has not ended. In an object, `object_element` is the member that the next value
is for. -/
inductive Frame
  | array (items : List Json)
  | object (members : List (Str × Json)) (objectElement : Option Str)

/-- There is a place for a value in the container. -/
def Frame.awaits : Frame → Bool
  | .array _ => true
  | .object _ objectElement => objectElement.isSome

/-- `json_sax_dom_parser`, with the innermost container first. -/
structure Dom where
  root : Json := .null
  refStack : List Frame := []

/-- `operator[]` of the map of an object, and an assignment to what it refers to. The members are in
the order in which they were added; nothing asks for the order of the map. -/
def assign (key : Str) (v : Json) : List (Str × Json) → List (Str × Json)
  | [] => [(key, v)]
  | m :: members => if m.1 = key then (key, v) :: members else m :: assign key v members

/-- `operator[]` of the map of an object: a member that is missing is added as null. -/
def subscript (key : Str) (members : List (Str × Json)) : List (Str × Json) :=
  match Json.member members key with
  | some _ => members
  | none => assign key .null members

namespace Dom

/-- `handle_value`. -/
def handleValue (v : Json) (d : Dom) : Option Dom :=
  match d.refStack with
  | [] => some { d with root := v }
  | .array items :: frames => some { d with refStack := .array (items ++ [v]) :: frames }
  | .object members (some key) :: frames =>
    some { d with refStack := .object (assign key v members) none :: frames }
  | .object _ none :: _ => none

/-- There is a place for a value. -/
def awaits (d : Dom) : Bool := d.refStack.head?.all Frame.awaits

/-- `start_array`. -/
def startArray (d : Dom) : Option Dom :=
  if d.awaits then some { d with refStack := .array [] :: d.refStack } else none

/-- `start_object`. -/
def startObject (d : Dom) : Option Dom :=
  if d.awaits then some { d with refStack := .object [] none :: d.refStack } else none

/-- `key`. -/
def key (k : Str) (d : Dom) : Option Dom :=
  match d.refStack with
  | .object members _ :: frames =>
    some { d with refStack := .object (subscript k members) (some k) :: frames }
  | _ => none

/-- `end_array`. -/
def endArray (d : Dom) : Option Dom :=
  match d.refStack with
  | .array items :: frames => handleValue (.array items) { d with refStack := frames }
  | _ => none

/-- `end_object`. -/
def endObject (d : Dom) : Option Dom :=
  match d.refStack with
  | .object members _ :: frames => handleValue (.object members) { d with refStack := frames }
  | _ => none

end Dom

/-! ## The parser -/

/-- How parsing fails: an exception with the text of its `what()`, or a failed assertion. -/
inductive Failure
  | thrown (what : Str)
  | assertion
  deriving DecidableEq

/-- `parser`, with the variable `states` of `sax_parse_internal`, innermost first, in which arrays
are true and objects false, and with the document. -/
structure Parser where
  lexer : Lexer
  lastToken : TokenType := .uninitialized
  states : List Bool := []
  dom : Dom := {}

/-- A function of the parser. -/
abbrev Parse := EStateM Failure Parser

/-- The parser after `get_token`. -/
def Parser.next (p : Parser) : Parser :=
  { p with lexer := p.lexer.scan.2, lastToken := p.lexer.scan.1 }

/-- `get_token`. -/
def getToken : Parse TokenType := fun p => .ok p.next.lastToken p.next

/-- The last token, with what it says. -/
def Parser.token (p : Parser) : Option Token := p.lastToken.token p.lexer.tokenBuffer

/-- The input that is left after the last token. -/
def Parser.pending (p : Parser) : Str := p.lexer.input.pending

/-- `get_token_string`. -/
def Lexer.getTokenString (l : Lexer) : Str :=
  l.tokenString.flatMap fun c => if c ≤ 0x1F then "<U+00" ++ hexByte c ++ ">" else [c]

/-- `exception_message`. -/
def exceptionMessage (p : Parser) (expected : TokenType) (context : Str) : Str :=
  "syntax error " ++ (if context ≠ [] then "while parsing " ++ context ++ " " else []) ++ "- " ++
    (if p.lastToken = .parseError then
      p.lexer.errorMessage ++ "; last read: '" ++ p.lexer.getTokenString ++ "'"
    else "unexpected " ++ p.lastToken.name) ++
    (if expected ≠ .uninitialized then "; expected " ++ expected.name else [])

/-- The text of `parse_error::create(101, ...)`. -/
def parseErrorText (position : Position) (message : Str) : Str :=
  "[json.exception.parse_error.101] parse error at line " ++ decimal (position.linesRead + 1) ++
    ", column " ++ decimal position.charsReadCurrentLine ++ ": " ++ message

/-- The text of `out_of_range::create(406, ...)`. -/
def overflowText (l : Lexer) : Str :=
  "[json.exception.out_of_range.406] number overflow parsing '" ++ l.getTokenString ++ "'"

/-- The handler `parse_error` throws the exception that it is given. -/
def parseError {α : Type} (what : Parser → Str) : Parse α := fun p => .error (.thrown (what p)) p

/-- An unexpected token. -/
def unexpected {α : Type} (expected : TokenType) (context : Str) : Parse α :=
  parseError fun p => parseErrorText p.lexer.position (exceptionMessage p expected context)

/-- An event for the document, in which an assertion may fail. -/
def event (f : Dom → Option Dom) : Parse Unit := fun p =>
  match f p.dom with
  | some d => .ok () { p with dom := d }
  | none => .error .assertion p

/-- `states.push_back`. -/
def pushState (array : Bool) : Parse Unit := modify fun p => { p with states := array :: p.states }

/-- `states.pop_back`. -/
def popState : Parse Unit := modify fun p => { p with states := p.states.tail }

/-- A key, which is the last token, and the separator after it. -/
def parseKey : Parse Unit := do
  if (← getThe Parser).lastToken ≠ .valueString then unexpected .valueString "object key"
  else
    event (Dom.key (← getThe Parser).lexer.tokenBuffer)
    if (← getToken) ≠ .nameSeparator then unexpected .nameSeparator "object separator"
    else return ()

/-- A value of one token. -/
def parseScalar (v : Json) : Parse Bool := do
  event (Dom.handleValue v)
  return false

/-- The case `begin_object`. -/
def parseObject : Parse Bool := do
  event Dom.startObject
  if (← getToken) = .endObject then
    event Dom.endObject
    return false
  else
    parseKey
    pushState false
    let _ ← getToken
    return true

/-- The case `begin_array`. -/
def parseArray : Parse Bool := do
  event Dom.startArray
  if (← getToken) = .endArray then
    event Dom.endArray
    return false
  else
    pushState true
    return true

/-- The message about a document in which there is nothing. -/
def emptyInputMessage : Str :=
  "attempting to parse an empty input; " ++
    "check that your input string or stream contains the expected JSON"

/-- The cases of `sax_parse_internal`, by the last token. It tells whether a container has begun, so
that its first value is to be parsed. -/
def beginValue : Parse Bool := do
  let p ← getThe Parser
  match p.lastToken with
  | .beginObject => parseObject
  | .beginArray => parseArray
  | .valueFloat =>
    if Overflows p.lexer.tokenBuffer then parseError fun p => overflowText p.lexer
    else parseScalar (.number p.lexer.tokenBuffer)
  | .literalFalse => parseScalar (.boolean false)
  | .literalNull => parseScalar .null
  | .literalTrue => parseScalar (.boolean true)
  | .valueInteger => parseScalar (.number p.lexer.tokenBuffer)
  | .valueString => parseScalar (.string p.lexer.tokenBuffer)
  | .valueUnsigned => parseScalar (.number p.lexer.tokenBuffer)
  | .parseError => unexpected .uninitialized "value"
  | .endOfInput =>
    if p.lexer.position.charsReadTotal = 1 then
      parseError fun p => parseErrorText p.lexer.position emptyInputMessage
    else unexpected .literalOrValue "value"
  | .uninitialized | .endArray | .endObject | .nameSeparator | .valueSeparator | .literalOrValue =>
    unexpected .literalOrValue "value"

/-- After a value: whether to skip to this point again, or that parsing is done. -/
def evaluate : Parse (Bool ⊕ Unit) := do
  match (← getThe Parser).states with
  | [] => return .inr ()
  | true :: _ =>
    let token ← getToken
    if token = .valueSeparator then
      let _ ← getToken
      return .inl false
    else if token = .endArray then
      event Dom.endArray
      popState
      return .inl true
    else unexpected .endArray "array"
  | false :: _ =>
    let token ← getToken
    if token = .valueSeparator then
      let _ ← getToken
      parseKey
      let _ ← getToken
      return .inl false
    else if token = .endObject then
      event Dom.endObject
      popState
      return .inl true
    else unexpected .endObject "object"

/-- The body of the loop of `sax_parse_internal`, with `skip_to_state_evaluation`. -/
def parserBody (skip : Bool) : Parse (Bool ⊕ Unit) := do
  if skip then evaluate
  else
    if ← beginValue then return .inl false
    else evaluate

/-! ## Reading tokens -/

variable {p p' : Parser} {tok : Token} {rest : Str}

/-- **What `get_token` reads** is the token that the input begins with. -/
lemma Parser.next_eq_iff : p.next.token = some tok ∧ p.next.pending = rest ↔
    ∃ text, p.lexer.text = some text ∧ Lexes text tok rest := by
  rw [← reads_scanToken_iff, Reads, Parser.token, Parser.pending, Parser.next, Lexer.scan]
  cases h : scanToken p.lexer with
  | ok t l => simp
  | error e l => simp [TokenType.token]

/-- Reading a token leaves no more input. -/
lemma Parser.length_next_le (p : Parser) : p.next.pending.length ≤ p.pending.length := by
  have hkeeps := keeps_scanToken (stable_atMost p.pending.length) p.lexer (Nat.le_refl _)
  rw [Parser.pending, Parser.next, Lexer.scan]
  cases h : scanToken p.lexer with
  | ok t l => simpa [h, after, AtMost] using hkeeps
  | error e l => simpa [h, after, AtMost] using hkeeps

/-- The text without a byte order mark is no longer than the input. -/
lemma Lexer.length_text_le {l : Lexer} {text : Str} (h : l.text = some text) :
    text.length ≤ l.input.pending.length := by
  rw [Lexer.text] at h
  split_ifs at h
  · obtain rfl := Option.some.inj h
    simp
  · exact (congrArg List.length (Option.some.inj h)).ge

/-- A token takes some of the input. -/
lemma Parser.length_next_lt (h : p.next.token = some tok) :
    p.next.pending.length < p.pending.length := by
  obtain ⟨text, htext, hlex⟩ := Parser.next_eq_iff.mp ⟨h, rfl⟩
  exact (length_lt_of_lexes hlex).trans_le (Lexer.length_text_le htext)

/-! ## Steps -/

/-- A token without text is known by its type. -/
lemma TokenType.token_eq_fixed_iff {t : TokenType} {buffer : Str} :
    (t.token buffer = some .beginArray ↔ t = .beginArray) ∧
      (t.token buffer = some .endArray ↔ t = .endArray) ∧
      (t.token buffer = some .beginObject ↔ t = .beginObject) ∧
      (t.token buffer = some .endObject ↔ t = .endObject) ∧
      (t.token buffer = some .nameSeparator ↔ t = .nameSeparator) ∧
      (t.token buffer = some .valueSeparator ↔ t = .valueSeparator) := by
  cases t <;> simp [token]

/-- A string is known by its type and its text. -/
lemma TokenType.token_eq_string_iff {t : TokenType} {buffer k : Str} :
    t.token buffer = some (.string k) ↔ t = .valueString ∧ buffer = k := by
  cases t <;> simp [token]

/-- Looking at the parser. -/
lemma look_bind {α : Type} (f : Parser → Parse α) (p : Parser) :
    (getThe Parser >>= f) p = f p p := rfl

/-- Reading a token. -/
lemma getToken_bind {α : Type} (f : TokenType → Parse α) (p : Parser) :
    (getToken >>= f) p = f p.next.lastToken p.next := rfl

/-- Changing the stack of states. -/
lemma pushState_bind {α : Type} (array : Bool) (f : Unit → Parse α) (p : Parser) :
    (pushState array >>= f) p = f () { p with states := array :: p.states } := rfl

/-- Changing the stack of states. -/
lemma popState_bind {α : Type} (f : Unit → Parse α) (p : Parser) :
    (popState >>= f) p = f () { p with states := p.states.tail } := rfl

/-- What an event does. -/
lemma event_eq_ok_iff {f : Dom → Option Dom} {u : Unit} : event f p = .ok u p' ↔
    ∃ d, f p.dom = some d ∧ { p with dom := d } = p' := by
  unfold event
  cases f p.dom <;> simp

/-- The handler `parse_error` throws. -/
lemma parseError_ne_ok {α : Type} {a : α} {what : Parser → Str} :
    parseError what p ≠ .ok a p' := by
  simp [parseError]

/-- An unexpected token is an error. -/
lemma unexpected_ne_ok {α : Type} {a : α} {t : TokenType} {context : Str} :
    unexpected t context p ≠ .ok a p' := by
  simp [unexpected, parseError]

/-- What `parseKey` does. -/
lemma parseKey_eq_ok_iff {u : Unit} : parseKey p = .ok u p' ↔
    ∃ k d, p.token = some (.string k) ∧ p.dom.key k = some d ∧
      p.next.token = some .nameSeparator ∧ { p.next with dom := d } = p' := by
  simp only [parseKey, look_bind, branch_eq_iff, unexpected_ne_ok, and_false, false_or, seq_ok_iff,
    event_eq_ok_iff, getToken_bind, return_eq_ok_iff, Parser.token, TokenType.token_eq_string_iff,
    TokenType.token_eq_fixed_iff, ne_eq, not_not]
  constructor
  · rintro ⟨htype, -, -, ⟨d, hd, rfl⟩, hsep, -, rfl⟩
    exact ⟨_, d, ⟨htype, rfl⟩, hd, hsep, rfl⟩
  · rintro ⟨_, d, ⟨htype, rfl⟩, hd, hsep, rfl⟩
    exact ⟨htype, (), _, ⟨d, hd, rfl⟩, hsep, trivial, rfl⟩

/-- The outcomes of `evaluate`. -/
inductive Evaluated (p : Parser) : Bool ⊕ Unit → Parser → Prop
  | done : p.states = [] → Evaluated p (.inr ()) p
  | element {states : List Bool} : p.states = true :: states →
      p.next.token = some .valueSeparator → Evaluated p (.inl false) p.next.next
  | endArray {states : List Bool} {d : Dom} : p.states = true :: states →
      p.next.token = some .endArray → p.dom.endArray = some d →
      Evaluated p (.inl true) { p.next with states := p.states.tail, dom := d }
  | member {states : List Bool} {k : Str} {d : Dom} : p.states = false :: states →
      p.next.token = some .valueSeparator → p.next.next.token = some (.string k) →
      p.dom.key k = some d → p.next.next.next.token = some .nameSeparator →
      Evaluated p (.inl false) { p.next.next.next.next with dom := d }
  | endObject {states : List Bool} {d : Dom} : p.states = false :: states →
      p.next.token = some .endObject → p.dom.endObject = some d →
      Evaluated p (.inl true) { p.next with states := p.states.tail, dom := d }

/-- **What `evaluate` does.** -/
lemma evaluate_eq_ok_iff {r : Bool ⊕ Unit} : evaluate p = .ok r p' ↔ Evaluated p r p' := by
  obtain ⟨-, hendArray, -, hendObject, -, hcomma⟩ :=
    @TokenType.token_eq_fixed_iff p.next.lastToken p.next.lexer.tokenBuffer
  rw [evaluate, look_bind]
  constructor
  · intro h
    cases hstates : p.states with
    | nil =>
      simp only [hstates, return_eq_ok_iff] at h
      obtain ⟨rfl, rfl⟩ := h
      exact .done hstates
    | cons b states =>
      cases b with
      | true =>
        simp only [hstates, getToken_bind, branch_eq_iff, return_eq_ok_iff, seq_ok_iff,
          event_eq_ok_iff, popState_bind, unexpected_ne_ok, and_false, or_false] at h
        rcases h with ⟨htype, rfl, rfl⟩ | ⟨-, htype, -, -, ⟨d, hd, rfl⟩, rfl, rfl⟩
        · exact .element hstates (hcomma.mpr htype)
        · exact .endArray hstates (hendArray.mpr htype) hd
      | false =>
        simp only [hstates, getToken_bind, branch_eq_iff, return_eq_ok_iff, seq_ok_iff,
          event_eq_ok_iff, popState_bind, unexpected_ne_ok, and_false, or_false,
          parseKey_eq_ok_iff] at h
        rcases h with ⟨htype, -, -, ⟨k, d, hk, hd, hsep, rfl⟩, rfl, rfl⟩ |
          ⟨-, htype, -, -, ⟨d, hd, rfl⟩, rfl, rfl⟩
        · exact .member hstates (hcomma.mpr htype) hk hd hsep
        · exact .endObject hstates (hendObject.mpr htype) hd
  · intro h
    cases h with
    | done hstates =>
      rw [hstates]
      rfl
    | element hstates htok =>
      simp only [hstates, getToken_bind, hcomma.mp htok, if_true, return_eq_ok_iff, and_self]
    | endArray hstates htok hd =>
      simp only [hstates, getToken_bind]
      rw [if_neg (by simp [hendArray.mp htok]), if_pos (hendArray.mp htok)]
      exact seq_ok_iff.mpr ⟨(), _, event_eq_ok_iff.mpr ⟨_, hd, rfl⟩, by rw [← hstates]; rfl⟩
    | member hstates htok hk hd hsep =>
      simp only [hstates, getToken_bind, hcomma.mp htok, if_true]
      exact seq_ok_iff.mpr ⟨(), _, parseKey_eq_ok_iff.mpr ⟨_, _, hk, hd, hsep, rfl⟩, rfl⟩
    | endObject hstates htok hd =>
      simp only [hstates, getToken_bind]
      rw [if_neg (by simp [hendObject.mp htok]), if_pos (hendObject.mp htok)]
      exact seq_ok_iff.mpr ⟨(), _, event_eq_ok_iff.mpr ⟨_, hd, rfl⟩, by rw [← hstates]; rfl⟩

/-- The value that the last token stands for, if it stands for one. -/
def Parser.scalar (p : Parser) : Option Json :=
  match p.lastToken with
  | .literalTrue => some (.boolean true)
  | .literalFalse => some (.boolean false)
  | .literalNull => some .null
  | .valueString => some (.string p.lexer.tokenBuffer)
  | .valueUnsigned | .valueInteger => some (.number p.lexer.tokenBuffer)
  | .valueFloat =>
    if Overflows p.lexer.tokenBuffer then none else some (.number p.lexer.tokenBuffer)
  | .uninitialized | .beginArray | .beginObject | .endArray | .endObject | .nameSeparator
  | .valueSeparator | .parseError | .endOfInput | .literalOrValue => none

/-- The outcomes of `beginValue`. -/
inductive Begun (p : Parser) : Bool → Parser → Prop
  | scalar {v : Json} {d : Dom} : p.scalar = some v → p.dom.handleValue v = some d →
      Begun p false { p with dom := d }
  | emptyObject {d d' : Dom} : p.lastToken = .beginObject → p.dom.startObject = some d →
      p.next.token = some .endObject → d.endObject = some d' →
      Begun p false { p.next with dom := d' }
  | object {k : Str} {d d' : Dom} : p.lastToken = .beginObject → p.dom.startObject = some d →
      p.next.token = some (.string k) → d.key k = some d' →
      p.next.next.token = some .nameSeparator →
      Begun p true { p.next.next.next with states := false :: p.states, dom := d' }
  | emptyArray {d d' : Dom} : p.lastToken = .beginArray → p.dom.startArray = some d →
      p.next.token = some .endArray → d.endArray = some d' →
      Begun p false { p.next with dom := d' }
  | array {d : Dom} : p.lastToken = .beginArray → p.dom.startArray = some d →
      p.next.token ≠ some .endArray →
      Begun p true { p.next with states := true :: p.states, dom := d }

/-- What `parseScalar` does. -/
lemma parseScalar_eq_ok_iff {v : Json} {b : Bool} : parseScalar v p = .ok b p' ↔
    b = false ∧ ∃ d, p.dom.handleValue v = some d ∧ { p with dom := d } = p' := by
  simp only [parseScalar, seq_ok_iff, event_eq_ok_iff, return_eq_ok_iff]
  constructor
  · rintro ⟨-, -, ⟨d, hd, rfl⟩, rfl, rfl⟩
    exact ⟨rfl, d, hd, rfl⟩
  · rintro ⟨rfl, d, hd, rfl⟩
    exact ⟨(), _, ⟨d, hd, rfl⟩, rfl, rfl⟩

/-- A value of one token begins as one. -/
lemma begun_scalar_iff {v : Json} {b : Bool} (hv : p.scalar = some v) :
    Begun p b p' ↔ b = false ∧ ∃ d, p.dom.handleValue v = some d ∧ { p with dom := d } = p' := by
  constructor
  · intro h
    cases h with
    | scalar hv' hd =>
      obtain rfl := Option.some.inj (hv.symm.trans hv')
      exact ⟨rfl, _, hd, rfl⟩
    | emptyArray htype | array htype | emptyObject htype | object htype =>
      simp [Parser.scalar, htype] at hv
  · rintro ⟨rfl, d, hd, rfl⟩
    exact .scalar hv hd

/-- What `parseArray` does. -/
lemma parseArray_eq_ok_iff {b : Bool} (htype : p.lastToken = .beginArray) :
    parseArray p = .ok b p' ↔ Begun p b p' := by
  have hend := (@TokenType.token_eq_fixed_iff p.next.lastToken p.next.lexer.tokenBuffer).2.1
  simp only [parseArray, seq_ok_iff, event_eq_ok_iff, getToken_bind, branch_eq_iff,
    return_eq_ok_iff, pushState_bind]
  constructor
  · rintro ⟨-, -, ⟨d, hd, rfl⟩, ⟨hnext, -, -, ⟨d', hd', rfl⟩, rfl, rfl⟩ | ⟨hnext, rfl, rfl⟩⟩
    · exact .emptyArray htype hd (hend.mpr hnext) hd'
    · exact .array htype hd (hend.not.mpr hnext)
  · intro h
    cases h with
    | emptyArray _ hd htok hd' =>
      exact ⟨(), _, ⟨_, hd, rfl⟩, .inl ⟨hend.mp htok, (), _, ⟨_, hd', rfl⟩, rfl, rfl⟩⟩
    | array _ hd htok => exact ⟨(), _, ⟨_, hd, rfl⟩, .inr ⟨hend.not.mp htok, rfl, rfl⟩⟩
    | scalar hv => simp [Parser.scalar, htype] at hv
    | emptyObject h | object h => simp [htype] at h

/-- What `parseObject` does. -/
lemma parseObject_eq_ok_iff {b : Bool} (htype : p.lastToken = .beginObject) :
    parseObject p = .ok b p' ↔ Begun p b p' := by
  have hend := (@TokenType.token_eq_fixed_iff p.next.lastToken p.next.lexer.tokenBuffer).2.2.2.1
  simp only [parseObject, seq_ok_iff, event_eq_ok_iff, getToken_bind, branch_eq_iff,
    return_eq_ok_iff, pushState_bind, parseKey_eq_ok_iff]
  constructor
  · rintro ⟨-, -, ⟨d, hd, rfl⟩, ⟨hnext, -, -, ⟨d', hd', rfl⟩, rfl, rfl⟩ |
      ⟨-, -, -, ⟨k, d', hk, hd', hsep, rfl⟩, rfl, rfl⟩⟩
    · exact .emptyObject htype hd (hend.mpr hnext) hd'
    · exact .object htype hd hk hd' hsep
  · intro h
    cases h with
    | emptyObject _ hd htok hd' =>
      exact ⟨(), _, ⟨_, hd, rfl⟩, .inl ⟨hend.mp htok, (), _, ⟨_, hd', rfl⟩, rfl, rfl⟩⟩
    | object _ hd hk hd' hsep =>
      have hne : p.next.lastToken ≠ .endObject := fun hnext =>
        absurd (hk.symm.trans (hend.mpr hnext)) (by simp)
      exact ⟨(), _, ⟨_, hd, rfl⟩, .inr ⟨hne, (), _, ⟨_, _, hk, hd', hsep, rfl⟩, rfl, rfl⟩⟩
    | scalar hv => simp [Parser.scalar, htype] at hv
    | emptyArray h | array h => simp [htype] at h

/-- **What `beginValue` does.** -/
lemma beginValue_eq_ok_iff {b : Bool} : beginValue p = .ok b p' ↔ Begun p b p' := by
  have hno : p.scalar = none → p.lastToken ≠ .beginArray → p.lastToken ≠ .beginObject →
      ¬ Begun p b p' := by
    intro hv harray hobject h
    cases h with
    | scalar hv' => simp [hv] at hv'
    | emptyArray htype | array htype => exact harray htype
    | emptyObject htype | object htype => exact hobject htype
  rw [beginValue, look_bind]
  cases htype : p.lastToken with
  | beginArray => exact parseArray_eq_ok_iff htype
  | beginObject => exact parseObject_eq_ok_iff htype
  | literalTrue | literalFalse | literalNull | valueString | valueUnsigned | valueInteger =>
    exact parseScalar_eq_ok_iff.trans (begun_scalar_iff (by rw [Parser.scalar, htype])).symm
  | valueFloat =>
    by_cases hover : Overflows p.lexer.tokenBuffer
    · rw [if_pos hover]
      refine iff_of_false parseError_ne_ok (hno ?_ (by simp [htype]) (by simp [htype]))
      simp only [Parser.scalar, htype, if_pos hover]
    · rw [if_neg hover]
      refine parseScalar_eq_ok_iff.trans (begun_scalar_iff ?_).symm
      simp only [Parser.scalar, htype, if_neg hover]
  | endArray | endObject | nameSeparator | valueSeparator | uninitialized | literalOrValue
  | parseError =>
    exact iff_of_false unexpected_ne_ok
      (hno (by rw [Parser.scalar, htype]) (by simp [htype]) (by simp [htype]))
  | endOfInput =>
    refine iff_of_false ?_ (hno (by rw [Parser.scalar, htype]) (by simp [htype]) (by simp [htype]))
    simp [branch_eq_iff, unexpected, parseError]

/-! ## The loop -/

/-- The input that is left, and whether the last token was one. -/
def Parser.measure (p : Parser) : ℕ := 2 * p.pending.length + (if p.token = none then 0 else 1)

/-- The measure is that of the input, up to one. -/
lemma Parser.measure_le (p : Parser) : p.measure ≤ 2 * p.pending.length + 1 := by
  unfold measure
  split_ifs <;> omega

/-- A container that has begun leaves less to be parsed. -/
lemma Begun.measure_lt (h : Begun p true p') : p'.measure < p.measure := by
  cases h with
  | object _ _ htok₁ _ htok₂ =>
    have h₁ := Parser.length_next_lt htok₁
    have h₂ := Parser.length_next_lt htok₂
    have h₃ := p.next.next.length_next_le
    refine (p.next.next.next.measure_le).trans_lt ?_
    unfold Parser.measure
    omega
  | array htype =>
    have htok : p.token = some .beginArray := by
      rw [Parser.token, htype]
      rfl
    have hle := p.length_next_le
    change p.next.measure < p.measure
    cases hnext : p.next.token with
    | none => simp [Parser.measure, hnext, htok]; omega
    | some tok =>
      have hlt := Parser.length_next_lt hnext
      simp [Parser.measure, hnext, htok]
      omega

/-- A value that has been read leaves no more to be parsed. -/
lemma Begun.length_le (h : Begun p false p') : p'.pending.length ≤ p.pending.length := by
  cases h with
  | scalar => exact Nat.le_refl _
  | emptyArray | emptyObject => exact p.length_next_le

/-- What follows a value leaves less to be parsed. -/
lemma Evaluated.length_lt {b : Bool} (h : Evaluated p (.inl b) p') :
    p'.pending.length < p.pending.length := by
  cases h with
  | element _ htok =>
    exact p.next.length_next_le.trans_lt (Parser.length_next_lt htok)
  | endArray _ htok | endObject _ htok => exact Parser.length_next_lt htok
  | member _ htok =>
    have h₁ := p.next.length_next_le
    have h₂ := p.next.next.length_next_le
    have h₃ := p.next.next.next.length_next_le
    have h₄ := Parser.length_next_lt htok
    change p.next.next.next.next.pending.length < _
    omega

/-- `sax_parse_internal`. -/
def parserLoop : Loop Failure Parser Bool Unit where
  body := parserBody
  measure _ p := p.measure
  decreases {skip p skip' p'} h := by
    have hevaluate : ∀ {q : Parser}, evaluate q = .ok (.inl skip') p' →
        p'.measure < 2 * q.pending.length := fun h => by
      have hlt := (evaluate_eq_ok_iff.mp h).length_lt
      have hle := p'.measure_le
      omega
    have hmeasure : 2 * p.pending.length ≤ p.measure := Nat.le_add_right _ _
    simp only [parserBody, branch_eq_iff, seq_ok_iff, return_eq_ok_iff] at h
    rcases h with ⟨-, h⟩ | ⟨-, b, q, hbegin, ⟨rfl, -, rfl⟩ | ⟨hb, h⟩⟩
    · exact (hevaluate h).trans_le hmeasure
    · exact (beginValue_eq_ok_iff.mp hbegin).measure_lt
    · rw [Bool.not_eq_true] at hb
      subst hb
      have hle := (beginValue_eq_ok_iff.mp hbegin).length_le
      have hlt := hevaluate h
      omega

/-! ## Runs -/

/-- A value that has been read is evaluated. -/
lemma run_of_begun_false (h : Begun p false p') :
    parserLoop.run false p = parserLoop.run true p' := by
  have hbody : parserLoop.body false p = parserLoop.body true p' := by
    change (beginValue >>= fun b => if b = true then pure (.inl false) else evaluate :
      Parse (Bool ⊕ Unit)) p = evaluate p'
    rw [bind_of_ok (beginValue_eq_ok_iff.mpr h)]
    rfl
  rw [Loop.run_eq, hbody, ← Loop.run_eq]

/-- After a container has begun, its first value is parsed. -/
lemma run_of_begun_true (h : Begun p true p') :
    parserLoop.run false p = parserLoop.run false p' := by
  refine Loop.run_of_next ?_
  change (beginValue >>= fun b => if b = true then pure (.inl false) else evaluate :
    Parse (Bool ⊕ Unit)) p = _
  rw [bind_of_ok (beginValue_eq_ok_iff.mpr h)]
  rfl

/-- After a value the next one is parsed, or the container is evaluated. -/
lemma run_of_evaluated {b : Bool} (h : Evaluated p (.inl b) p') :
    parserLoop.run true p = parserLoop.run b p' :=
  Loop.run_of_next (evaluate_eq_ok_iff.mpr h)

/-- Outside of all containers parsing is done. -/
lemma run_of_done (h : p.states = []) : parserLoop.run true p = .ok () p :=
  Loop.run_of_return (evaluate_eq_ok_iff.mpr (.done h))

/-- **The rule for the parser**: what its steps hand on from the end to the beginning holds of the
run. -/
theorem run_rule {R : Bool → Parser → EStateM.Result Failure Parser Unit → Prop}
    (done : ∀ {p}, p.states = [] → R true p (.ok () p))
    (begun : ∀ {p b p' r}, Begun p b p' → R (!b) p' r → R false p r)
    (evaluated : ∀ {p b p' r}, Evaluated p (.inl b) p' → R b p' r → R true p r)
    (beginError : ∀ {p e p'}, beginValue p = .error e p' → R false p (.error e p'))
    (evaluateError : ∀ {p e p'}, evaluate p = .error e p' → R true p (.error e p'))
    (b : Bool) (p : Parser) : R b p (parserLoop.run b p) := by
  have hdone : ∀ {p a p'}, evaluate p = .ok (.inr a) p' → R true p (.ok a p') := fun h => by
    cases evaluate_eq_ok_iff.mp h with
    | done hstates => exact done hstates
  refine Loop.run_induction ?_ ?_ ?_ b p
  · intro b p a p' h
    change parserBody b p = _ at h
    simp only [parserBody, branch_eq_iff, seq_ok_iff, return_eq_ok_iff, reduceCtorEq,
      false_and, and_false, false_or] at h
    rcases h with ⟨rfl, h⟩ | ⟨hb, b', q, hbegin, hb', h⟩
    · exact hdone h
    · rw [Bool.not_eq_true] at hb hb'
      subst hb hb'
      exact begun (beginValue_eq_ok_iff.mp hbegin) (hdone h)
  · intro b p e p' h
    change parserBody b p = _ at h
    simp only [parserBody, branch_eq_iff, seq_error_iff, return_ne_error, and_false,
      false_or] at h
    rcases h with ⟨rfl, h⟩ | ⟨hb, h | ⟨b', q, hbegin, hb', h⟩⟩
    · exact evaluateError h
    · rw [Bool.not_eq_true] at hb
      exact hb ▸ beginError h
    · rw [Bool.not_eq_true] at hb hb'
      subst hb hb'
      exact begun (beginValue_eq_ok_iff.mp hbegin) (evaluateError h)
  · intro b p b' p' r h hr
    change parserBody b p = _ at h
    simp only [parserBody, branch_eq_iff, seq_ok_iff, return_eq_ok_iff, Sum.inl.injEq] at h
    rcases h with ⟨rfl, h⟩ | ⟨hb, b'', q, hbegin, ⟨rfl, rfl, rfl⟩ | ⟨hb', h⟩⟩
    · exact evaluated (evaluate_eq_ok_iff.mp h) hr
    · rw [Bool.not_eq_true] at hb
      subst hb
      exact begun (beginValue_eq_ok_iff.mp hbegin) hr
    · rw [Bool.not_eq_true] at hb hb'
      subst hb hb'
      exact begun (beginValue_eq_ok_iff.mp hbegin) (evaluated (evaluate_eq_ok_iff.mp h) hr)

/-! ## Reading a value -/

/-- A new lexer. -/
def Lexer.new (text : Str) : Lexer := { input := { ia := text } }

/-- A new parser has read the first token. -/
def Parser.start (text : Str) : Parser := Parser.next { lexer := .new text }

/-- `parse`, not strict. -/
def parse (text : Str) : Except Failure Json :=
  match parserLoop.run false (.start text) with
  | .ok _ p => .ok p.dom.root
  | .error e _ => .error e

/-- `operator>>` from a stream with this text, with the texts of the exceptions. -/
def parseJson (text : Str) : Except Str Json :=
  match parse text with
  | .ok j => .ok j
  | .error (.thrown what) => .error what
  | .error .assertion => .error []

/-- What is read does not depend on the texts of the exceptions. -/
lemma parseJson_ok_iff {text : Str} {v : Json} : parseJson text = .ok v ↔ parse text = .ok v := by
  unfold parseJson
  cases parse text with
  | ok w => simp
  | error e => cases e <;> simp

end Nlohmann
