import Vsna.Automata.Loop
import Vsna.Text.Stream

set_option relaxedAutoImplicit false
set_option autoImplicit false

/-!
# The lexer of the JSON library

The class `lexer` of `common/libs/json.hpp`, which reads tokens from a stream of characters. It
looks one character ahead at the end of a number, and puts it back.

A function that may return `parse_error` is a computation that throws its message; the lexer is
then left where it stopped. The locale is the classic one, and comments are not ignored.

## Main definitions

* `Nlohmann.TokenType`, `Nlohmann.Position`, `Nlohmann.Lexer` — the class and its parts.
* `Nlohmann.Lexer.pending` — the characters that are still to be read.
* `Nlohmann.get`, `Nlohmann.unget`, `Nlohmann.add`, `Nlohmann.reset` — the input.
* `Nlohmann.scanString`, `Nlohmann.scanNumber`, `Nlohmann.scanLiteral` — the tokens that have
  several characters.
* `Nlohmann.Lexer.scan` — `scan`.
* `Nlohmann.Stable` — an invariant of the input.

## Main results

* `Nlohmann.Lexer.pending_advance`, `Nlohmann.Lexer.pending_retreat` — what `get` and `unget` do to
  the characters that are still to be read.
* `Nlohmann.keeps_scanToken` — reading a token keeps every invariant of the input.
-/

namespace Nlohmann

open Text Automata

/-! ## Tokens -/

/-- `token_type`. -/
inductive TokenType
  | uninitialized
  | literalTrue
  | literalFalse
  | literalNull
  | valueString
  | valueUnsigned
  | valueInteger
  | valueFloat
  | beginArray
  | beginObject
  | endArray
  | endObject
  | nameSeparator
  | valueSeparator
  | parseError
  | endOfInput
  | literalOrValue
  deriving DecidableEq

/-- `token_type_name`. -/
def TokenType.name : TokenType → Str
  | .uninitialized => "<uninitialized>"
  | .literalTrue => "true literal"
  | .literalFalse => "false literal"
  | .literalNull => "null literal"
  | .valueString => "string literal"
  | .valueUnsigned | .valueInteger | .valueFloat => "number literal"
  | .beginArray => "'['"
  | .beginObject => "'\x7b'"
  | .endArray => "']'"
  | .endObject => "'\x7d'"
  | .nameSeparator => "':'"
  | .valueSeparator => "','"
  | .parseError => "<parse error>"
  | .endOfInput => "end of input"
  | .literalOrValue => "'[', '\x7b', or a literal"

/-! ## The input -/

/-- The input adapter, and the character read last. The end of the input is read as `none`. -/
structure Input where
  /-- The characters that are still in the adapter. -/
  ia : Str
  current : Option UInt8 := none
  nextUnget : Bool := false
  /-- The end of the input is put back only where it has been found. -/
  ended : nextUnget = true → current = none → ia = [] := by simp

namespace Input

/-- The characters that are still to be read. -/
def pending (i : Input) : Str := if i.nextUnget then i.current.toList ++ i.ia else i.ia

/-- `get` takes a character from the adapter, unless one has been put back. -/
def advance (i : Input) : Input where
  ia := if i.nextUnget then i.ia else i.ia.tail
  current := if i.nextUnget then i.current else i.ia.head?

/-- `unget`. An adapter at whose end the input has been found to end is empty. -/
def retreat (i : Input) : Input where
  ia := if i.current = none then [] else i.ia
  current := i.current
  nextUnget := true
  ended := by simp +contextual

/-- `get` reads the first character that is pending. -/
@[simp] lemma current_advance (i : Input) : i.advance.current = i.pending.head? := by
  obtain ⟨ia, current, nextUnget, ended⟩ := i
  cases nextUnget with
  | false => rfl
  | true =>
    cases current with
    | none => simp [advance, pending, ended rfl rfl]
    | some c => rfl

/-- `get` leaves the other characters pending. -/
@[simp] lemma pending_advance (i : Input) : i.advance.pending = i.pending.tail := by
  obtain ⟨ia, current, nextUnget, ended⟩ := i
  cases nextUnget with
  | false => rfl
  | true =>
    cases current with
    | none => simp [advance, pending, ended rfl rfl]
    | some c => rfl

/-- After `get`, `unget` puts the character back. -/
@[simp] lemma pending_retreat_advance (i : Input) :
    i.advance.retreat.pending = i.pending := by
  have hcurrent := current_advance i
  have hpending := pending_advance i
  cases hp : i.pending with
  | nil => simp_all [retreat, pending]
  | cons c s => simp_all [retreat, pending, advance]

end Input

/-! ## Positions -/

/-- `position_t`. -/
structure Position where
  /-- `chars_read_total`. -/
  charsReadTotal : ℕ := 0
  /-- `chars_read_current_line`. -/
  charsReadCurrentLine : ℕ := 0
  /-- `lines_read`. -/
  linesRead : ℕ := 0
  deriving DecidableEq

/-- The position after `get` has read a character. -/
def Position.advance (p : Position) (current : Option UInt8) : Position where
  charsReadTotal := p.charsReadTotal + 1
  charsReadCurrentLine := if current = some newline then 0 else p.charsReadCurrentLine + 1
  linesRead := if current = some newline then p.linesRead + 1 else p.linesRead

/-- The position after `unget`. -/
def Position.retreat (p : Position) : Position where
  charsReadTotal := p.charsReadTotal - 1
  charsReadCurrentLine := p.charsReadCurrentLine - 1
  linesRead := if p.charsReadCurrentLine = 0 then p.linesRead - 1 else p.linesRead

/-! ## The lexer -/

/-- The lexer. -/
structure Lexer where
  input : Input
  position : Position := {}
  tokenString : Str := []
  tokenBuffer : Str := []
  errorMessage : Str := []

/-- A function of the lexer; it throws the message of a parse error. -/
abbrev Scan := EStateM Str Lexer

/-- The lexer after `get`. -/
def Lexer.advance (l : Lexer) : Lexer :=
  { l with
    input := l.input.advance
    position := l.position.advance l.input.advance.current
    tokenString := l.tokenString ++ l.input.advance.current.toList }

/-- The lexer after `unget`. -/
def Lexer.retreat (l : Lexer) : Lexer :=
  { l with
    input := l.input.retreat
    position := l.position.retreat
    tokenString := if l.input.current = none then l.tokenString else l.tokenString.dropLast }

/-- The current character. -/
def current : Scan (Option UInt8) := fun l => .ok l.input.current l

/-- `get`. -/
def get : Scan (Option UInt8) := fun l => .ok l.advance.input.current l.advance

/-- `unget`. -/
def unget : Scan Unit := modify Lexer.retreat

/-- `add`. The end of the input is never added. -/
def add (c : UInt8) : Scan Unit := modify fun l => { l with tokenBuffer := l.tokenBuffer ++ [c] }

/-- `add(current)`. -/
def addCurrent : Scan Unit := modify fun l =>
  { l with tokenBuffer := l.tokenBuffer ++ l.input.current.toList }

/-- Setting `error_message` and returning `parse_error`. -/
def fail {α : Type} (message : Str) : Scan α := throw message

/-- `reset`: the current character is the beginning of the token. -/
def reset : Scan Unit := modify fun l =>
  { l with tokenBuffer := [], tokenString := l.input.current.toList }

/-! ## Invariants of the input -/

/-- An invariant of a lexer that its operations on the input keep. It may speak of the input and of
the position. -/
structure Stable (I : Lexer → Prop) : Prop where
  advance : ∀ l, I l → I l.advance
  retreat : ∀ l, I l → I l.advance.retreat
  write : ∀ l string buffer, I l → I { l with tokenString := string, tokenBuffer := buffer }

variable {I : Lexer → Prop}

/-- Looking at the current character. -/
lemma keeps_current : Keeps I current := fun _ h => h

/-- Failing leaves the lexer as it is. -/
lemma keeps_fail {α : Type} (message : Str) : Keeps I (fail message : Scan α) := fun _ h => h

/-- Reading a character. -/
lemma keeps_get (hI : Stable I) : Keeps I get := hI.advance

/-- Adding a character. -/
lemma keeps_add (hI : Stable I) (c : UInt8) : Keeps I (add c) :=
  fun l h => hI.write l l.tokenString _ h

/-- Adding the current character. -/
lemma keeps_addCurrent (hI : Stable I) : Keeps I addCurrent :=
  fun l h => hI.write l l.tokenString _ h

/-- Beginning a token. -/
lemma keeps_reset (hI : Stable I) : Keeps I reset := fun l h => hI.write l _ [] h

/-- Adding several characters. -/
lemma keeps_forM_add (hI : Stable I) (s : Str) : Keeps I (s.forM add) := by
  induction s with
  | nil => exact keeps_pure _
  | cons c s ih => exact keeps_bind ((keeps_add hI) c) fun _ => ih

/-- No more than `n` characters are left. -/
def AtMost (n : ℕ) (l : Lexer) : Prop := l.input.pending.length ≤ n

/-- Reading on leaves no more characters. -/
lemma stable_atMost (n : ℕ) : Stable (AtMost n) where
  advance l h := by
    have : l.input.pending.tail.length ≤ n := by simp [AtMost] at h ⊢; omega
    simpa [AtMost, Lexer.advance] using this
  retreat l h := by simpa [AtMost, Lexer.advance, Lexer.retreat] using h
  write _ _ _ h := h

/-! ## Strings -/

/-- The value of a hexadecimal digit. -/
def hexDigit (c : UInt8) : Option ℕ :=
  if 48 ≤ c ∧ c ≤ 57 then some (c.toNat - 0x30)
  else if 65 ≤ c ∧ c ≤ 70 then some (c.toNat - 0x37)
  else if 97 ≤ c ∧ c ≤ 102 then some (c.toNat - 0x57)
  else none

/-- The loop of `get_codepoint`: a digit of the code point, with the message that the callers set
if there is none. -/
def codepointDigit (codepoint factor : ℕ) : Scan ℕ := do
  match (← get).bind hexDigit with
  | some d => return codepoint + d <<< factor
  | none => fail "invalid string: '\\u' must be followed by 4 hex digits"

/-- `get_codepoint`. -/
def getCodepoint : Scan ℕ := [12, 8, 4, 0].foldlM codepointDigit 0

/-- Reading four digits. -/
lemma keeps_getCodepoint (hI : Stable I) : Keeps I getCodepoint := by
  unfold getCodepoint
  generalize 0 = codepoint, [12, 8, 4, 0] = factors
  induction factors generalizing codepoint with
  | nil => exact keeps_pure _
  | cons factor factors ih =>
    refine keeps_bind (keeps_bind (keeps_get hI) fun c => ?_) ih
    cases c.bind hexDigit with
    | some d => exact keeps_pure _
    | none => exact keeps_fail _

/-- The bytes of a code point. -/
def encode (codepoint : ℕ) : Str :=
  if codepoint < 0x80 then [.ofNat codepoint]
  else if codepoint ≤ 0x7FF then
    [.ofNat (0xC0 ||| codepoint >>> 6), .ofNat (0x80 ||| codepoint &&& 0x3F)]
  else if codepoint ≤ 0xFFFF then
    [.ofNat (0xE0 ||| codepoint >>> 12), .ofNat (0x80 ||| codepoint >>> 6 &&& 0x3F),
      .ofNat (0x80 ||| codepoint &&& 0x3F)]
  else
    [.ofNat (0xF0 ||| codepoint >>> 18), .ofNat (0x80 ||| codepoint >>> 12 &&& 0x3F),
      .ofNat (0x80 ||| codepoint >>> 6 &&& 0x3F), .ofNat (0x80 ||| codepoint &&& 0x3F)]

/-- Whether the next two characters begin an escape of a code point: `get() == '\\' &&
get() == 'u'`. -/
def getUnicodeEscape : Scan Bool := do
  if (← get) = some 92 then return (← get) = some 117
  else return false

/-- After a high surrogate, and the beginning of another escape. -/
def scanLowSurrogate (codepoint1 : ℕ) : Scan Unit := do
  let codepoint2 ← getCodepoint
  if 0xDC00 ≤ codepoint2 ∧ codepoint2 ≤ 0xDFFF then
    (encode (codepoint1 <<< 10 + codepoint2 - 0x35FDC00)).forM add
  else fail "invalid string: surrogate U+D800..U+DBFF must be followed by U+DC00..U+DFFF"

/-- After a high surrogate. -/
def scanSurrogate (codepoint1 : ℕ) : Scan Unit := do
  if ← getUnicodeEscape then scanLowSurrogate codepoint1
  else fail "invalid string: surrogate U+D800..U+DBFF must be followed by U+DC00..U+DFFF"

/-- After the digits of an escape. -/
def scanCodepoint (codepoint1 : ℕ) : Scan Unit := do
  if 0xD800 ≤ codepoint1 ∧ codepoint1 ≤ 0xDBFF then scanSurrogate codepoint1
  else if 0xDC00 ≤ codepoint1 ∧ codepoint1 ≤ 0xDFFF then
    fail "invalid string: surrogate U+DC00..U+DFFF must follow U+D800..U+DBFF"
  else (encode codepoint1).forM add

/-- The escape of a code point, after its `u`. -/
def scanUnicode : Scan Unit := do
  scanCodepoint (← getCodepoint)

/-- Reading the escape of a code point. -/
lemma keeps_scanUnicode (hI : Stable I) : Keeps I scanUnicode := by
  have hescape : Keeps I getUnicodeEscape := keeps_bind (keeps_get hI) fun _ =>
    keeps_ite (keeps_bind (keeps_get hI) fun _ => keeps_pure _) (keeps_pure _)
  refine keeps_bind (keeps_getCodepoint hI) fun codepoint1 =>
    keeps_ite ?_ (keeps_ite (keeps_fail _) (keeps_forM_add hI _))
  refine keeps_bind hescape fun found => keeps_ite ?_ (keeps_fail _)
  exact keeps_bind (keeps_getCodepoint hI) fun codepoint2 =>
    keeps_ite (keeps_forM_add hI _) (keeps_fail _)

/-- What an escape of one character stands for. -/
def escaped (c : UInt8) : Option UInt8 :=
  if c = 34 then some 34
  else if c = 92 then some 92
  else if c = 47 then some 47
  else if c = 98 then some 8
  else if c = 102 then some 12
  else if c = 110 then some 10
  else if c = 114 then some 13
  else if c = 116 then some 9
  else none

/-- An escape, after its backslash. -/
def scanEscape : Scan Unit := do
  let c ← get
  if c = some 117 then scanUnicode
  else
    match c.bind escaped with
    | some d => add d
    | none => fail "invalid string: forbidden character after backslash"

/-- Reading an escape. -/
lemma keeps_scanEscape (hI : Stable I) : Keeps I scanEscape := by
  refine keeps_bind (keeps_get hI) fun c => keeps_ite (keeps_scanUnicode hI) ?_
  cases c.bind escaped with
  | some d => exact (keeps_add hI) d
  | none => exact keeps_fail _

/-- The names of the control characters. -/
def controlNames : List Str :=
  ["NUL", "SOH", "STX", "ETX", "EOT", "ENQ", "ACK", "BEL", "BS", "HT", "LF", "VT", "FF", "CR",
    "SO", "SI", "DLE", "DC1", "DC2", "DC3", "DC4", "NAK", "SYN", "ETB", "CAN", "EM", "SUB", "ESC",
    "FS", "GS", "RS", "US"]

/-- A hexadecimal digit, in upper case. -/
def hexChar (n : ℕ) : UInt8 := .ofNat (if n < 10 then 48 + n else 55 + n)

/-- A byte as two hexadecimal digits. -/
def hexByte (c : UInt8) : Str := [hexChar (c.toNat / 16), hexChar (c.toNat % 16)]

/-- The escape of one character that a control character has. -/
def shortEscape (c : UInt8) : Str :=
  if c = 8 then " or \\b"
  else if c = 9 then " or \\t"
  else if c = 10 then " or \\n"
  else if c = 12 then " or \\f"
  else if c = 13 then " or \\r"
  else ""

/-- The message about a control character in a string. -/
def controlMessage (c : UInt8) : Str :=
  "invalid string: control character U+00" ++ hexByte c ++ " (" ++
    controlNames.getD c.toNat [] ++ ") must be escaped to \\u00" ++ hexByte c ++ shortEscape c

/-- The ranges of the bytes that follow the first byte of a character with several. -/
def followRanges (c : UInt8) : Option (List (UInt8 × UInt8)) :=
  if 0xC2 ≤ c ∧ c ≤ 0xDF then some [(0x80, 0xBF)]
  else if c = 0xE0 then some [(0xA0, 0xBF), (0x80, 0xBF)]
  else if 0xE1 ≤ c ∧ c ≤ 0xEC ∨ c = 0xEE ∨ c = 0xEF then some [(0x80, 0xBF), (0x80, 0xBF)]
  else if c = 0xED then some [(0x80, 0x9F), (0x80, 0xBF)]
  else if c = 0xF0 then some [(0x90, 0xBF), (0x80, 0xBF), (0x80, 0xBF)]
  else if 0xF1 ≤ c ∧ c ≤ 0xF3 then some [(0x80, 0xBF), (0x80, 0xBF), (0x80, 0xBF)]
  else if c = 0xF4 then some [(0x80, 0x8F), (0x80, 0xBF), (0x80, 0xBF)]
  else none

/-- The loop of `next_byte_in_range`: a byte in a range. -/
def byteInRange (range : UInt8 × UInt8) : Scan Unit := do
  match ← get with
  | some c =>
    if range.1 ≤ c ∧ c ≤ range.2 then add c
    else fail "invalid string: ill-formed UTF-8 byte"
  | none => fail "invalid string: ill-formed UTF-8 byte"

/-- `next_byte_in_range`, with the current byte `c`. -/
def nextByteInRange (c : UInt8) (ranges : List (UInt8 × UInt8)) : Scan Unit := do
  add c
  ranges.forM byteInRange

/-- Reading the rest of a character. -/
lemma keeps_nextByteInRange (hI : Stable I) (c : UInt8) (ranges : List (UInt8 × UInt8)) :
    Keeps I (nextByteInRange c ranges) := by
  refine keeps_bind ((keeps_add hI) c) fun _ => ?_
  induction ranges with
  | nil => exact keeps_pure _
  | cons range ranges ih =>
    refine keeps_bind (keeps_bind (keeps_get hI) fun c => ?_) fun _ => ih
    cases c with
    | none => exact keeps_fail _
    | some c => exact keeps_ite ((keeps_add hI) c) (keeps_fail _)

/-- The loop of `scan_string`, after the next character has been read: its cases. -/
def scanStringCase (c : UInt8) : Scan (Unit ⊕ TokenType) := do
  if c = 34 then return .inr .valueString
  else if c = 92 then do scanEscape; return .inl ()
  else if c < 0x20 then fail (controlMessage c)
  else if c < 0x80 then do add c; return .inl ()
  else
    match followRanges c with
    | some ranges => do nextByteInRange c ranges; return .inl ()
    | none => fail "invalid string: ill-formed UTF-8 byte"

/-- The body of the loop of `scan_string`. -/
def scanStringBody : Scan (Unit ⊕ TokenType) := do
  match ← get with
  | none => fail "invalid string: missing closing quote"
  | some c => scanStringCase c

/-- Reading a character of a string, after its first byte. -/
lemma keeps_scanStringCase (hI : Stable I) (c : UInt8) : Keeps I (scanStringCase c) := by
  refine keeps_ite (keeps_pure _) (keeps_ite ?_ (keeps_ite (keeps_fail _) (keeps_ite ?_ ?_)))
  · exact keeps_bind (keeps_scanEscape hI) fun _ => keeps_pure _
  · exact keeps_bind (keeps_add hI c) fun _ => keeps_pure _
  · cases followRanges c with
    | none => exact keeps_fail _
    | some ranges => exact keeps_bind (keeps_nextByteInRange hI c ranges) fun _ => keeps_pure _

/-- Reading a character of a string. -/
lemma keeps_scanStringBody (hI : Stable I) : Keeps I scanStringBody := by
  refine keeps_bind (keeps_get hI) fun c => ?_
  cases c with
  | none => exact keeps_fail _
  | some c => exact keeps_scanStringCase hI c

/-- A computation that begins with a `get`. -/
lemma get_bind {α : Type} (f : Option UInt8 → Scan α) (l : Lexer) :
    (get >>= f) l = f l.input.pending.head? l.advance := by
  rw [← Input.current_advance]
  rfl

/-- After a character has been read, fewer are left. -/
lemma length_lt_of_get {α : Type} {f : Option UInt8 → Scan α} {l : Lexer}
    {r : EStateM.Result Str Lexer α} (h : (get >>= f) l = r) (hsome : l.input.pending ≠ [])
    (hf : ∀ c, Keeps (AtMost l.input.pending.tail.length) (f c)) :
    (after r).input.pending.length < l.input.pending.length := by
  rw [get_bind] at h
  have hle : AtMost l.input.pending.tail.length l.advance := by
    simp [AtMost, Lexer.advance]
  have := hf l.input.pending.head? _ hle
  rw [h] at this
  have hpos := List.length_pos_iff.mpr hsome
  simp only [AtMost, List.length_tail] at this
  omega

/-- The loop of `scan_string`. -/
def stringLoop : Loop Str Lexer Unit TokenType where
  body _ := scanStringBody
  measure _ l := l.input.pending.length
  decreases {_ l _ l'} h := by
    refine length_lt_of_get h (fun hnil => ?_) fun c => ?_
    · rw [scanStringBody, get_bind, hnil] at h
      cases h
    · cases c with
      | none => exact keeps_fail _
      | some c => exact keeps_scanStringCase (stable_atMost _) c

/-- `scan_string`. -/
def scanString : Scan TokenType := do
  reset
  stringLoop.run ()

/-- Reading a string. -/
lemma keeps_scanString (hI : Stable I) : Keeps I scanString :=
  keeps_bind (keeps_reset hI) fun _ => Loop.keeps_run (fun _ => keeps_scanStringBody hI) _

/-! ## Numbers -/

/-- The digits but `0`. -/
def isNonzeroDigit (c : UInt8) : Bool := 49 ≤ c && c ≤ 57

/-- The states of `scan_number`, by the labels of the code. -/
inductive NumberState
  | minus
  | zero
  | any1
  | decimal1
  | decimal2
  | exponent
  | sign
  | any2
  deriving DecidableEq

/-- What a state makes of the next character: the state in which it is added to the number, `none`
if the number has ended before it, or the message about it. -/
def NumberState.next : NumberState → Option UInt8 → Except Str (Option NumberState)
  | .minus, c =>
    if c = some 48 then .ok (some .zero)
    else if c.any isNonzeroDigit then .ok (some .any1)
    else .error "invalid number; expected digit after '-'"
  | .zero, c =>
    if c = some 46 then .ok (some .decimal1)
    else if c = some 101 ∨ c = some 69 then .ok (some .exponent)
    else .ok none
  | .any1, c =>
    if c.any isDigit then .ok (some .any1)
    else if c = some 46 then .ok (some .decimal1)
    else if c = some 101 ∨ c = some 69 then .ok (some .exponent)
    else .ok none
  | .decimal1, c =>
    if c.any isDigit then .ok (some .decimal2)
    else .error "invalid number; expected digit after '.'"
  | .decimal2, c =>
    if c.any isDigit then .ok (some .decimal2)
    else if c = some 101 ∨ c = some 69 then .ok (some .exponent)
    else .ok none
  | .exponent, c =>
    if c = some 43 ∨ c = some 45 then .ok (some .sign)
    else if c.any isDigit then .ok (some .any2)
    else .error "invalid number; expected '+', '-', or digit after exponent"
  | .sign, c =>
    if c.any isDigit then .ok (some .any2)
    else .error "invalid number; expected digit after exponent sign"
  | .any2, c =>
    if c.any isDigit then .ok (some .any2)
    else .ok none

/-- What the label of a state does to the type of the number. -/
def NumberState.retype : NumberState → TokenType → TokenType
  | .minus, _ => .valueInteger
  | .decimal1, _ | .exponent, _ => .valueFloat
  | _, type => type

/-- The type of a number that has been read: an integer that does not fit is a float. -/
def convert (type : TokenType) (number : Str) : TokenType :=
  match type with
  | .valueUnsigned => if digitsVal number < 2 ^ 64 then .valueUnsigned else .valueFloat
  | .valueInteger => if digitsVal number.tail ≤ 2 ^ 63 then .valueInteger else .valueFloat
  | _ => .valueFloat

/-- The digits of a numeral as one number, and the power of ten that it is multiplied by. -/
def decimalParts (number : Str) : ℕ × ℤ :=
  let s := if number.head? = some 45 then number.tail else number
  let int := s.takeWhile isDigit
  let s := s.dropWhile isDigit
  let frac := if s.head? = some 46 then s.tail.takeWhile isDigit else []
  let s := if s.head? = some 46 then s.tail.dropWhile isDigit else s
  let exp := digitsVal (s.tail.dropWhile (! isDigit ·))
  (digitsVal (int ++ frac), (if s.tail.head? = some 45 then -(exp : ℤ) else exp) - frac.length)

/-- `std::strtod` gives no finite number: the numeral is at least half a unit in the last place
above the greatest finite number. -/
def Overflows (number : Str) : Prop :=
  (2 ^ 1024 - 2 ^ 970) * 10 ^ (-(decimalParts number).2).toNat ≤
    (decimalParts number).1 * 10 ^ (decimalParts number).2.toNat

instance (number : Str) : Decidable (Overflows number) := inferInstanceAs (Decidable (_ ≤ _))

/-- The body of a state of `scan_number`, with the type of the number so far. -/
def scanNumberBody (v : NumberState × TokenType) :
    Scan ((NumberState × TokenType) ⊕ TokenType) := do
  match v.1.next (← get) with
  | .error message => fail message
  | .ok (some q) => do addCurrent; return .inl (q, q.retype v.2)
  | .ok none => do unget; return .inr (convert v.2 (← getThe Lexer).tokenBuffer)

/-- A number does not go on at the end of the input. -/
lemma NumberState.next_none (q q' : NumberState) : q.next none ≠ .ok (some q') := by
  cases q <;> simp [next]

/-- What the body does, by the state and the next character. -/
lemma scanNumberBody_apply (v : NumberState × TokenType) (l : Lexer) :
    scanNumberBody v l =
      match v.1.next l.input.pending.head? with
      | .error message => .error message l.advance
      | .ok (some q) => .ok (.inl (q, q.retype v.2))
          { l.advance with tokenBuffer := l.tokenBuffer ++ l.input.pending.head?.toList }
      | .ok none => .ok (.inr (convert v.2 l.tokenBuffer)) l.advance.retreat := by
  rw [scanNumberBody, get_bind, ← Input.current_advance]
  cases v.1.next l.input.advance.current with
  | error message => rfl
  | ok q => cases q <;> rfl

/-- Reading a character of a number. -/
lemma keeps_scanNumberBody (hI : Stable I) (v : NumberState × TokenType) :
    Keeps I (scanNumberBody v) := by
  intro l h
  rw [scanNumberBody_apply]
  cases v.1.next l.input.pending.head? with
  | error message => exact hI.advance l h
  | ok q =>
    cases q with
    | some q => exact hI.write _ l.advance.tokenString _ (hI.advance l h)
    | none => exact hI.retreat l h

/-- The states of `scan_number`. -/
def numberLoop : Loop Str Lexer (NumberState × TokenType) TokenType where
  body := scanNumberBody
  measure _ l := l.input.pending.length
  decreases {v l v' l'} h := by
    rw [scanNumberBody_apply] at h
    cases hq : v.1.next l.input.pending.head? with
    | error message => simp [hq] at h
    | ok q =>
      cases q with
      | none => simp [hq] at h
      | some q =>
        simp only [hq, EStateM.Result.ok.injEq] at h
        rw [← h.2]
        cases hp : l.input.pending with
        | nil => exact absurd hq (by simpa [hp] using NumberState.next_none _ _)
        | cons c s => simp [Lexer.advance, hp]

/-- `scan_number`. -/
def scanNumber : Scan TokenType := do
  reset
  addCurrent
  let c ← current
  if c = some 45 then numberLoop.run (.minus, .valueInteger)
  else if c = some 48 then numberLoop.run (.zero, .valueUnsigned)
  else numberLoop.run (.any1, .valueUnsigned)

/-- Reading a number. -/
lemma keeps_scanNumber (hI : Stable I) : Keeps I scanNumber := by
  have hloop : ∀ v, Keeps I (numberLoop.run v) := Loop.keeps_run (keeps_scanNumberBody hI)
  exact keeps_bind (keeps_reset hI) fun _ => keeps_bind (keeps_addCurrent hI) fun _ =>
    keeps_bind keeps_current fun _ => keeps_ite (hloop _) (keeps_ite (hloop _) (hloop _))

/-! ## Tokens -/

/-- The loop of `scan_literal`: a character of the literal. -/
def expect (c : UInt8) : Scan Unit := do
  if (← get) = some c then return ()
  else fail "invalid literal"

/-- `scan_literal`, after the first character. -/
def scanLiteral (text : Str) (type : TokenType) : Scan TokenType := do
  text.tail.forM expect
  return type

/-- Reading a literal. -/
lemma keeps_scanLiteral (hI : Stable I) (text : Str) (type : TokenType) :
    Keeps I (scanLiteral text type) := by
  refine keeps_bind ?_ fun _ => keeps_pure _
  induction text.tail with
  | nil => exact keeps_pure _
  | cons c text ih =>
    exact keeps_bind (keeps_bind (keeps_get hI) fun _ => keeps_ite (keeps_pure _) (keeps_fail _))
      fun _ => ih

/-- `skip_bom`. -/
def skipBom : Scan Bool := do
  if (← get) = some 0xEF then
    if (← get) = some 0xBB then return (← get) = some 0xBF
    else return false
  else
    unget
    return true

/-- Skipping the byte order mark. -/
lemma keeps_skipBom (hI : Stable I) : Keeps I skipBom := by
  intro l h
  rw [skipBom, get_bind]
  split_ifs
  · exact keeps_bind (keeps_get hI) (fun _ => keeps_ite
      (keeps_bind (keeps_get hI) fun _ => keeps_pure _) (keeps_pure _)) _ (hI.advance l h)
  · exact hI.retreat l h

/-- The white space of JSON. -/
def isBlank (c : UInt8) : Bool := c = 32 || c = 9 || c = 10 || c = 13

/-- The loop of `skip_whitespace`. -/
def blankLoop : Loop Str Lexer Unit Unit where
  body _ := do
    if (← get).any isBlank then return .inl ()
    else return .inr ()
  measure _ l := l.input.pending.length
  decreases {_ l _ l'} h := by
    refine length_lt_of_get h (fun hnil => ?_) fun c => keeps_ite (keeps_pure _) (keeps_pure _)
    rw [get_bind, hnil] at h
    cases h

/-- `skip_whitespace`. -/
def skipWhitespace : Scan Unit := blankLoop.run ()

/-- Skipping white space. -/
lemma keeps_skipWhitespace (hI : Stable I) : Keeps I skipWhitespace :=
  Loop.keeps_run (fun _ => keeps_bind (keeps_get hI) fun _ =>
    keeps_ite (keeps_pure _) (keeps_pure _)) _

/-- The token that begins with a character. -/
def scanFrom (c : UInt8) : Scan TokenType :=
  if c = 91 then return .beginArray
  else if c = 93 then return .endArray
  else if c = 123 then return .beginObject
  else if c = 125 then return .endObject
  else if c = 58 then return .nameSeparator
  else if c = 44 then return .valueSeparator
  else if c = 116 then scanLiteral "true" .literalTrue
  else if c = 102 then scanLiteral "false" .literalFalse
  else if c = 110 then scanLiteral "null" .literalNull
  else if c = 34 then scanString
  else if c = 45 || isDigit c then scanNumber
  else if c = 0 then return .endOfInput
  else fail "invalid literal"

/-- Reading the token that begins with a character. -/
lemma keeps_scanFrom (hI : Stable I) (c : UInt8) : Keeps I (scanFrom c) := by
  have hpure : ∀ type : TokenType, Keeps I (pure type : Scan TokenType) := keeps_pure
  have hliteral := keeps_scanLiteral hI
  exact keeps_ite (hpure _) (keeps_ite (hpure _) (keeps_ite (hpure _) (keeps_ite (hpure _)
    (keeps_ite (hpure _) (keeps_ite (hpure _) (keeps_ite (hliteral _ _) (keeps_ite (hliteral _ _)
    (keeps_ite (hliteral _ _) (keeps_ite (keeps_scanString hI) (keeps_ite (keeps_scanNumber hI)
    (keeps_ite (hpure _) (keeps_fail _))))))))))))

/-- Initially, `scan` skips the byte order mark. -/
def checkBom : Scan Unit := do
  if (← getThe Lexer).position.charsReadTotal = 0 then
    if ← skipBom then return ()
    else fail "invalid BOM; must be 0xEF 0xBB 0xBF if given"
  else return ()

/-- Skipping the byte order mark initially. -/
lemma keeps_checkBom (hI : Stable I) : Keeps I checkBom := by
  refine keeps_bind (fun _ h => h) fun l => keeps_ite ?_ (keeps_pure _)
  refine keeps_bind (keeps_skipBom hI) fun found => ?_
  exact keeps_ite (keeps_pure _) (keeps_fail _)

/-- `scan`, throwing the message of a parse error. -/
def scanToken : Scan TokenType := do
  checkBom
  skipWhitespace
  match ← current with
  | none => return .endOfInput
  | some c => scanFrom c

/-- **Reading a token keeps every invariant of the input.** -/
lemma keeps_scanToken (hI : Stable I) : Keeps I scanToken := by
  refine keeps_bind (keeps_checkBom hI) fun _ => keeps_bind (keeps_skipWhitespace hI) fun _ =>
    keeps_bind keeps_current fun c => ?_
  cases c with
  | none => exact keeps_pure _
  | some c => exact keeps_scanFrom hI c

/-- `scan`. -/
def Lexer.scan (l : Lexer) : TokenType × Lexer :=
  match scanToken l with
  | .ok type l => (type, l)
  | .error message l => (.parseError, { l with errorMessage := message })

end Nlohmann
