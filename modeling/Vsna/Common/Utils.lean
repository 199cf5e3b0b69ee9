import Vsna.Text.Tokens
import Vsna.Websocket.Orderly

set_option relaxedAutoImplicit false
set_option autoImplicit false

/-!
# Utilities

The functions of `common/utils.h` and `common/pch.h` that client and server share.

## Main definitions

* `Vsna.maxThreads` — `max_threads`.
* `Vsna.splitArgs` — the words of a line, by extraction from a string stream.
* `Vsna.failText`, `Websocket.Session.fail` — what `fail` prints.

## Main results

* `Vsna.splitArgs_eq` — `splitArgs` gives exactly the words of a line.
* `Vsna.splitArgs_eq_iff` — its result is the only tokenization of the line.
-/

namespace Vsna

open Text Websocket

/-- `max_threads`. -/
def maxThreads : ℕ := 4

/-- The loop of `splitArgs`. A step that succeeds takes at least one byte of the stream, so that
`fuel` is only needed to exceed what the stream holds. -/
def splitArgsLoop : ℕ → IStream → Str → List Str → List Str
  | 0, _, _, args => args
  | fuel + 1, ss, token, args =>
    let r := extract ss token
    if r.1.fail then args else splitArgsLoop fuel r.1 r.2 (args ++ [r.2])

/-- `splitArgs`. -/
def splitArgs (input : Str) : List Str :=
  splitArgsLoop (input.length + 1) ⟨input, false, false⟩ [] []

/-- The loop adds the words that the stream still holds.

**Proof sketch.** Induction on the fuel. An extraction takes the first word and leaves the others,
in fewer bytes; the stream it leaves is good unless no word is left. -/
lemma splitArgsLoop_eq {fuel : ℕ} {ss : IStream} (token : Str) (args : List Str)
    (hfuel : ss.rest.length < fuel) (hgood : ss.good = true ∨ words ss.rest = []) :
    splitArgsLoop fuel ss token args = args ++ words ss.rest := by
  induction fuel generalizing ss token args with
  | zero => omega
  | succ fuel ih =>
    rw [splitArgsLoop]
    cases hw : words ss.rest with
    | nil => simp [extract_eq_none token hw]
    | cons w ws =>
      have hg : ss.good = true := hgood.resolve_right (by simp [hw])
      obtain ⟨htok, hfail, hws, hlen, heof⟩ := extract_eq_some hg hw
      have hnext : (extract ss token).1.good = true ∨ words (extract ss token).1.rest = [] := by
        cases he : (extract ss token).1.eof with
        | true => exact Or.inr (hws.trans (heof he))
        | false => exact Or.inl (by simp [IStream.good, he, hfail])
      simp only [hfail, Bool.false_eq_true, if_false]
      rw [ih _ _ (by omega) hnext, htok, hws, List.append_assoc, List.singleton_append]

/-- **`splitArgs` gives exactly the words of a line.** -/
lemma splitArgs_eq (input : Str) : splitArgs input = words input :=
  splitArgsLoop_eq [] [] (Nat.lt_succ_self _) (Or.inl rfl)

/-- **`splitArgs` is tokenization at white space**: its result is the only list of tokens that
the line is made of, and a line that is made of tokens gives them back, however they are
spaced. -/
theorem splitArgs_eq_iff (input : Str) (args : List Str) :
    splitArgs input = args ↔ IsTokenization input args := by
  rw [splitArgs_eq]
  exact words_eq_iff

-- the last word ends at the end of the line
example : splitArgs "  send\ta.txt  b" = ["send", "a.txt", "b"] := by decide

/-- What `fail` prints about an error: nothing if the operation was aborted. -/
def failText (e : Error UInt8) (op : Str) : Option Str :=
  if e.kind = .operationAborted then none else some (op ++ ": " ++ e.message ++ "\n")

end Vsna

namespace Websocket

/-- `fail`, called by a handler of a session. -/
def Session.fail {μ : Type} (s : Session μ UInt8) (e : Error UInt8) (op : Text.Str) :
    Session μ UInt8 :=
  match Vsna.failText e op with
  | none => s
  | some text => s.cerr text

/-- A handler may call `fail`. -/
lemma Session.handled_fail {μ : Type} (s : Session μ UInt8) (e : Error UInt8) (op : Text.Str) :
    s.Handled (s.fail e op) := by
  unfold Session.fail
  split
  · exact .refl s
  · exact s.handled_note _

end Websocket
