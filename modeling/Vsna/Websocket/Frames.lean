import Mathlib.Data.List.Basic
import Mathlib.Data.List.Infix

set_option relaxedAutoImplicit false
set_option autoImplicit false

/-!
# Messages and their frames

A websocket message travels as a sequence of data frames, the last of which carries the `fin`
bit. The kind of the message, text or binary, is that of its first frame; later frames are
continuations. A reader who takes frames from a connection in order holds the complete messages
so far and possibly the beginning of one more (`Websocket.assemble`).

Everything is generic in the type `β` of bytes.

## Main definitions

* `Websocket.Message`, `Websocket.Frame` — a message, and one data frame of it.
* `Websocket.Assembly`, `Websocket.assemble` — what a reader has assembled from a list of frames.

## Main results

* `Websocket.prefix_assemble_complete` — more frames only add messages at the end.
* `Websocket.assemble_snoc_fin`, `Websocket.assemble_snoc_more` — the effect of the next frame.
-/

namespace Websocket

/-- A websocket message: its kind (`text`, or else binary) and its bytes. -/
structure Message (β : Type*) where
  /-- Text (`true`) or binary (`false`). -/
  text : Bool
  /-- The payload of the whole message. -/
  data : List β
  deriving DecidableEq

/-- A data frame. The kind counts only on the first frame of a message. -/
structure Frame (β : Type*) where
  /-- Is this the last frame of its message? -/
  fin : Bool
  /-- Text (`true`) or binary (`false`). -/
  text : Bool
  /-- The bytes this frame adds to its message. -/
  payload : List β
  deriving DecidableEq

/-- What a reader has assembled: the complete messages, and the message it is in the middle of. -/
structure Assembly (β : Type*) where
  /-- The messages received in full, in order. -/
  complete : List (Message β)
  /-- The message some frames of which have been received, but not yet the last. -/
  current : Option (Message β)
  deriving DecidableEq

variable {β : Type*}

/-- The message in progress once the frame `f` is added to it. -/
def Frame.extend (f : Frame β) : Option (Message β) → Message β
  | none => ⟨f.text, f.payload⟩
  | some m => ⟨m.text, m.data ++ f.payload⟩

/-- Take one more frame. -/
def Assembly.feed (a : Assembly β) (f : Frame β) : Assembly β :=
  if f.fin then ⟨a.complete ++ [f.extend a.current], none⟩
  else ⟨a.complete, some (f.extend a.current)⟩

/-- The messages carried by a list of frames. -/
def assemble (fs : List (Frame β)) : Assembly β := fs.foldl Assembly.feed ⟨[], none⟩

/-- No frames carry no message. -/
@[simp] lemma assemble_nil : assemble ([] : List (Frame β)) = ⟨[], none⟩ := rfl

/-- One more frame is fed to the assembly so far. -/
lemma assemble_snoc (fs : List (Frame β)) (f : Frame β) :
    assemble (fs ++ [f]) = (assemble fs).feed f := by
  simp [assemble, List.foldl_append]

/-- A final frame completes the message in progress. -/
lemma assemble_snoc_fin (fs : List (Frame β)) {f : Frame β} (hf : f.fin = true) :
    assemble (fs ++ [f]) =
      ⟨(assemble fs).complete ++ [f.extend (assemble fs).current], none⟩ := by
  rw [assemble_snoc, Assembly.feed, if_pos hf]

/-- A frame that is not final extends the message in progress. -/
lemma assemble_snoc_more (fs : List (Frame β)) {f : Frame β} (hf : f.fin = false) :
    assemble (fs ++ [f]) =
      ⟨(assemble fs).complete, some (f.extend (assemble fs).current)⟩ := by
  rw [assemble_snoc, Assembly.feed, if_neg (by simp [hf])]

/-- Feeding a frame only adds messages at the end. -/
lemma Assembly.complete_prefix_feed (a : Assembly β) (f : Frame β) :
    a.complete <+: (a.feed f).complete := by
  unfold Assembly.feed
  split_ifs
  · exact List.prefix_append _ _
  · exact List.prefix_rfl

/-- More frames only add messages at the end. -/
lemma prefix_assemble_complete {fs gs : List (Frame β)} (h : fs <+: gs) :
    (assemble fs).complete <+: (assemble gs).complete := by
  obtain ⟨ts, rfl⟩ := h
  induction ts using List.reverseRecOn with
  | nil => simp
  | append_singleton ts t ih =>
    rw [← List.append_assoc, assemble_snoc]
    exact ih.trans (Assembly.complete_prefix_feed _ t)

end Websocket
