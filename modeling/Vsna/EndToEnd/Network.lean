import Mathlib.Logic.Function.Basic
import Vsna.EndToEnd.Connection

set_option relaxedAutoImplicit false
set_option autoImplicit false

/-!
# Many connections over one network

The abstract picture of a server and its clients: client sessions under names, the sessions of the
server in the order of their creation, and for each of these which client session is at the other
end, if any of them is. A session of the server may also have a foreign peer, which sends what it
likes.

All sessions share the network, and events of all of them interleave. Nevertheless every client
session, with the session of the server it is connected to, is at every moment in a state that the
two could have reached as the only connection there is.

## Main definitions

* `Vsna.Network`, `Vsna.Network.Step`, `Vsna.Network.Reachable` — the network, and what can happen.
* `Vsna.Network.Linked` — the session at the other end.
* `Vsna.Network.Wired` — the invariant.

## Main results

* `Vsna.Network.wired_of_reachable` — every connection of a network is one of `Vsna.Connection`.
-/

namespace Vsna

open Text Websocket

/-- Client sessions with names in `α`, and the sessions of the server. -/
structure Network (α : Type) where
  clients : α → Option ClientSession
  sessions : List ServerSession
  /-- The client session that each session of the server is connected to; `none` for a foreign
  peer. -/
  peers : List (Option α)

namespace Network

variable {α : Type} {P : ClientMembers → Prop}

/-! ## Wiring -/

/-- Nothing has happened yet. -/
def empty : Network α := ⟨fun _ => none, [], []⟩

/-- The network with another state of one session of the server. -/
def setSession (N : Network α) (j : ℕ) (s : ServerSession) : Network α :=
  { N with sessions := N.sessions.set j s }

/-- One more session of the server. -/
def accept (N : Network α) (peer : Option α) (socket : Socket) : Network α :=
  { N with
    sessions := N.sessions ++ [ServerSession.program.start socket]
    peers := N.peers ++ [peer] }

/-- The session of the server that a client session is connected to, if there is one. -/
inductive Linked (N : Network α) (a : α) : Option ServerSession → Prop
  | none (h : some a ∉ N.peers) : Linked N a none
  | some {j : ℕ} {s : ServerSession} (ha : N.peers[j]? = some (some a))
      (hs : N.sessions[j]? = some s) : Linked N a (some s)

/-- The network is wired properly, and every connection is in a state that it could be in if there
were no other. -/
structure Wired (P : ClientMembers → Prop) (N : Network α) : Prop where
  length : N.peers.length = N.sessions.length
  /-- A client session is connected to at most one session of the server. -/
  unique : ∀ (i j : ℕ) (a : α), N.peers[i]? = some (some a) → N.peers[j]? = some (some a) → i = j
  exist : ∀ a, some a ∈ N.peers → (N.clients a).isSome
  members : ∀ a c, N.clients a = some c → P c.members
  connection : ∀ a c, N.clients a = some c →
    ∃ o, N.Linked a o ∧ Connection.system.Reachable ⟨c.members, c, o⟩

variable {N N' : Network α}

/-- Nothing is wired in the beginning. -/
lemma wired_empty : Wired P (empty : Network α) :=
  ⟨rfl, by simp [empty], by simp [empty], by simp [empty], by simp [empty]⟩

/-- A client session is connected to one session of the server, or to none. -/
lemma Wired.linked_unique (h : Wired P N) {a : α} {o o' : Option ServerSession}
    (ho : N.Linked a o) (ho' : N.Linked a o') : o = o' := by
  cases ho with
  | none hnone =>
    cases ho' with
    | none => rfl
    | some ha' => exact absurd (List.mem_of_getElem? ha') hnone
  | @some i s ha hs =>
    cases ho' with
    | none hnone => exact absurd (List.mem_of_getElem? ha) hnone
    | @some j s' ha' hs' =>
      obtain rfl := h.unique i j a ha ha'
      exact hs.symm.trans hs'

/-- A change of one session of the server keeps the wiring, if its connection allows it. -/
lemma Wired.setSession (h : Wired P N) {j : ℕ} {s s' : ServerSession}
    (hj : N.sessions[j]? = some s)
    (hreach : ∀ a c, N.peers[j]? = some (some a) → N.clients a = some c →
      Connection.system.Reachable ⟨c.members, c, some s⟩ →
      Connection.system.Reachable ⟨c.members, c, some s'⟩) : Wired P (N.setSession j s') := by
  have hlen : (N.setSession j s').sessions.length = N.sessions.length := List.length_set
  have hlt : j < N.sessions.length := (List.getElem?_eq_some_iff.mp hj).1
  refine ⟨h.length.trans hlen.symm, h.unique, h.exist, h.members, fun a c hc => ?_⟩
  obtain ⟨o, ho, hr⟩ := h.connection a c hc
  cases ho with
  | none hnone => exact ⟨_, .none hnone, hr⟩
  | @some i t ha ht =>
    by_cases hij : i = j
    · subst hij
      obtain rfl : s = t := Option.some.inj (hj.symm.trans ht)
      exact ⟨_, .some ha (List.getElem?_set_self hlt), hreach a c ha hc hr⟩
    · refine ⟨_, .some ha ?_, hr⟩
      rw [Network.setSession, List.getElem?_set_ne (Ne.symm hij)]
      exact ht

/-- One more session of the server keeps the wiring. -/
lemma Wired.accept (h : Wired P N) {peer : Option α}
    (hpeer : ∀ a ∈ peer, (N.clients a).isSome ∧ some a ∉ N.peers) (socket : Socket) :
    Wired P (N.accept peer socket) := by
  have hold : ∀ {i : ℕ} {a : α}, (N.accept peer socket).peers[i]? = some (some a) →
      N.peers[i]? = some (some a) ∨ i = N.peers.length ∧ peer = some a := by
    intro i a hi
    rw [Network.accept, List.getElem?_append] at hi
    split_ifs at hi with hlt
    · exact Or.inl hi
    · obtain ⟨hzero, hval⟩ := List.getElem?_eq_some_iff.mp hi
      refine Or.inr ⟨?_, by simpa using hval⟩
      simp only [List.length_singleton] at hzero
      omega
  have hfresh : ∀ {i : ℕ} {a : α}, N.peers[i]? = some (some a) → peer ≠ some a := by
    rintro i a hi rfl
    exact (hpeer a rfl).2 (List.mem_of_getElem? hi)
  refine ⟨by simp [Network.accept, h.length], fun i j a hi hj => ?_, fun a ha => ?_, h.members,
    fun a c hc => ?_⟩
  · rcases hold hi with hi | ⟨rfl, hpa⟩ <;> rcases hold hj with hj | ⟨rfl, hpa'⟩
    · exact h.unique i j a hi hj
    · exact absurd hpa' (hfresh hi)
    · exact absurd hpa (hfresh hj)
    · rfl
  · rcases List.mem_append.mp ha with ha | ha
    · exact h.exist a ha
    · exact (hpeer a (List.mem_singleton.mp ha).symm).1
  · obtain ⟨o, ho, hr⟩ := h.connection a c hc
    cases ho with
    | @some j t ha ht =>
      refine ⟨_, .some (j := j) ?_ ?_, hr⟩
      · rw [Network.accept, List.getElem?_append_left (List.getElem?_eq_some_iff.mp ha).1]
        exact ha
      · rw [Network.accept, List.getElem?_append_left (List.getElem?_eq_some_iff.mp ht).1]
        exact ht
    | none hnone =>
      by_cases hpa : peer = some a
      · -- the new session is the one at the other end of this connection
        refine ⟨_, .some (j := N.sessions.length) ?_ ?_, hr.step (e := .accepted socket) rfl⟩
        · rw [Network.accept, ← h.length, hpa]
          exact List.getElem?_concat_length
        · rw [Network.accept]
          exact List.getElem?_concat_length
      · refine ⟨_, .none ?_, hr⟩
        rintro hmem
        rcases List.mem_append.mp hmem with hmem | hmem
        · exact hnone hmem
        · exact hpa (List.mem_singleton.mp hmem).symm

/-! ## What can happen -/

variable [DecidableEq α]

/-- The network with another state of one client session. -/
def setClient (N : Network α) (a : α) (c : ClientSession) : Network α :=
  { N with clients := Function.update N.clients a (some c) }

/-- What can happen on a network, on which client sessions are run with arguments that meet `P`. -/
inductive Step (P : ClientMembers → Prop) (N : Network α) : Network α → Prop
  | idle : Step P N N
  /-- A client creates a session, and runs it. -/
  | spawn {a : α} (ha : N.clients a = none) {args : ClientMembers} (hargs : P args) :
      Step P N (N.setClient a (ClientSession.program.start args))
  /-- An event of a client session, other than an arrival. -/
  | client {a : α} {c c' : ClientSession} {e : Event UInt8} (hc : N.clients a = some c)
      (he : e.isArrival = false) (hs : ClientSession.program.step c e = some c') :
      Step P N (N.setClient a c')
  /-- The server creates a session for a client session that has none yet, or for a foreign
  peer. -/
  | accepted {peer : Option α} (hpeer : ∀ a ∈ peer, (N.clients a).isSome ∧ some a ∉ N.peers)
      (socket : Socket) : Step P N (N.accept peer socket)
  /-- An event of a session of the server. Frames that are not delivered by the network come from
  a foreign peer. -/
  | session {j : ℕ} {s s' : ServerSession} {e : Event UInt8} (hj : N.sessions[j]? = some s)
      (he : e.isArrival = true → N.peers[j]? = some none)
      (hs : ServerSession.program.step s e = some s') : Step P N (N.setSession j s')
  /-- The next frame that a client session has sent arrives at its session of the server. -/
  | toServer {j : ℕ} {a : α} {c : ClientSession} {s : ServerSession} {f : Frame UInt8}
      (ha : N.peers[j]? = some (some a)) (hc : N.clients a = some c)
      (hj : N.sessions[j]? = some s) (hf : c.outbound[s.arrived.length]? = some f) :
      Step P N (N.setSession j (s.arrive f))
  /-- The next frame that a session of the server has sent arrives at its client session. -/
  | toClient {j : ℕ} {a : α} {c : ClientSession} {s : ServerSession} {f : Frame UInt8}
      (ha : N.peers[j]? = some (some a)) (hc : N.clients a = some c)
      (hj : N.sessions[j]? = some s) (hf : s.outbound[c.arrived.length]? = some f) :
      Step P N (N.setClient a (c.arrive f))

/-- The states of a network. -/
inductive Reachable (P : ClientMembers → Prop) : Network α → Prop
  | empty : Reachable P empty
  | step {N N' : Network α} (h : Reachable P N) (hstep : Step P N N') : Reachable P N'

/-- A change of one client session keeps the wiring, if its connection allows it. -/
lemma Wired.setClient (h : Wired P N) {a : α} {c : ClientSession} {o : Option ServerSession}
    (hP : P c.members) (ho : N.Linked a o)
    (hreach : Connection.system.Reachable ⟨c.members, c, o⟩) : Wired P (N.setClient a c) := by
  have hself : (N.setClient a c).clients a = some c := Function.update_self ..
  have hother : ∀ {b}, b ≠ a → (N.setClient a c).clients b = N.clients b := fun hb =>
    Function.update_of_ne hb ..
  have hlinked : ∀ {b o}, N.Linked b o → (N.setClient a c).Linked b o := by
    rintro b o (hnone | ⟨hj, hs⟩)
    · exact .none hnone
    · exact .some hj hs
  refine ⟨h.length, h.unique, fun b hb => ?_, fun b c' hb => ?_, fun b c' hb => ?_⟩
  · by_cases hab : b = a
    · simp [hab, hself]
    · exact hother hab ▸ h.exist b hb
  · by_cases hab : b = a
    · obtain rfl : c = c' := Option.some.inj (hself.symm.trans (hab ▸ hb))
      exact hP
    · exact h.members b c' (hother hab ▸ hb)
  · by_cases hab : b = a
    · subst hab
      obtain rfl : c = c' := Option.some.inj (hself.symm.trans hb)
      exact ⟨o, hlinked ho, hreach⟩
    · obtain ⟨o', ho', hreach'⟩ := h.connection b c' (hother hab ▸ hb)
      exact ⟨o', hlinked ho', hreach'⟩

/-- **Every step keeps the wiring.**

**Proof sketch.** A step of a client session, of a session of the server, or of the network between
them is a step of the one connection it belongs to. It concerns no other, since no session of the
server is connected to two client sessions, nor the other way round. -/
lemma Wired.step (h : Wired P N) (hstep : Step P N N') : Wired P N' := by
  cases hstep with
  | idle => exact h
  | @spawn a ha args hargs =>
    have hnone : some a ∉ N.peers := fun hmem => by
      have := h.exist a hmem
      simp [ha] at this
    exact h.setClient hargs (.none hnone) (.start args)
  | @client a c c' e hc he hs =>
    obtain ⟨o, ho, hr⟩ := h.connection a c hc
    have hmem : c'.members = c.members := (ClientSession.proper_program.step hs).2.2
    refine h.setClient (hmem ▸ h.members a c hc) ho (hmem ▸ hr.step (e := .client e) ?_)
    simp [Connection.system, Connection.step, he, hs]
  | accepted hpeer socket => exact h.accept hpeer socket
  | @session j s s' e hj he hs =>
    refine h.setSession hj fun a c ha _ hr => hr.step (e := .server e) ?_
    have hnot : e.isArrival = false := by
      cases hea : e.isArrival with
      | false => rfl
      | true => simp [he hea] at ha
    simp [Connection.system, Connection.step, hnot, hs]
  | @toServer j a c s f ha hc hj hf =>
    refine h.setSession hj fun b c' hb hc' hr => hr.step (e := .toServer) ?_
    obtain rfl : a = b := by simpa [ha] using hb
    obtain rfl : c = c' := Option.some.inj (hc.symm.trans hc')
    simp [Connection.system, Connection.step, hf]
  | @toClient j a c s f ha hc hj hf =>
    obtain ⟨o, ho, hr⟩ := h.connection a c hc
    obtain rfl := h.linked_unique (.some ha hj) ho
    refine h.setClient (h.members a c hc) ho (hr.step (e := .toClient) ?_)
    simp [Connection.system, Connection.step, Session.arrive, hf]

/-- **Every connection of a network is one of `Vsna.Connection`**: whatever happens elsewhere on the
network, a client session and the session of the server at its other end are in a state that
they could have reached as the only connection there is. -/
lemma wired_of_reachable (h : Reachable P N) : Wired P N := by
  induction h with
  | empty => exact wired_empty
  | step _ hstep ih => exact ih.step hstep

end Network

end Vsna
