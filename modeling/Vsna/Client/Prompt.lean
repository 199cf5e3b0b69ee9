import Vsna.Client.Menu

set_option relaxedAutoImplicit false
set_option autoImplicit false

/-!
# The prompt loop

The loop of `ClientCLI::run` in `client/cli/client_cli.cpp`: read a line, split it, look up its
first word among the commands, and hand the others to the handler. The line is kept from one
iteration to the next, and the loop does not look at the state of the stream.

## Main definitions

* `Vsna.Prompt`, `Vsna.Prompt.iterate`, `Vsna.Prompt.system` — the loop.
* `Vsna.action`, `Vsna.reference` — what one line asks for, and what the whole input asks for.
* `Vsna.Prompt.Settled` — every session that was created has ended.
* `Vsna.Prompt.Leaves` — the loop is left.

## Main results

* `Vsna.Prompt.run_actions` — what the loop has done after any number of iterations.
* `Vsna.Prompt.settled_iff` — when all sessions have ended.
* `Vsna.Prompt.prefix_reference_iff` — when the loop executes each line at most once.
* `Vsna.Prompt.leaves_iff` — when the loop is left.
-/

namespace Vsna

open Text Websocket

/-! ## The loop -/

/-- What the loop does about a line: it invokes a handler, or reports an unknown command. -/
inductive Action
  | invoked (command : Command) (args : List Str)
  | unknown (name : Str)
  deriving DecidableEq

/-- The state of the loop between two iterations. -/
structure Prompt where
  client : Client
  /-- Standard input. -/
  cin : IStream
  /-- The string that lines are read into. -/
  input : Str := []
  /-- What was done so far. -/
  actions : List Action := []
  /-- Has the loop been left? -/
  left : Bool := false
  deriving DecidableEq

/-- A client that has been constructed and perhaps configured. -/
structure Client.Fresh (c : Client) : Prop where
  stopped : c.stopped = false
  sessions : c.sessions = []

namespace Prompt

/-- `ClientCLI::run` up to the loop, on the standard input `text`. -/
def start (c : Client) (text : Str) : Prompt := { client := c.print, cin := ⟨text, false, false⟩ }

/-- One iteration, with the events that happen while its handler runs the `io_context`. Nothing
more happens once the loop has been left. -/
def iterate (p : Prompt) (es : List (ℕ × Event UInt8)) : Option Prompt :=
  if p.left then some p
  else
    let client := p.client.write "> "
    let r := getline p.cin p.input
    match splitArgs r.2 with
    | [] => some { p with client := client, cin := r.1, input := r.2 }
    | w :: ws =>
      match findCommand w with
      | none =>
        some { p with
          client := client.write ("Unknown command: " ++ w ++ "\n"), cin := r.1, input := r.2
          actions := p.actions ++ [.unknown w] }
      | some item => do
        let (left, client) ← item.handle client ws es
        return { p with
          client := client, cin := r.1, input := r.2
          actions := p.actions ++ [.invoked item.command ws], left := left }

/-- The loop, from any fresh client and any standard input. -/
def system : Automata.System ({ c : Client // c.Fresh } × Str) Prompt (List (ℕ × Event UInt8)) where
  start k := start k.1 k.2
  step := iterate

end Prompt

/-! ## What lines ask for -/

/-- What a line asks for: its first word, looked up, with the other words as arguments. -/
def action (line : Str) : Option Action :=
  match words line with
  | [] => none
  | w :: ws =>
    match findCommand w with
    | none => some (.unknown w)
    | some item => some (.invoked item.command ws)

/-- Does the handler that is invoked return true? -/
def Action.isExit : Action → Bool
  | .invoked .exit _ => true
  | _ => false

/-- Only the handler of `exit` returns true. -/
@[simp] lemma Action.isExit_invoked (command : Command) (args : List Str) :
    (Action.invoked command args).isExit = decide (command = .exit) := by
  cases command <;> rfl

/-- The elements of a list up to the first that meets `p`, and with it. -/
def upTo {α : Type} (p : α → Bool) : List α → List α
  | [] => []
  | a :: l => if p a then [a] else a :: upTo p l

/-- What an input asks for: its lines in order, up to the first exit. -/
def reference (text : Str) : List Action := upTo Action.isExit ((lines text).filterMap action)

section UpTo

variable {α : Type} {p : α → Bool}

/-- Without such an element, all of the list is taken. -/
lemma upTo_eq_self {l : List α} (h : l.any p = false) : upTo p l = l := by
  induction l with
  | nil => rfl
  | cons a l ih =>
    rw [List.any_cons, Bool.or_eq_false_iff] at h
    rw [upTo, if_neg (by simp [h.1]), ih h.2]

/-- What follows such an element does not matter. -/
lemma upTo_append_of_any {l : List α} (h : l.any p = true) (r : List α) :
    upTo p (l ++ r) = upTo p l := by
  induction l with
  | nil => simp at h
  | cons a l ih =>
    rw [List.cons_append, upTo, upTo]
    split_ifs with ha
    · rfl
    · rw [ih (by simpa [ha] using h)]

/-- If there is no such element, the list goes on. -/
lemma upTo_append_of_not_any {l : List α} (h : l.any p = false) (r : List α) :
    upTo p (l ++ r) = l ++ upTo p r := by
  induction l with
  | nil => rfl
  | cons a l ih =>
    rw [List.any_cons, Bool.or_eq_false_iff] at h
    rw [List.cons_append, upTo, if_neg (by simp [h.1]), ih h.2, List.cons_append]

/-- A longer list gives more. -/
lemma prefix_upTo {l r : List α} (h : l <+: r) : upTo p l <+: upTo p r := by
  obtain ⟨t, rfl⟩ := h
  cases hl : l.any p with
  | true => rw [upTo_append_of_any hl]
  | false =>
    rw [upTo_append_of_not_any hl, upTo_eq_self hl]
    exact List.prefix_append _ _

end UpTo

/-- A line leaves the loop exactly if its first word is `exit`. -/
lemma action_isExit_iff {line : Str} :
    (action line).any Action.isExit = true ↔ (words line).head? = some "exit" := by
  unfold action
  cases words line with
  | nil => simp
  | cons w ws =>
    have hexit := findCommand_exit w
    cases hf : findCommand w with
    | none => simpa [hf, Action.isExit] using hexit
    | some item => simpa [hf] using hexit

namespace Prompt

variable {p p' : Prompt}

/-- What one iteration reads and does. -/
lemma iterate_eq_some {es : List (ℕ × Event UInt8)} (hl : p.left = false)
    (h : p.iterate es = some p') :
    p'.cin = (getline p.cin p.input).1 ∧ p'.input = (getline p.cin p.input).2 ∧
      p'.actions = p.actions ++ (action (getline p.cin p.input).2).toList ∧
      p'.left = (action (getline p.cin p.input).2).any Action.isExit := by
  unfold iterate at h
  rw [if_neg (by simp [hl])] at h
  simp only [splitArgs_eq] at h
  unfold action
  cases hw : words (getline p.cin p.input).2 with
  | nil =>
    rw [hw] at h
    obtain rfl := Option.some.inj h
    simp [hl]
  | cons w ws =>
    rw [hw] at h
    cases hf : findCommand w with
    | none =>
      simp only [hf] at h
      obtain rfl := Option.some.inj h
      simp [hl, hf, Action.isExit]
    | some item =>
      simp only [hf, Option.bind_eq_bind, Option.bind_eq_some_iff] at h
      obtain ⟨⟨b, c⟩, hr, hp'⟩ := h
      obtain rfl := Option.some.inj hp'
      obtain ⟨rfl, -⟩ := MenuItem.handle_eq_some hr
      simp [hf]

/-- Once the loop has been left, nothing changes. -/
lemma run_of_left {es : List (List (ℕ × Event UInt8))} (hl : p.left = true)
    (h : system.run p es = some p') : p' = p := by
  induction es with
  | nil => exact (Option.some.inj h).symm
  | cons e es ih =>
    obtain ⟨p₁, h₁, h₂⟩ := system.run_cons_eq_some.mp h
    have hp₁ : p.iterate e = some p := if_pos hl
    obtain rfl := Option.some.inj (h₁.symm.trans hp₁)
    exact ih h₂

/-- **What the loop has done after any number of iterations**: what the strings read by that many
calls of `getline` ask for, up to the first exit.

**Proof sketch.** Induction on the iterations. An exit ends the loop; otherwise the loop goes on
with the stream and the string that the call has left. -/
lemma run_actions {es : List (List (ℕ × Event UInt8))} (hl : p.left = false)
    (h : system.run p es = some p') :
    p'.actions = p.actions ++
        upTo Action.isExit ((readLines es.length p.cin p.input).filterMap action) ∧
      p'.left = ((readLines es.length p.cin p.input).filterMap action).any Action.isExit := by
  induction es generalizing p with
  | nil =>
    obtain rfl := Option.some.inj h
    simp [readLines, upTo, hl]
  | cons e es ih =>
    obtain ⟨p₁, h₁, h₂⟩ := system.run_cons_eq_some.mp h
    obtain ⟨hcin, hinput, hactions, hleft⟩ := iterate_eq_some hl h₁
    rw [List.length_cons, readLines]
    set line := (getline p.cin p.input).2 with hline
    cases ha : action line with
    | none =>
      rw [ha] at hactions hleft
      obtain ⟨ih₁, ih₂⟩ := ih hleft h₂
      rw [hcin, hinput, hactions] at ih₁
      rw [hcin, hinput] at ih₂
      simpa [ha] using And.intro ih₁ ih₂
    | some a =>
      rw [ha] at hactions hleft
      rw [List.filterMap_cons_some ha, List.any_cons, upTo]
      cases hexit : a.isExit with
      | true =>
        obtain rfl := run_of_left (hleft.trans hexit) h₂
        exact ⟨by simpa using hactions, by simpa [hexit] using hleft⟩
      | false =>
        obtain ⟨ih₁, ih₂⟩ := ih (hleft.trans hexit) h₂
        rw [hcin, hinput, hactions] at ih₁
        rw [hcin, hinput] at ih₂
        exact ⟨by simpa using ih₁, by simpa using ih₂⟩

/-! ## Sessions -/

/-- Is this an invocation of `connect`? -/
def isConnect : Action → Bool
  | .invoked .connect _ => true
  | _ => false

/-- The number of `connect` commands handled so far. -/
def connects (p : Prompt) : ℕ := p.actions.countP isConnect

/-- What one iteration does to the sessions. -/
lemma sessions_of_iterate {es : List (ℕ × Event UInt8)}
    (hs : Client.Sessions (connects p) p.client) (h : p.iterate es = some p') :
    Client.Sessions (connects p') p'.client := by
  unfold iterate at h
  split_ifs at h
  · exact Option.some.inj h ▸ hs
  · simp only [] at h
    split at h
    · obtain rfl := Option.some.inj h
      exact hs.congr rfl rfl
    · split at h
      · next w _ _ _ _ =>
        obtain rfl := Option.some.inj h
        have hk : (p.actions ++ [Action.unknown w]).countP isConnect = connects p := by
          simp [connects, isConnect]
        change Client.Sessions ((p.actions ++ [Action.unknown w]).countP isConnect) _
        rw [hk]
        exact hs.congr rfl rfl
      · next w ws _ _ item _ =>
        simp only [Option.bind_eq_bind, Option.bind_eq_some_iff] at h
        obtain ⟨⟨b, c⟩, hr, hp'⟩ := h
        obtain rfl := Option.some.inj hp'
        have hc := (MenuItem.handle_eq_some hr).2 _ (hs.congr rfl rfl)
        have hconnect : isConnect (.invoked item.command ws) =
            decide (item.command = .connect) := by
          cases item.command <;> rfl
        simpa [connects, List.countP_append, hconnect] using hc

/-- What any number of iterations does to the sessions. -/
lemma sessions_of_reachable (h : system.Reachable p) : Client.Sessions (connects p) p.client := by
  refine h.invariant (P := fun p => Client.Sessions (connects p) p.client)
    (fun k => ?_) fun p es p' hp he => sessions_of_iterate hp he
  exact .zero k.1.2.stopped k.1.2.sessions

/-- Every session that was created has ended, one for each `connect` command, and none is left
pending in the context. -/
structure Settled (p : Prompt) : Prop where
  ended : p.client.sessions.countP ClientSession.ended = connects p
  pending : ∀ s ∈ p.client.sessions, s.pending = []

/-- **When all sessions have ended**: in every state of the loop between two iterations, exactly if
at most one `connect` command was handled. -/
theorem settled_iff (h : system.Reachable p) : Settled p ↔ connects p ≤ 1 := by
  rw [← (sessions_of_reachable h).all_ended_iff]
  exact ⟨fun hs => ⟨hs.ended, hs.pending⟩, fun hs => ⟨hs.1, hs.2⟩⟩

/-- A client that has been constructed. -/
def idle : { c : Client // c.Fresh } := ⟨{}, rfl, rfl⟩

/-- One `connect` command, during which the connection is refused. -/
theorem settled_iff_refused :
    ∃ p, system.run (system.start (idle, "connect\n"))
        [[(0, .complete 0 none), (0, .complete 0 (some ⟨.other, "Connection refused"⟩))]] =
        some p ∧ connects p = 1 ∧ (Settled p ↔ connects p ≤ 1) := by
  obtain ⟨p, hrun, hp⟩ : ∃ p, system.run (system.start (idle, "connect\n"))
      [[(0, .complete 0 none), (0, .complete 0 (some ⟨.other, "Connection refused"⟩))]] = some p ∧
      connects p = 1 := ⟨_, rfl, rfl⟩
  exact ⟨p, hrun, hp, settled_iff (Automata.System.reachable_of_run hrun)⟩

/-- Two `connect` commands: the second session has not ended when the prompt returns. -/
theorem not_settled_twice :
    ∃ p, system.run (system.start (idle, "connect\nconnect\n"))
        [[(0, .complete 0 none), (0, .complete 0 (some ⟨.other, "Connection refused"⟩))], []] =
        some p ∧ connects p = 2 ∧ p.client.sessions.countP ClientSession.ended = 1 ∧
      ¬ Settled p := by
  refine ⟨_, rfl, rfl, rfl, fun h => ?_⟩
  exact absurd h.ended (by decide)

/-! ## Iterations exist -/

/-- An iteration can end. -/
lemma exists_iterate (h : system.Reachable p) : ∃ es p', p.iterate es = some p' := by
  unfold iterate
  split_ifs
  · exact ⟨[], _, rfl⟩
  · simp only []
    split
    · exact ⟨[], _, rfl⟩
    · next w ws _ =>
      cases hf : findCommand w with
      | none => exact ⟨[], _, rfl⟩
      | some item =>
        have hs : Client.Sessions (connects p) (p.client.write "> ") :=
          (sessions_of_reachable h).congr rfl rfl
        obtain ⟨es, ⟨b, c⟩, hr⟩ := item.exists_handle hs ws
        exact ⟨es, Option.isSome_iff_exists.mp (by simp [hr])⟩

/-- Any number of iterations can end. -/
lemma exists_run (h : system.Reachable p) (n : ℕ) :
    ∃ es p', es.length = n ∧ system.run p es = some p' := by
  induction n generalizing p with
  | zero => exact ⟨[], p, rfl, rfl⟩
  | succ n ih =>
    obtain ⟨e, p₁, h₁⟩ := exists_iterate h
    obtain ⟨es, p', hlen, hrun⟩ := ih (h.step h₁)
    exact ⟨e :: es, p', by simp [hlen], system.run_cons_eq_some.mpr ⟨p₁, h₁, hrun⟩⟩

/-! ## Lines -/

/-- Does some line of the input, ended by a newline or not, begin with the word `exit`? -/
def HasExit (text : Str) : Prop := ∃ line ∈ lines text, (words line).head? = some "exit"

/-- The actions for an input contain an exit if one of its lines does. -/
lemma any_isExit_iff {text : Str} :
    ((lines text).filterMap action).any Action.isExit = true ↔ HasExit text := by
  constructor
  · intro h
    obtain ⟨a, ha, hexit⟩ := List.any_eq_true.mp h
    obtain ⟨line, hmem, hline⟩ := List.mem_filterMap.mp ha
    exact ⟨line, hmem, action_isExit_iff.mp (by simpa [hline] using hexit)⟩
  · rintro ⟨line, hmem, hline⟩
    have hexit := action_isExit_iff.mpr hline
    cases ha : action line with
    | none => simp [ha] at hexit
    | some a =>
      exact List.any_eq_true.mpr
        ⟨a, List.mem_filterMap.mpr ⟨line, hmem, ha⟩, by simpa [ha] using hexit⟩

/-- A line asks for nothing if it has no words. -/
lemma action_eq_none_iff {line : Str} : action line = none ↔ words line = [] := by
  unfold action
  cases words line with
  | nil => simp
  | cons w ws => cases hf : findCommand w <;> simp [hf]

/-- The last part of an input is one of its lines. -/
lemma lastPart_mem (text : Str) : lastPart text ∈ lines text := List.getLast_mem _

/-- What `n` calls of `getline` read asks for what the lines ask for, and then again and again
for what the last part asks for. -/
lemma prefix_filterMap_readLines (n : ℕ) (text : Str) :
    (readLines n ⟨text, false, false⟩ []).filterMap action <+:
      (lines text).filterMap action ++ (List.replicate n (lastPart text)).filterMap action := by
  rw [readLines_eq, ← List.filterMap_append]
  exact (List.take_prefix _ _).filterMap _

/-- Once all lines have been read, every call reads the last part again. -/
lemma filterMap_readLines (m : ℕ) (text : Str) :
    (readLines ((lines text).length + m) ⟨text, false, false⟩ []).filterMap action =
      (lines text).filterMap action ++ (List.replicate m (lastPart text)).filterMap action := by
  rw [readLines_eq, ← List.filterMap_append, List.take_length_add_append, List.take_replicate,
    Nat.min_eq_left (Nat.le_add_left _ _)]

variable {k : { c : Client // c.Fresh } × Str}

/-- What the loop has done when it was started on an input. -/
lemma run_start {es : List (List (ℕ × Event UInt8))} (h : system.run (system.start k) es = some p) :
    p.actions = upTo Action.isExit
        ((readLines es.length ⟨k.2, false, false⟩ []).filterMap action) ∧
      p.left = ((readLines es.length ⟨k.2, false, false⟩ []).filterMap action).any
        Action.isExit :=
  run_actions rfl h

/-- **When the loop executes each line at most once**: exactly if the part of the input after the
last newline has no words, or some line is an exit.

**Proof sketch.** After the last newline the loop reads the rest of the input again and again.
This does no harm if there are no words in it, or if an exit comes first. Otherwise one more
iteration than there are lines executes the last one twice. -/
theorem prefix_reference_iff :
    (∀ es p, system.run (system.start k) es = some p → p.actions <+: reference k.2) ↔
      words (lastPart k.2) = [] ∨ HasExit k.2 := by
  constructor
  · intro h
    by_contra hc
    obtain ⟨hwords, hexit⟩ := not_or.mp hc
    obtain ⟨es, p, hlen, hrun⟩ := exists_run (.start k) ((lines k.2).length + 1)
    obtain ⟨hactions, -⟩ := run_start hrun
    rw [hlen, filterMap_readLines, ← List.filterMap_append] at hactions
    -- neither the lines nor the last part once more contain an exit
    have hany : ((lines k.2).filterMap action).any Action.isExit = false := by
      simpa using mt any_isExit_iff.mp hexit
    have hmore : ((lines k.2 ++ List.replicate 1 (lastPart k.2)).filterMap action).any
        Action.isExit = false := by
      rw [List.filterMap_append, List.any_append, hany, Bool.false_or]
      rw [List.any_eq_false] at hany ⊢
      intro a ha
      obtain ⟨line, hline, hact⟩ := List.mem_filterMap.mp ha
      obtain rfl := List.eq_of_mem_replicate hline
      exact hany a (List.mem_filterMap.mpr ⟨_, lastPart_mem _, hact⟩)
    obtain ⟨a, ha⟩ := Option.ne_none_iff_exists'.mp (mt action_eq_none_iff.mp hwords)
    have hlength := (h es p hrun).length_le
    rw [hactions, upTo_eq_self hmore, reference, upTo_eq_self hany] at hlength
    simp [ha] at hlength
  · intro h es p hrun
    obtain ⟨hactions, -⟩ := run_start hrun
    rw [hactions]
    refine (prefix_upTo (prefix_filterMap_readLines es.length k.2)).trans ?_
    rcases h with hwords | hexit
    · have hnone : (List.replicate es.length (lastPart k.2)).filterMap action = [] := by
        rw [List.filterMap_eq_nil_iff]
        intro line hline
        rw [List.eq_of_mem_replicate hline]
        exact action_eq_none_iff.mpr hwords
      rw [hnone, List.append_nil]
      exact List.prefix_rfl
    · rw [upTo_append_of_any (any_isExit_iff.mpr hexit)]
      exact List.prefix_rfl

/-- The input `print` without a newline: the second iteration executes the command again. -/
theorem not_prefix_print :
    system.run (system.start (idle, "print")) [[], []] ≠ none ∧
      reference "print" = [.invoked .print []] ∧
      ¬ ∀ es p, system.run (system.start (idle, "print")) es = some p →
        p.actions <+: reference "print" := by
  obtain ⟨p, hrun, hp⟩ : ∃ p, system.run (system.start (idle, "print")) [[], []] = some p ∧
      p.actions = [.invoked .print [], .invoked .print []] := ⟨_, rfl, rfl⟩
  have href : reference "print" = [.invoked .print []] := rfl
  refine ⟨by simp [hrun], href, fun h => ?_⟩
  have hlength := (h _ p hrun).length_le
  rw [hp, href] at hlength
  simp at hlength

/-- The loop is left after some number of iterations, whatever happens in them, and has then done
what the input asks for. -/
def Leaves (k : { c : Client // c.Fresh } × Str) : Prop :=
  ∃ n, (∃ es p, es.length = n ∧ system.run (system.start k) es = some p) ∧
    ∀ es p, es.length = n → system.run (system.start k) es = some p →
      p.left = true ∧ p.actions = reference k.2

/-- **When the loop is left**: exactly if some line is an exit.

**Proof sketch.** Once all lines have been read, the loop has met every exit there is. The end of
the input does not end the loop, and what is read from then on is the last line again. -/
theorem leaves_iff : Leaves k ↔ HasExit k.2 := by
  constructor
  · rintro ⟨n, ⟨es, p, hlen, hrun⟩, hall⟩
    obtain ⟨-, hleft⟩ := run_start hrun
    rw [(hall es p hlen hrun).1, eq_comm] at hleft
    obtain ⟨a, ha, hexit⟩ := List.any_eq_true.mp hleft
    refine any_isExit_iff.mp (List.any_eq_true.mpr ⟨a, ?_, hexit⟩)
    -- what is read again and again is one of the lines
    rcases List.mem_append.mp ((prefix_filterMap_readLines _ _).subset ha) with ha | ha
    · exact ha
    · obtain ⟨line, hline, hact⟩ := List.mem_filterMap.mp ha
      obtain rfl := List.eq_of_mem_replicate hline
      exact List.mem_filterMap.mpr ⟨_, lastPart_mem _, hact⟩
  · intro hexit
    refine ⟨(lines k.2).length, exists_run (.start k) _, fun es p hlen hrun => ?_⟩
    obtain ⟨hactions, hleft⟩ := run_start hrun
    have hread := filterMap_readLines 0 k.2
    rw [Nat.add_zero, List.replicate_zero, List.filterMap_nil, List.append_nil] at hread
    rw [hlen, hread] at hactions hleft
    exact ⟨hleft.trans (any_isExit_iff.mpr hexit), hactions⟩

/-- The input with the one line `print`: its end does not end the loop. -/
theorem not_leaves_print : ¬ Leaves (idle, "print\n") := by
  rintro ⟨n, ⟨es, p, hlen, hrun⟩, hall⟩
  obtain ⟨-, hleft⟩ := run_start hrun
  rw [(hall es p hlen hrun).1, eq_comm] at hleft
  obtain ⟨a, ha, hexit⟩ := List.any_eq_true.mp hleft
  have hlines : (lines "print\n").filterMap action = [.invoked .print []] := rfl
  have hlast : action (lastPart "print\n") = none := rfl
  have hmem := (prefix_filterMap_readLines _ _).subset ha
  rw [hlines, List.filterMap_replicate_of_none hlast, List.append_nil, List.mem_singleton] at hmem
  simp [hmem] at hexit

end Prompt

end Vsna
