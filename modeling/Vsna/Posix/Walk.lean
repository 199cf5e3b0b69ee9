import Vsna.Posix.Tree

set_option relaxedAutoImplicit false
set_option autoImplicit false

/-!
# Path resolution

A path name is resolved by walking its components from the root or from the working directory.
Every directory the walk leaves must grant search permission. Symbolic links are followed, with
a budget: a path that needs more than forty of them is taken for a loop. A trailing slash asks
for a directory; it is kept as a last, empty component. A name must not be longer than `NAME_MAX`
bytes, and a path name that is resolved must be shorter than `PATH_MAX`. The walk itself may lead
to a position whose path name is longer.

The position a walk ends at was reached through directories that grant search permission
(`Posix.FileSystem.Physical`). Walking the names of such a position again, from the root, leads
to it directly: there are no links on the way any more.

## Main definitions

* `Posix.components` — the components of a path name.
* `Posix.FileSystem.walk`, `Posix.FileSystem.resolve` — path resolution.
* `Posix.FileSystem.trail` — the entries that a walk goes through, by their path names.
* `Posix.render` — the path name of a position.

## Main results

* `Posix.FileSystem.Physical.of_walk` — a walk ends at a position with searchable ancestors.
* `Posix.FileSystem.Physical.resolve_render` — the path name of such a position resolves to it, if
  it is not too long.
* `Posix.FileSystem.length_render_lt_of_walk` — a walk through short path names ends at one.
* `Posix.FileSystem.walk_cwd_eq_ok_iff` — a walk from the root through the working directory
  ends where the walk from the working directory ends, if it gets there.
-/

namespace Posix

open Text (Str)

/-- The errors of path resolution. -/
inductive Errno
  | noent
  | notdir
  | acces
  | loop
  | nametoolong
  deriving DecidableEq

/-- The text of an error. -/
def Errno.message : Errno → Str
  | .noent => "No such file or directory"
  | .notdir => "Not a directory"
  | .acces => "Permission denied"
  | .loop => "Too many levels of symbolic links"
  | .nametoolong => "File name too long"

/-- A path name handed to the system ends at its first NUL byte. -/
def cString (p : Str) : Str := p.takeWhile (· != 0)

/-- Does a path name start at the root? -/
def isAbsolute (p : Str) : Bool := p.head? == some slash

/-- The components of a path name. A trailing slash leaves an empty component at the end. -/
def components (p : Str) : List Str :=
  (p.splitOn slash).filter (· ≠ []) ++ if p.getLast? = some slash then [[]] else []

/-- The path name of a position. -/
def render : List Name → Str
  | [] => [slash]
  | n :: ns => (n :: ns).flatMap fun m => slash :: m.bytes

/-- The path name of an entry of the directory at a position. -/
def entryPath (cur : List Name) (c : Str) : Str :=
  (cur.flatMap fun m => slash :: m.bytes) ++ slash :: c

/-- The entry with a given name is the position below. -/
lemma entryPath_name (cur : List Name) (name : Name) :
    entryPath cur name.bytes = render (cur ++ [name]) := by
  cases cur <;> simp [entryPath, render]

/-- The path name of the parent is no longer. -/
lemma length_render_dropLast_le (pos : List Name) :
    (render pos.dropLast).length ≤ (render pos).length := by
  rcases List.eq_nil_or_concat pos with rfl | ⟨cur, name, rfl⟩
  · exact le_rfl
  · rw [List.concat_eq_append, List.dropLast_concat, ← entryPath_name]
    cases cur <;> simp [render, entryPath]

/-- Splitting the names of a position at the slashes gives them back. -/
lemma splitOn_flatMap (ns : List Name) :
    (ns.flatMap fun m => slash :: m.bytes).splitOn slash = [] :: ns.map Name.bytes := by
  induction ns with
  | nil => rfl
  | cons n ns ih =>
    have hn : ∀ b ∈ n.bytes, (b == slash) = false := fun b hb => by
      simpa using fun h : b = slash => n.no_slash (h ▸ hb)
    rw [List.splitOn_eq_splitOnP] at ih ⊢
    rw [List.flatMap_cons, List.cons_append, List.splitOnP_cons_eq_if_modifyHead,
      if_pos (by simp), List.map_cons]
    congr 1
    cases ns with
    | nil => simp [List.splitOnP_eq_singleton hn]
    | cons m ns =>
      rw [List.flatMap_cons, List.cons_append] at ih ⊢
      rw [List.splitOnP_cons_eq_if_modifyHead, if_pos (by simp), List.cons.injEq] at ih
      rw [List.splitOnP_append_cons_of_forall_mem hn _ (by simp), ih.2]

/-- The path name of a position below the root does not end in a slash. -/
lemma getLast?_render_ne (n : Name) (ns : List Name) :
    (render (n :: ns)).getLast? ≠ some slash := by
  obtain ⟨init, m, hm⟩ : ∃ init m, n :: ns = init ++ [m] :=
    ⟨_, _, (List.dropLast_append_getLast (List.cons_ne_nil n ns)).symm⟩
  rw [render, hm, List.flatMap_append, List.flatMap_singleton,
    List.getLast?_append_of_ne_nil _ (by simp)]
  intro h
  rw [List.getLast?_cons_of_ne_nil m.ne_nil] at h
  exact m.no_slash (List.mem_of_getLast? h)

/-- No name is empty. -/
lemma filter_names (ns : List Name) :
    (ns.map Name.bytes).filter (· ≠ []) = ns.map Name.bytes := by
  refine List.filter_eq_self.mpr fun b hb => ?_
  obtain ⟨n, -, rfl⟩ := List.mem_map.mp hb
  simpa using n.ne_nil

/-- The components of the path name of a position are its names. -/
lemma components_render (pos : List Name) :
    components (render pos) = if pos = [] then [[]] else pos.map Name.bytes := by
  cases pos with
  | nil => rfl
  | cons n ns =>
    rw [components, if_neg (getLast?_render_ne n ns), render, splitOn_flatMap,
      List.filter_cons_of_neg (by simp), filter_names]
    simp

/-- The path name of a position is a string without NUL. -/
lemma cString_render (pos : List Name) : cString (render pos) = render pos := by
  rw [cString, List.takeWhile_eq_self_iff]
  intro b hb
  cases pos with
  | nil =>
    obtain rfl : b = slash := by simpa [render] using hb
    decide
  | cons n ns =>
    obtain ⟨m, -, hm⟩ := List.mem_flatMap.mp (show b ∈ (n :: ns).flatMap _ from hb)
    rcases List.mem_cons.mp hm with rfl | hm
    · decide
    · simpa using fun h : b = 0 => m.no_nul (h ▸ hm)

/-- The path name of a position starts at the root. -/
lemma isAbsolute_render (pos : List Name) : isAbsolute (render pos) = true := by
  cases pos <;> simp [isAbsolute, render]

/-- The path name of a position is not empty. -/
lemma render_ne_nil (pos : List Name) : render pos ≠ [] := by
  cases pos <;> simp [render]

namespace FileSystem

variable (fs : FileSystem)

/-- Walk components from the directory at `cur`, with `follow` for what remains to be walked at
a symbolic link. -/
def walkWith (follow : List Name → List Str → Except Errno (List Name)) :
    List Name → List Str → Except Errno (List Name)
  | cur, [] => .ok cur
  | cur, c :: cs =>
    match fs.root.lookup cur with
    | some (.dir st entries) =>
      if c = [] then walkWith follow cur cs
      else if fs.self.may st .search = false then .error .acces
      else if c = dot then walkWith follow cur cs
      else if c = dotDot then walkWith follow cur.dropLast cs
      else if fs.nameMax < c.length then .error .nametoolong
      else match findEntry entries c with
        | none => .error .noent
        | some (_, .symlink target) =>
          if target = [] then .error .noent
          else follow (if isAbsolute target then [] else cur) (components target ++ cs)
        | some (name, _) => walkWith follow (cur ++ [name]) cs
    | some _ => .error .notdir
    | none => .error .noent

/-- Walk components from the directory at `cur`, following at most the given number of symbolic
links. -/
def walk : ℕ → List Name → List Str → Except Errno (List Name)
  | 0 => fs.walkWith fun _ _ => .error .loop
  | links + 1 => fs.walkWith (walk links)

/-- The number of symbolic links after which resolution gives up. -/
def maxLinks : ℕ := 40

/-- The position a path name stands for. -/
def resolve (p : Str) : Except Errno (List Name) :=
  if cString p = [] then .error .noent
  else if fs.pathMax ≤ (cString p).length then .error .nametoolong
  else fs.walk maxLinks (if isAbsolute (cString p) then [] else fs.cwd) (components (cString p))

/-- The path names of the entries that a walk from the directory at `cur` goes through, with
`follow` for what remains to be walked at a symbolic link. -/
def trailWith (follow : List Name → List Str → List Str) : List Name → List Str → List Str
  | _, [] => []
  | cur, c :: cs =>
    match fs.root.lookup cur with
    | some (.dir _ entries) =>
      if c = [] ∨ c = dot then trailWith follow cur cs
      else if c = dotDot then trailWith follow cur.dropLast cs
      else entryPath cur c :: match findEntry entries c with
        | none => []
        | some (_, .symlink target) =>
          follow (if isAbsolute target then [] else cur) (components target ++ cs)
        | some (name, _) => trailWith follow (cur ++ [name]) cs
    | _ => []

/-- The path names of the entries that a walk goes through: directories and files that it enters,
and symbolic links that it follows. -/
def trail : ℕ → List Name → List Str → List Str
  | 0 => fs.trailWith fun _ _ => []
  | links + 1 => fs.trailWith (trail links)

/-! ## Positions with searchable ancestors -/

/-- Positions that the process can reach from the root through the directories above them. -/
inductive Physical : List Name → Prop
  | root : Physical []
  | enter {cur : List Name} {st : Stat} {entries : List (Name × Node)} {name : Name} {node : Node}
      (hcur : Physical cur) (hdir : fs.root.lookup cur = some (.dir st entries))
      (hsearch : fs.self.may st .search = true) (hname : name.bytes.length ≤ fs.nameMax)
      (hfind : findEntry entries name.bytes = some (name, node))
      (hlink : ∀ target, node ≠ .symlink target) : Physical (cur ++ [name])

variable {fs}

/-- The parent of a reachable position is reachable. -/
lemma Physical.dropLast {pos : List Name} (h : fs.Physical pos) : fs.Physical pos.dropLast := by
  cases h with
  | root => exact Physical.root
  | enter hcur => simpa using hcur

/-- A walk step by step: what each component can lead to.

**Proof sketch.** Induction on the components. `.` and a trailing slash stay, `..` drops a name,
an entry that is no link adds a name below a searchable directory, and a link hands over to
`follow`, from the same position or from the root. -/
lemma Physical.of_walkWith {follow : List Name → List Str → Except Errno (List Name)}
    (hf : ∀ {cur cs pos}, fs.Physical cur → follow cur cs = .ok pos → fs.Physical pos)
    {cs : List Str} {cur pos : List Name} (h : fs.Physical cur)
    (hw : fs.walkWith follow cur cs = .ok pos) : fs.Physical pos := by
  induction cs generalizing cur with
  | nil =>
    obtain rfl : cur = pos := by simpa [walkWith] using hw
    exact h
  | cons c cs ih =>
    rw [walkWith] at hw
    split at hw
    · next st entries hdir =>
      split_ifs at hw with h₁ h₂ h₃ h₄ hname
      · exact ih h hw
      · exact ih h hw
      · exact ih h.dropLast hw
      · split at hw
        · simp at hw
        · next target hfind =>
          split_ifs at hw with h₅ h₆
          · exact hf Physical.root hw
          · exact hf h hw
        · next name node hlink hfind =>
          have hb := bytes_of_findEntry hfind
          exact ih (h.enter hdir (by simpa using h₂) (hb ▸ Nat.le_of_not_lt hname) (hb ▸ hfind)
            fun target ht => hlink target (by rw [ht])) hw
    · simp at hw
    · simp at hw

/-- **A walk ends at a position with searchable ancestors.** -/
lemma Physical.of_walk {links : ℕ} {cs : List Str} {cur pos : List Name} (h : fs.Physical cur)
    (hw : fs.walk links cur cs = .ok pos) : fs.Physical pos := by
  induction links generalizing cur cs pos with
  | zero => exact of_walkWith (fun _ h => by simp at h) h hw
  | succ links ih => exact of_walkWith (fun hcur hfol => ih hcur hfol) h hw

/-- One step of a walk into an entry that is no link. -/
lemma walkWith_enter {follow : List Name → List Str → Except Errno (List Name)}
    {cur : List Name} {st : Stat} {entries : List (Name × Node)} {name : Name} {node : Node}
    (hdir : fs.root.lookup cur = some (.dir st entries))
    (hsearch : fs.self.may st .search = true) (hname : name.bytes.length ≤ fs.nameMax)
    (hfind : findEntry entries name.bytes = some (name, node))
    (hlink : ∀ target, node ≠ .symlink target) (cs : List Str) :
    fs.walkWith follow cur (name.bytes :: cs) = fs.walkWith follow (cur ++ [name]) cs := by
  rw [walkWith, hdir]
  simp only [name.ne_nil, name.ne_dot, name.ne_dotDot, hsearch, hfind, Bool.true_eq_false,
    if_neg (Nat.not_lt.mpr hname), if_false]

/-- The names of a reachable position lead to it from the root. -/
lemma Physical.walkWith {pos : List Name} (h : fs.Physical pos)
    (follow : List Name → List Str → Except Errno (List Name)) (cs : List Str) :
    fs.walkWith follow [] (pos.map Name.bytes ++ cs) = fs.walkWith follow pos cs := by
  induction h generalizing cs with
  | root => rfl
  | enter hcur hdir hsearch hname hfind hlink ih =>
    rw [List.map_append, List.append_assoc, ih, List.map_singleton, List.singleton_append,
      walkWith_enter hdir hsearch hname hfind hlink]

/-- The names of a reachable position lead to it from the root, whatever the link budget. -/
lemma Physical.walk {pos : List Name} (h : fs.Physical pos) (links : ℕ) (cs : List Str) :
    fs.walk links [] (pos.map Name.bytes ++ cs) = fs.walk links pos cs := by
  cases links with
  | zero => exact h.walkWith _ cs
  | succ links => exact h.walkWith _ cs

/-- A walk along the path name of a reachable position ends there. -/
lemma Physical.walk_components {pos : List Name} (h : fs.Physical pos) (links : ℕ) :
    fs.walk links [] (components (render pos)) = .ok pos := by
  rw [components_render]
  split_ifs with hpos
  · subst hpos
    cases links <;> rfl
  · have hw := h.walk links []
    rw [List.append_nil] at hw
    rw [hw]
    cases links <;> rfl

/-- **The path name of a reachable position resolves to it**, if it is not too long. -/
lemma Physical.resolve_render {pos : List Name} (h : fs.Physical pos)
    (hlen : (render pos).length < fs.pathMax) : fs.resolve (render pos) = .ok pos := by
  rw [resolve, cString_render, if_neg (render_ne_nil pos), if_neg (Nat.not_le.mpr hlen),
    isAbsolute_render, if_pos rfl]
  exact h.walk_components maxLinks

/-- The positions that a walk goes through have short path names, if the entries do.

**Proof sketch.** Induction on the components. `..` leads to a shorter path name, and an entry that
is entered is one of those that the walk goes through. -/
lemma length_render_lt_of_walkWith {n : ℕ}
    {follow : List Name → List Str → Except Errno (List Name)}
    {trail : List Name → List Str → List Str}
    (hf : ∀ {cur cs pos}, (render cur).length < n → (∀ q ∈ trail cur cs, q.length < n) →
      follow cur cs = .ok pos → (render pos).length < n) (hn : 1 < n)
    {cs : List Str} {cur pos : List Name} (h : (render cur).length < n)
    (htrail : ∀ q ∈ fs.trailWith trail cur cs, q.length < n)
    (hw : fs.walkWith follow cur cs = .ok pos) : (render pos).length < n := by
  induction cs generalizing cur with
  | nil =>
    obtain rfl : cur = pos := by simpa [FileSystem.walkWith] using hw
    exact h
  | cons c cs ih =>
    rw [FileSystem.walkWith] at hw
    rw [trailWith] at htrail
    split at hw
    · next st entries hdir =>
      simp only [hdir] at htrail
      split_ifs at hw with h₁ h₂ h₃ h₄ h₅
      · rw [if_pos (.inl h₁)] at htrail
        exact ih h htrail hw
      · rw [if_pos (.inr h₃)] at htrail
        exact ih h htrail hw
      · rw [if_neg (by simp [h₁, h₃]), if_pos h₄] at htrail
        exact ih ((length_render_dropLast_le cur).trans_lt h) htrail hw
      · rw [if_neg (by simp [h₁, h₃]), if_neg h₄] at htrail
        obtain ⟨hentry, htrail⟩ := List.forall_mem_cons.mp htrail
        split at hw
        · simp at hw
        · next target hfind =>
          simp only [hfind] at htrail
          split_ifs at hw htrail with h₆ h₇
          · exact @hf [] _ _ hn htrail hw
          · exact hf h htrail hw
        · next name node hlink hfind =>
          simp only [hfind] at htrail
          refine ih ?_ htrail hw
          rwa [← entryPath_name, bytes_of_findEntry hfind]
    · simp at hw
    · simp at hw

/-- **A walk through entries with short path names ends at a position with a short path name.** -/
lemma length_render_lt_of_walk {n links : ℕ} (hn : 1 < n) {cs : List Str} {cur pos : List Name}
    (h : (render cur).length < n) (htrail : ∀ q ∈ fs.trail links cur cs, q.length < n)
    (hw : fs.walk links cur cs = .ok pos) : (render pos).length < n := by
  induction links generalizing cur cs pos with
  | zero => exact length_render_lt_of_walkWith (fun _ _ h => by simp at h) hn h htrail hw
  | succ links ih => exact length_render_lt_of_walkWith (fun h ht hf => ih h ht hf) hn h htrail hw

/-- The names of a reachable position lead through entries whose path names are no longer than that
of the position. -/
lemma Physical.length_le_of_mem_trailWith {pos : List Name} (h : fs.Physical pos)
    {follow : List Name → List Str → List Str} {cs : List Str} {q : Str}
    (hq : q ∈ fs.trailWith follow [] (pos.map Name.bytes ++ cs)) :
    q.length ≤ (render pos).length ∨ q ∈ fs.trailWith follow pos cs := by
  induction h generalizing cs with
  | root => exact .inr hq
  | @enter cur st entries name node hcur hdir hsearch hname hfind hlink ih =>
    rw [List.map_append, List.append_assoc, List.map_singleton, List.singleton_append] at hq
    have hle : (render cur).length ≤ (render (cur ++ [name])).length := by
      simpa using length_render_dropLast_le (cur ++ [name])
    rcases ih hq with hshort | htrail
    · exact .inl (hshort.trans hle)
    · rw [trailWith, hdir] at htrail
      simp only [name.ne_nil, name.ne_dot, name.ne_dotDot, hfind, or_self, if_false] at htrail
      rcases List.mem_cons.mp htrail with rfl | htrail
      · exact .inl (by rw [entryPath_name])
      · exact .inr htrail

/-- A walk along the path name of a reachable position goes through entries whose path names are no
longer. -/
lemma Physical.length_le_of_mem_trail {pos : List Name} (h : fs.Physical pos) {links : ℕ} {q : Str}
    (hq : q ∈ fs.trail links [] (components (render pos))) : q.length ≤ (render pos).length := by
  have hwith : ∀ {follow}, q ∈ fs.trailWith follow [] (pos.map Name.bytes) →
      q.length ≤ (render pos).length := by
    intro follow hq
    rw [← List.append_nil (pos.map Name.bytes)] at hq
    exact (h.length_le_of_mem_trailWith hq).resolve_right (by simp [trailWith])
  rw [components_render] at hq
  split_ifs at hq with hpos
  · have hnil : fs.trail links [] [[]] = [] := by cases links <;> rfl
    rw [hnil] at hq
    exact absurd hq List.not_mem_nil
  · cases links with
    | zero => exact hwith hq
    | succ links => exact hwith hq

/-- If a walk along the names of a directory's position succeeds, it has gone through the directory.

**Proof sketch.** Induction on the names. Each is the name of a directory, since the next one is
looked up in it, so it is no link, and the walk enters it or is denied the search. -/
lemma Physical.of_names {follow : List Name → List Str → Except Errno (List Name)}
    {ns cur pos : List Name} {cs : List Str} {st : Stat} {entries : List (Name × Node)}
    (hcur : fs.Physical cur) (hdir : fs.root.lookup (cur ++ ns) = some (.dir st entries))
    (hw : fs.walkWith follow cur (ns.map Name.bytes ++ cs) = .ok pos) :
    fs.Physical (cur ++ ns) := by
  induction ns generalizing cur with
  | nil => simpa using hcur
  | cons n ns ih =>
    have hlook := hdir
    rw [Node.lookup_append, Option.bind_eq_some_iff] at hlook
    obtain ⟨m, hm, hrest⟩ := hlook
    cases m with
    | file => simp [Node.lookup] at hrest
    | symlink => simp [Node.lookup] at hrest
    | dir st' es =>
      rw [Node.lookup, Option.bind_eq_some_iff] at hrest
      obtain ⟨⟨name, node⟩, hfind, hnode⟩ := hrest
      have hb : name.bytes = n.bytes := bytes_of_findEntry hfind
      obtain rfl : name = n := by cases name; cases n; simpa using hb
      have hlink : ∀ target, node ≠ .symlink target := by
        rintro target rfl
        cases ns <;> simp [Node.lookup] at hnode
      cases hs : fs.self.may st' .search with
      | true =>
        by_cases hlen : name.bytes.length ≤ fs.nameMax
        · rw [List.map_cons, List.cons_append, walkWith_enter hm hs hlen hfind hlink] at hw
          rw [List.append_cons] at hdir ⊢
          exact ih (hcur.enter hm hs hlen hfind hlink) hdir hw
        · rw [List.map_cons, List.cons_append, FileSystem.walkWith, hm] at hw
          simp [name.ne_nil, name.ne_dot, name.ne_dotDot, hs, Nat.lt_of_not_le hlen] at hw
      | false =>
        rw [List.map_cons, List.cons_append, FileSystem.walkWith, hm] at hw
        simp [name.ne_nil, hs] at hw

/-- **A walk from the root through the working directory** succeeds where the directories above
the working directory can be searched, and then ends where the walk from the working directory
ends. -/
lemma walk_cwd_eq_ok_iff {links : ℕ} {cs : List Str} {pos : List Name} :
    fs.walk links [] (fs.cwd.map Name.bytes ++ cs) = .ok pos ↔
      fs.walk links fs.cwd cs = .ok pos ∧ fs.Physical fs.cwd := by
  constructor
  · intro hw
    obtain ⟨st, es, hdir⟩ := fs.cwd_dir
    have hcwd : fs.Physical ([] ++ fs.cwd) := by
      cases links with
      | zero => exact Physical.root.of_names hdir hw
      | succ links => exact Physical.root.of_names hdir hw
    rw [List.nil_append] at hcwd
    exact ⟨hcwd.walk links cs ▸ hw, hcwd⟩
  · rintro ⟨hw, hcwd⟩
    rw [hcwd.walk, hw]

end FileSystem

end Posix
