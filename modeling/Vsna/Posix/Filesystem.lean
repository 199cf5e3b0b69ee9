import Vsna.Posix.Walk

set_option relaxedAutoImplicit false
set_option autoImplicit false

/-!
# File system queries

The queries of `std::filesystem` on a POSIX file tree: `status`, `exists`, `is_directory` and
`canonical`, with the errors they throw, and opening a file for reading. A path that leads
nowhere has the status "not found", which is no error; every other failure of path resolution is
thrown as a `filesystem_error`.

`canonical` makes the path absolute and gives the path name of the position it resolves to. On the
way it looks at every entry under its path name from the root, which must be shorter than
`PATH_MAX`, even where the path it was given is not. The path name it gives is a fixed point: it
resolves to the same position, and is canonical itself.

## Main definitions

* `Posix.FsError` — a `filesystem_error`.
* `Posix.FileSystem.status`, `fileExists`, `isDirectory`, `canonical` — the queries.
* `Posix.FileSystem.readFile` — opening a file and reading it.
* `Posix.FileSystem.Queryable`, `Posix.FileSystem.HasCanonical` — the paths for which `exists` and
  `canonical` do not throw.

## Main results

* `Posix.FileSystem.exists_fileExists_iff` — when the query whether a file exists does not fail.
* `Posix.FileSystem.realWalk_eq_ok_iff` — where the absolute form of a path leads.
* `Posix.FileSystem.canonical_spec`, `Posix.FileSystem.exists_canonical_iff` — what a canonical
  path is, and which paths have one.
* `Posix.FileSystem.Physical.canonical_render` — a canonical path is a fixed point.
-/

namespace Posix

open Text (Str)

/-- A `std::filesystem::filesystem_error`, with the text of its `what()`. -/
structure FsError where
  what : Str
  deriving DecidableEq

/-- The error thrown by the operation `op` on the path `p`. -/
def Errno.toFsError (e : Errno) (op p : Str) : FsError :=
  ⟨"filesystem error: " ++ op ++ ": " ++ e.message ++ " [" ++ p ++ "]"⟩

/-- The file types that the queries tell apart; links have been followed. -/
inductive FileType
  | notFound
  | regular
  | directory
  deriving DecidableEq

/-- A `std::filesystem::file_status`. -/
structure FileStatus where
  type : FileType
  /-- The permission bits; unknown if the file was not found. -/
  permissions : BitVec 12
  deriving DecidableEq

/-- The status of a node. -/
def Node.status : Node → FileStatus
  | .file st _ => ⟨.regular, st.mode⟩
  | .dir st _ => ⟨.directory, st.mode⟩
  | .symlink _ => ⟨.notFound, 0⟩

/-- The result of opening a file for reading and reading all of it. -/
inductive Opened
  /-- The file could not be opened. -/
  | closed
  /-- The file was opened, but reading it fails, as it does for a directory. -/
  | unreadable
  | contents (s : Str)
  deriving DecidableEq

namespace FileSystem

variable (fs : FileSystem)

/-- The node a path name stands for. -/
def find (p : Str) : Except Errno Node :=
  match fs.resolve p with
  | .error e => .error e
  | .ok pos =>
    match fs.root.lookup pos with
    | some n => .ok n
    | none => .error .noent

/-- `std::filesystem::status`. -/
def status (p : Str) : Except FsError FileStatus :=
  match fs.find p with
  | .ok n => .ok n.status
  | .error .noent => .ok ⟨.notFound, 0⟩
  | .error .notdir => .ok ⟨.notFound, 0⟩
  | .error e => .error (e.toFsError "status" p)

/-- `std::filesystem::exists`. -/
def fileExists (p : Str) : Except FsError Bool := (fs.status p).map fun st => st.type != .notFound

/-- `std::filesystem::is_directory`. -/
def isDirectory (p : Str) : Except FsError Bool :=
  (fs.status p).map fun st => st.type == .directory

/-- `std::filesystem::absolute`. -/
def absolute (p : Str) : Str := if isAbsolute p then p else render fs.cwd ++ slash :: p

/-- The walk along the absolute form of a path. -/
def realWalk (p : Str) : Except Errno (List Name) :=
  fs.walk maxLinks [] (components (cString (fs.absolute p)))

/-- The path names of the entries that the walk along the absolute form of a path goes through. -/
def realTrail (p : Str) : List Str := fs.trail maxLinks [] (components (cString (fs.absolute p)))

/-- `std::filesystem::canonical`. The path itself may have any length; but each entry on the way is
looked at under its path name from the root, which must not be too long. -/
def canonical (p : Str) : Except FsError Str :=
  match fs.realWalk p with
  | .error e => .error (e.toFsError "cannot make canonical path" p)
  | .ok pos =>
    if ∀ q ∈ fs.realTrail p, q.length < fs.pathMax then .ok (render pos)
    else .error (Errno.nametoolong.toFsError "cannot make canonical path" p)

/-- Open a file for reading, and read it. -/
def readFile (p : Str) : Opened :=
  match fs.find p with
  | .ok (.file st contents) => if fs.self.may st .read then .contents contents else .closed
  | .ok (.dir st _) => if fs.self.may st .read then .unreadable else .closed
  | _ => .closed

variable {fs}

/-- What is found is the node at the position that the path name resolves to. -/
lemma resolve_of_find {p : Str} {n : Node} (h : fs.find p = .ok n) :
    cString p ≠ [] ∧ ∃ pos, fs.resolve p = .ok pos ∧ fs.root.lookup pos = some n := by
  unfold find at h
  split at h
  · cases h
  · next pos hpos =>
    refine ⟨fun hp => by simp [resolve, hp] at hpos, pos, hpos, ?_⟩
    split at h
    · next m hm => rw [hm]; simpa using h
    · cases h

/-- What has the status of a directory is one. -/
lemma find_of_status {p : Str} {perms : BitVec 12}
    (h : fs.status p = .ok ⟨.directory, perms⟩) :
    ∃ st es, fs.find p = .ok (.dir st es) ∧ st.mode = perms := by
  unfold status at h
  split at h
  · next n hn =>
    cases n with
    | dir st es => exact ⟨st, es, hn, by simpa [Node.status] using h⟩
    | file st contents => simp [Node.status] at h
    | symlink target => simp [Node.status] at h
  · simp at h
  · simp at h
  · simp at h

/-- What is found has been asked for by a path name that is not too long. -/
lemma length_lt_of_resolve {p : Str} {pos : List Name} (h : fs.resolve p = .ok pos) :
    (cString p).length < fs.pathMax := by
  by_contra hle
  unfold resolve at h
  rw [if_pos (Nat.le_of_not_lt hle)] at h
  split_ifs at h

/-! ## Queries that do not fail -/

/-- The path leads somewhere, or nowhere: its resolution fails for no other reason. -/
def Queryable (fs : FileSystem) (p : Str) : Prop :=
  ∀ e, fs.resolve p = .error e → e = .noent ∨ e = .notdir

/-- The query whether a file exists does not fail exactly for such a path. -/
lemma exists_fileExists_iff {p : Str} : (∃ b, fs.fileExists p = .ok b) ↔ fs.Queryable p := by
  unfold fileExists status find Queryable
  cases hres : fs.resolve p with
  | ok pos =>
    refine iff_of_true ?_ (by simp)
    dsimp only
    cases fs.root.lookup pos with
    | none => exact ⟨_, rfl⟩
    | some n => exact ⟨_, rfl⟩
  | error e =>
    cases e with
    | noent => exact iff_of_true ⟨_, rfl⟩ (by simp)
    | notdir => exact iff_of_true ⟨_, rfl⟩ (by simp)
    | _ => exact iff_of_false (by simp [Except.map]) (by simp)

/-! ## Canonical paths -/

/-- The components of a relative path below a directory's path name are the names of the
directory, then the components of the path. -/
lemma components_append (pos : List Name) {p : Str} (hp : p ≠ []) :
    components (render pos ++ slash :: p) = pos.map Name.bytes ++ components p := by
  have hlast : (render pos ++ slash :: p).getLast? = p.getLast? := by
    rw [List.getLast?_append_of_ne_nil _ (by simp), List.getLast?_cons_of_ne_nil hp]
  have hsplit : ((render pos).splitOn slash).filter (· ≠ []) = pos.map Name.bytes := by
    cases pos with
    | nil => rfl
    | cons n ns =>
      rw [render, splitOn_flatMap, List.filter_cons_of_neg (by simp), filter_names]
  rw [components, components, hlast, ← List.append_assoc, ← hsplit]
  congr 1
  simp only [List.splitOn_eq_splitOnP]
  rw [List.splitOnP_append_cons _ _ (by simp), List.filter_append]

/-- Where the walk along the absolute form of a path ends: if the path is relative, the directories
above the working directory must be searched too. -/
lemma realWalk_eq_ok_iff {p : Str} {pos : List Name} (hp : cString p ≠ [])
    (hlen : (cString p).length < fs.pathMax) :
    fs.realWalk p = .ok pos ↔
      fs.resolve p = .ok pos ∧ (isAbsolute p = true ∨ fs.Physical fs.cwd) := by
  have hres : fs.resolve p = fs.walk maxLinks (if isAbsolute (cString p) then [] else fs.cwd)
      (components (cString p)) := by
    rw [resolve, if_neg hp, if_neg (Nat.not_le.mpr hlen)]
  unfold realWalk absolute
  split_ifs with habs
  · have habs' : isAbsolute (cString p) = true := by
      cases p with
      | nil => simp [isAbsolute] at habs
      | cons b p =>
        obtain rfl : b = slash := by simpa [isAbsolute] using habs
        simp [cString, isAbsolute, show (slash != 0) = true by decide]
    simp [hres, habs', habs]
  · have hcut : cString (render fs.cwd ++ slash :: p) = render fs.cwd ++ slash :: cString p := by
      have hr := List.takeWhile_eq_self_iff.mp (cString_render fs.cwd)
      rw [cString, List.takeWhile_append_of_pos hr, List.takeWhile_cons_of_pos (by decide)]
      rfl
    have hrel : isAbsolute (cString p) = false := by
      cases p with
      | nil => rfl
      | cons b p =>
        cases hb : b != 0 with
        | true => simpa [cString, hb, isAbsolute] using habs
        | false => simp [cString, hb, isAbsolute]
    rw [hcut, components_append _ hp, walk_cwd_eq_ok_iff, hres, hrel]
    simp [habs]

/-- The path has a canonical form, if it leads somewhere: if it is relative, the directories above
the working directory can be searched too, and no entry on the way has a path name that is too
long. -/
structure HasCanonical (fs : FileSystem) (p : Str) : Prop where
  searchable : isAbsolute p = true ∨ fs.Physical fs.cwd
  short : ∀ q ∈ fs.realTrail p, q.length < fs.pathMax

/-- **What a canonical path is**: the path name of the position the path stands for, whose
ancestors the process can search. It is not too long. -/
lemma canonical_spec {p q : Str} {pos : List Name} (hp : cString p ≠ [])
    (hres : fs.resolve p = .ok pos) (h : fs.canonical p = .ok q) :
    q = render pos ∧ fs.Physical pos ∧ (render pos).length < fs.pathMax := by
  unfold canonical at h
  split at h
  · simp at h
  · next pos' hwalk =>
    split_ifs at h with hshort
    obtain rfl : pos = pos' := by
      have := ((realWalk_eq_ok_iff hp (length_lt_of_resolve hres)).mp hwalk).1
      exact Except.ok.inj (hres.symm.trans this)
    have hroot : (render []).length < fs.pathMax := fs.one_lt_pathMax
    exact ⟨(Except.ok.inj h).symm, Physical.root.of_walk hwalk,
      length_render_lt_of_walk fs.one_lt_pathMax hroot hshort hwalk⟩

/-- Which paths to a node have a canonical form. -/
lemma exists_canonical_iff {p : Str} {n : Node} (h : fs.find p = .ok n) :
    (∃ q, fs.canonical p = .ok q) ↔ fs.HasCanonical p := by
  obtain ⟨hp, pos, hpos, -⟩ := resolve_of_find h
  have hiff : ∀ pos', _ ↔ _ := fun pos' =>
    @realWalk_eq_ok_iff fs p pos' hp (length_lt_of_resolve hpos)
  unfold canonical
  constructor
  · rintro ⟨q, hq⟩
    split at hq
    · simp at hq
    · next pos' hwalk =>
      split_ifs at hq with hshort
      exact ⟨((hiff pos').mp hwalk).2, hshort⟩
  · rintro ⟨hsearch, hshort⟩
    rw [(hiff pos).mpr ⟨hpos, hsearch⟩]
    exact ⟨render pos, if_pos hshort⟩

/-- A directory whose path name is too long, here by a limit of six bytes, has no canonical path,
though a short path leads to it. -/
example :
    let srv : Name := ⟨"srv", by decide, by decide, by decide, by decide, by decide⟩
    let www : Name := ⟨"www", by decide, by decide, by decide, by decide, by decide⟩
    let own : Stat := ⟨1000, 1000, 0o700⟩
    let fs : FileSystem := ⟨⟨0, 0, 0o755⟩, [(srv, .dir own [(www, .dir own [])])],
      ⟨1000, 1000, []⟩, 14, 6, by decide, [srv], _, _, rfl⟩
    fs.status "www" = .ok ⟨.directory, 0o700⟩ ∧ fs.canonical "www" =
      .error ⟨"filesystem error: cannot make canonical path: File name too long [www]"⟩ := by
  decide +kernel

/-- **The path name of a reachable position is canonical**, if it is not too long. -/
lemma Physical.canonical_render {pos : List Name} (h : fs.Physical pos)
    (hlen : (render pos).length < fs.pathMax) : fs.canonical (render pos) = .ok (render pos) := by
  have habs : cString (fs.absolute (render pos)) = render pos := by
    rw [absolute, if_pos (isAbsolute_render pos), cString_render]
  have hwalk : fs.realWalk (render pos) = .ok pos := by
    rw [realWalk, habs]
    exact h.walk_components maxLinks
  have hshort : ∀ q ∈ fs.realTrail (render pos), q.length < fs.pathMax := by
    intro q hq
    rw [realTrail, habs] at hq
    exact (h.length_le_of_mem_trail hq).trans_lt hlen
  rw [canonical, hwalk]
  exact if_pos hshort

end FileSystem

end Posix
