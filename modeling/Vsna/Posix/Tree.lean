import Vsna.Text.Numeral

set_option relaxedAutoImplicit false
set_option autoImplicit false

/-!
# File trees

A POSIX file tree: directories with named entries, files with their contents, symbolic links.
Every file and directory has an owner, a group and twelve mode bits; what a process may do with
it depends on the class, owner, group or other, that the process falls in.

A *position* in the tree is the list of names that leads to it from the root through directories
only (`Posix.Node.lookup`); symbolic links play no part in it.

## Main definitions

* `Posix.Name` — a directory entry's name, which is neither empty nor special.
* `Posix.Stat`, `Posix.Identity`, `Posix.Identity.may` — permissions.
* `Posix.Node`, `Posix.Node.lookup` — trees and positions.
* `Posix.FileSystem` — a tree as one process sees it.
-/

namespace Posix

open Text (Str)

/-! ## Names and permissions -/

/-- The separator of path names. -/
def slash : UInt8 := 47

/-- The name of a directory in itself. -/
def dot : Str := "."

/-- The name of the parent directory. -/
def dotDot : Str := ".."

/-- The name of a directory entry: any bytes but the separator and NUL, and not one of the names
with a meaning of their own. -/
structure Name where
  bytes : Str
  ne_nil : bytes ≠ []
  no_slash : slash ∉ bytes
  no_nul : 0 ∉ bytes
  ne_dot : bytes ≠ dot
  ne_dotDot : bytes ≠ dotDot
  deriving DecidableEq

/-- Owner, group and mode bits of a file. -/
structure Stat where
  owner : ℕ
  group : ℕ
  mode : BitVec 12
  deriving DecidableEq

/-- The identity of a process. User `0` is the superuser. -/
structure Identity where
  uid : ℕ
  gid : ℕ
  groups : List ℕ
  deriving DecidableEq

/-- The accesses that path resolution and reading ask for. -/
inductive Access
  | read
  | search
  deriving DecidableEq

/-- The mode bit that grants the owner an access. -/
def Access.ownerBit : Access → BitVec 12
  | .read => 0o400#12
  | .search => 0o100#12

/-- The mode bit that grants an access to the process, according to the class it falls in. -/
def Identity.bit (self : Identity) (st : Stat) (a : Access) : BitVec 12 :=
  if self.uid = st.owner then a.ownerBit
  else if self.gid = st.group ∨ st.group ∈ self.groups then a.ownerBit >>> 3
  else a.ownerBit >>> 6

/-- Does the process have the access? The superuser has every access. -/
def Identity.may (self : Identity) (st : Stat) (a : Access) : Bool :=
  self.uid == 0 || st.mode &&& self.bit st a != 0

/-! ## Trees -/

/-- A file tree. -/
inductive Node
  | file (st : Stat) (contents : Str)
  | dir (st : Stat) (entries : List (Name × Node))
  | symlink (target : Str)

/-- The entry of a directory with a given name. -/
def findEntry (entries : List (Name × Node)) (c : Str) : Option (Name × Node) :=
  entries.find? fun e => e.1.bytes = c

/-- An entry that is found has the name it was looked for. -/
lemma bytes_of_findEntry {entries : List (Name × Node)} {c : Str} {e : Name × Node}
    (h : findEntry entries c = some e) : e.1.bytes = c := by
  simpa using List.find?_some h

/-- The node at a position, if there is one. -/
def Node.lookup : Node → List Name → Option Node
  | n, [] => some n
  | .dir _ entries, c :: cs => (findEntry entries c.bytes).bind fun e => lookup e.2 cs
  | _, _ :: _ => none

/-- The node at a position below a directory. -/
lemma Node.lookup_append (n : Node) (ps qs : List Name) :
    n.lookup (ps ++ qs) = (n.lookup ps).bind fun m => m.lookup qs := by
  induction ps generalizing n with
  | nil => simp [Node.lookup]
  | cons p ps ih =>
    cases n with
    | dir st entries =>
      rw [List.cons_append, Node.lookup, Node.lookup, Option.bind_assoc]
      congr 1
      funext e
      exact ih e.2
    | file st contents => simp [Node.lookup]
    | symlink target => simp [Node.lookup]

/-- A file tree as one process sees it: with the process's identity and its working directory,
which is a directory of the tree, and with the limits of the system on names. -/
structure FileSystem where
  /-- Owner, group and mode of the root directory. -/
  rootStat : Stat
  /-- The entries of the root directory. -/
  entries : List (Name × Node)
  /-- The identity of the process. -/
  self : Identity
  /-- `NAME_MAX`, the greatest length of a name. -/
  nameMax : ℕ
  /-- `PATH_MAX`, the greatest size of a path name, with the NUL byte at its end. -/
  pathMax : ℕ
  /-- The root directory has a path name. -/
  one_lt_pathMax : 1 < pathMax
  /-- The position of the working directory. -/
  cwd : List Name
  cwd_dir : ∃ st es, (Node.dir rootStat entries).lookup cwd = some (.dir st es)

/-- The root directory. -/
def FileSystem.root (fs : FileSystem) : Node := .dir fs.rootStat fs.entries

end Posix
