import CloudTiering.Foundations.SparseBytes
import Mathlib.Logic.Function.Basic

/-!
# Files, names, the object store

The part of the system that the daemon and the client library see through system calls: files with
their bytes and the three extended attributes of `defs.h`, the names that resolve to files, the
remote object store, and the shared primary download queue.

* `Inode`, `World`: the data.
* `World.recoverable`: the content of a file as the design means it, the local bytes of a file
  without the stub attribute, and the object named by `object_id` of a file with it.
* `cString`: the C string that starts at a buffer; `CStr`: strings that a `char *` can point to.
-/

namespace CloudTiering

open Foundations

/-- Bytes, as in a `char` buffer. -/
abbrev Bytes := List UInt8

/-- The C string at the start of a buffer: the bytes before the first `'\0'`. -/
def cString (b : Bytes) : Bytes := b.takeWhile (· != 0)

/-- A C string, without its `'\0'`. -/
def CStr := { b : Bytes // 0 ∉ b }

/-- The bytes of a C string with its `'\0'`. -/
def CStr.withNul (s : CStr) : Bytes := s.1 ++ [0]

/-- The bytes of an ASCII literal. -/
def ascii (s : String) : Bytes := s.toList.map fun c => UInt8.ofNat c.toNat

/-- The extended attributes, in the order of the `XATTRS` list. -/
inductive Xattr
  | stub | locked | objectId
  deriving DecidableEq, Repr

/-- The flag of `fsetxattr(2)`. -/
inductive XattrFlag
  | create | replace
  deriving DecidableEq, Repr

/-- The error numbers that the code tells apart, and `eio` for any other. -/
inductive Errno
  | enoattr | enotsup | erange | eperm | eexist | enoent | ebadfd | enomem | elibacc | eio
  deriving DecidableEq, Repr

/-- The status of a finished request to the object store. -/
inductive S3Status
  | ok | abortedByCallback | retryable | failed
  deriving DecidableEq, Repr

/-- `S3_status_is_retryable`. -/
def S3Status.isRetryable : S3Status → Bool
  | .retryable => true
  | _ => false

/-- A file: its bytes and the values of its extended attributes. -/
structure Inode where
  data : Bytes := []
  stub : Option Bytes := none
  locked : Option Bytes := none
  objectId : Option Bytes := none
  deriving DecidableEq, Repr

/-- The value of an attribute, if it is set. -/
def Inode.xattr (n : Inode) : Xattr → Option Bytes
  | .stub => n.stub
  | .locked => n.locked
  | .objectId => n.objectId

/-- The file with an attribute set or removed. -/
def Inode.setXattr (n : Inode) (v : Option Bytes) : Xattr → Inode
  | .stub => { n with stub := v }
  | .locked => { n with locked := v }
  | .objectId => { n with objectId := v }

@[simp] theorem Inode.data_setXattr (n : Inode) (v : Option Bytes) (x : Xattr) :
    (n.setXattr v x).data = n.data := by
  cases x <;> rfl

@[simp] theorem Inode.xattr_setXattr (n : Inode) (v : Option Bytes) (x y : Xattr) :
    (n.setXattr v x).xattr y = if y = x then v else n.xattr y := by
  cases x <;> cases y <;> rfl

/-- A descriptor: the file it refers to and its number. -/
structure Fd where
  ino : ℕ
  num : ℕ
  deriving DecidableEq, Repr

/-- The state outside the programs. -/
structure World where
  /-- The files. -/
  inode : ℕ → Inode
  /-- The names that resolve to a file, those under `/proc` included. -/
  names : Bytes → Option ℕ
  /-- The objects of the remote store, by key. -/
  store : Bytes → Option Bytes
  /-- How many descriptors the daemon has opened or duplicated; their numbers count up. -/
  opened : ℕ := 0
  /-- The numbers of the descriptors that have been closed, the last one first. -/
  closed : List ℕ := []
  /-- The elements of the primary download queue, the oldest one first. -/
  requests : List Bytes := []
  /-- The maximum size of the primary download queue. -/
  maxRequests : ℕ := 0
  /-- The size of the shared memory object with that queue. -/
  shmSize : ℕ := 4096

namespace World

/-- The world with one file changed. -/
def update (w : World) (i : ℕ) (n : Inode) : World :=
  { w with inode := Function.update w.inode i n }

@[simp] theorem inode_update_self (w : World) (i : ℕ) (n : Inode) : (w.update i n).inode i = n := by
  simp [update]

theorem inode_update_of_ne (w : World) {i j : ℕ} (n : Inode) (h : j ≠ i) :
    (w.update i n).inode j = w.inode j := by
  simp [update, h]

/-- Setting or removing an attribute changes that attribute of that file alone. -/
theorem xattr_setXattr_of_ne (w : World) {i j : ℕ} (v : Option Bytes) {x y : Xattr}
    (h : j = i → y ≠ x) :
    ((w.update i ((w.inode i).setXattr v x)).inode j).xattr y = (w.inode j).xattr y := by
  by_cases hj : j = i
  · rw [hj, inode_update_self, Inode.xattr_setXattr, if_neg (h hj)]
  · rw [inode_update_of_ne w _ hj]

theorem xattr_setXattr_self (w : World) (i : ℕ) (v : Option Bytes) (x : Xattr) :
    ((w.update i ((w.inode i).setXattr v x)).inode i).xattr x = v := by
  rw [inode_update_self, Inode.xattr_setXattr, if_pos rfl]

@[simp] theorem names_update (w : World) (i : ℕ) (n : Inode) : (w.update i n).names = w.names := rfl

@[simp] theorem store_update (w : World) (i : ℕ) (n : Inode) : (w.update i n).store = w.store := rfl

@[simp] theorem requests_update (w : World) (i : ℕ) (n : Inode) :
    (w.update i n).requests = w.requests := rfl

/-- The lock attribute of a file is set. -/
def isLocked (w : World) (i : ℕ) : Bool := (w.inode i).locked.isSome

@[simp] theorem isLocked_setLocked_self (w : World) (i : ℕ) (v : Option Bytes) :
    (w.update i ((w.inode i).setXattr v .locked)).isLocked i = v.isSome := by
  simp [isLocked, Inode.setXattr]

theorem isLocked_update_of_ne (w : World) {i j : ℕ} (n : Inode) (h : j ≠ i) :
    (w.update i n).isLocked j = w.isLocked j := by
  rw [isLocked, inode_update_of_ne w n h, isLocked]

/-- The world with an object stored under a key. -/
def put (w : World) (key obj : Bytes) : World :=
  { w with store := Function.update w.store key (some obj) }

@[simp] theorem store_put_self (w : World) (key obj : Bytes) :
    (w.put key obj).store key = some obj := by
  simp [put]

/-- The object that the `object_id` attribute of a file names. -/
def object (w : World) (i : ℕ) : Option Bytes :=
  (w.inode i).objectId.bind fun v => w.store (cString v)

/-- **The recoverable content of a file**: its local bytes as long as it is not a stub, and what
its `object_id` names once it is one. -/
def recoverable (w : World) (i : ℕ) : Option Bytes :=
  match (w.inode i).stub with
  | none => some (w.inode i).data
  | some _ => w.object i

theorem recoverable_of_stub_none {w : World} {i : ℕ} (h : (w.inode i).stub = none) :
    w.recoverable i = some (w.inode i).data := by
  rw [recoverable, h]

theorem recoverable_of_stub_some {w : World} {i : ℕ} {v : Bytes} (h : (w.inode i).stub = some v) :
    w.recoverable i = w.object i := by
  rw [recoverable, h]

end World

end CloudTiering
