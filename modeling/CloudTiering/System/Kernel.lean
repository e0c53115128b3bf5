import CloudTiering.Foundations.Program
import CloudTiering.System.World
import Mathlib.Algebra.Order.Ring.Int

/-!
# The calls and their effects

Everything that `ops.c`, `file.c`, `s3_ops.c`, `open.c` and `syms.c` ask of the system: file and
attribute system calls, `stdio`, the steps of a `libs3` request, the shared download queue.  `Call`
lists them, `Rep` says how each is answered, and `exec` gives the effect.

What a call does is nondeterministic.  The environment's `Choice` resolves it, so that a run can be
replayed from the list of choices: a call is carried out (`ok`), fails without effect (`fail`),
fails half-way (`cut`), is given a size that the other side chooses (`size`), or ends a request with
a status (`status`).  An attribute that is already there, or is missing, is not such a choice: it is
what carrying out the call finds.

The streams of `stdio` are unbuffered here: `fread` and `fwrite` act on the file when they are
called.  That is what a stream comes to where nobody else touches the file between its `fdopen` and
its `fclose`.  Where clients do, their bytes and those in the buffer have to be told apart, and
`Concurrency.evictExec` and `Concurrency.downloadExec` put the buffer in; `evictExec_fread_exec` and
`downloadExec_settled` say that they come to `exec` where it does not matter.
-/

namespace CloudTiering

open Foundations

/-- The calls. -/
inductive Call
  /-- `open(path, O_RDWR)` of the daemon. -/
  | openFile (path : Bytes)
  /-- The `open` of the C library that the wrapped `open` calls, in process `self`. -/
  | libcOpen (self : ℕ) (path : Bytes) (flags : ℕ)
  | closeFile (fd : Fd)
  | fsetxattr (fd : Fd) (x : Xattr) (value : Bytes) (flag : XattrFlag)
  | fgetxattr (fd : Fd) (x : Xattr) (size : ℕ)
  /-- `getxattr` of `/proc/self/fd/<fd>`. -/
  | getxattrProcSelf (fd : Fd) (x : Xattr)
  | fremovexattr (fd : Fd) (x : Xattr)
  | fstat (fd : Fd)
  | ftruncate (fd : Fd) (len : ℕ)
  | dup (fd : Fd)
  | fdopen (fd : Fd)
  | fclose (fd : Fd)
  /-- `fread` of at most `n` bytes from a stream that stands at `pos`. -/
  | fread (fd : Fd) (pos n : ℕ)
  /-- `fwrite` to a stream that stands at `pos`. -/
  | fwrite (fd : Fd) (pos : ℕ) (bs : Bytes)
  /-- `S3_put_object` calls the data callback with a buffer. -/
  | putBuffer
  /-- `S3_put_object` ends, having obtained these bytes. -/
  | putEnd (key got : Bytes)
  /-- `S3_get_object` starts; the object is the one stored now. -/
  | getBegin (key : Bytes)
  /-- `S3_get_object` calls the data callback with the next bytes. -/
  | getChunk
  /-- `S3_get_object` ends. -/
  | getEnd
  /-- A whole upload of the store protocol, taken as one call. -/
  | uploadObject (fd : Fd) (key : Bytes)
  /-- A whole download of the store protocol, taken as one call. -/
  | downloadObject (fd : Fd) (key : Bytes)
  /-- `getpid` in process `self`. -/
  | getpid (self : ℕ)
  /-- `shm_open`, `fstat` and `mmap` of the shared queue in `init_vars_once`; `mmap` is given a
  size. -/
  | shmOpen
  | shmStat
  | shmMap (len : ℕ)
  /-- `queue_push` and `queue_try_pop` on the primary download queue. -/
  | queuePush (data : Bytes)
  | queueTryPop
  deriving DecidableEq

/-- How the calls are answered. -/
@[reducible] def Rep : Call → Type
  | .openFile _ => Except Errno Fd
  | .libcOpen .. => Except Errno Fd
  | .closeFile _ => Except Errno Unit
  | .fsetxattr .. => Except Errno Unit
  | .fgetxattr .. => Except Errno Bytes
  | .getxattrProcSelf .. => Except Errno Bytes
  | .fremovexattr .. => Except Errno Unit
  | .fstat _ => Except Errno ℕ
  | .ftruncate .. => Except Errno Unit
  | .dup _ => Except Errno Fd
  | .fdopen _ => Except Errno Unit
  | .fclose _ => Except Errno Unit
  | .fread .. => Bytes
  | .fwrite .. => ℕ
  | .putBuffer => Except S3Status ℕ
  | .putEnd .. => S3Status
  | .getBegin _ => Except S3Status Bytes
  | .getChunk => Except S3Status ℕ
  | .getEnd => S3Status
  | .uploadObject .. => Except Errno Unit
  | .downloadObject .. => Except Errno Unit
  | .getpid _ => ℕ
  | .shmOpen => Except Errno Unit
  | .shmStat => Except Errno ℕ
  | .shmMap _ => Except Errno Unit
  | .queuePush _ => Except Errno Unit
  | .queueTryPop => Option Bytes

/-- The environment's choice at a call. -/
inductive Choice
  | ok
  | fail (e : Errno)
  | cut (e : Errno) (n : ℕ)
  | size (n : ℕ)
  | status (st : S3Status)
  deriving DecidableEq, Repr

/-- Programs over the system calls. -/
abbrev Sys (α : Type) := Prog Call Rep α

/-- Make one call. -/
def sys (c : Call) : Sys (Rep c) := Prog.ask c

/-- `O_WRONLY`, `O_RDWR` and `O_TRUNC`. -/
def oWronly : ℕ := 1
def oRdwr : ℕ := 2
def oTrunc : ℕ := 0o1000

/-- `PROC_PID_FD_FD_PATH_TEMPLATE` filled in: `"/proc/%llu/fd/%llu"`. -/
def procPidFdFdPath (pid fd : ℕ) : Bytes :=
  ascii "/proc/" ++ ascii (Nat.repr pid) ++ ascii "/fd/" ++ ascii (Nat.repr fd)

namespace World

/-- `open(path, O_RDWR)`: the next descriptor number, if the name resolves. -/
def openFile (w : World) (path : Bytes) : Except Errno Fd × World :=
  match w.names path with
  | none => (.error .enoent, w)
  | some i => (.ok ⟨i, w.opened⟩, { w with opened := w.opened + 1 })

/-- The C library's `open` in process `self`, given the unused descriptor number `n`: with `O_TRUNC`
the file is emptied, and the descriptor appears under `/proc`. -/
def libcOpen (w : World) (self n : ℕ) (path : Bytes) (flags : ℕ) : Except Errno Fd × World :=
  match w.names path with
  | none => (.error .enoent, w)
  | some i =>
      let w := if flags &&& oTrunc = oTrunc then w.update i { w.inode i with data := [] } else w
      (.ok ⟨i, n⟩,
        { w with names := Function.update w.names (procPidFdFdPath self n) (some i) })

/-- `fsetxattr`: with `XATTR_CREATE` the attribute must not be there, with `XATTR_REPLACE` it
must. -/
def fsetxattr (w : World) (i : ℕ) (x : Xattr) (v : Bytes) (flag : XattrFlag) :
    Except Errno Unit × World :=
  match flag, (w.inode i).xattr x with
  | .create, some _ => (.error .eexist, w)
  | .replace, none => (.error .enoattr, w)
  | _, _ => (.ok (), w.update i ((w.inode i).setXattr (some v) x))

/-- `fgetxattr`: size `0` only asks whether the attribute is there. -/
def fgetxattr (w : World) (i : ℕ) (x : Xattr) (size : ℕ) : Except Errno Bytes :=
  match (w.inode i).xattr x with
  | none => .error .enoattr
  | some v =>
      if size = 0 then .ok [] else if size < v.length then .error .erange else .ok v

/-- `fremovexattr`. -/
def fremovexattr (w : World) (i : ℕ) (x : Xattr) : Except Errno Unit × World :=
  match (w.inode i).xattr x with
  | none => (.error .enoattr, w)
  | some _ => (.ok (), w.update i ((w.inode i).setXattr none x))

/-- `ftruncate`. -/
def ftruncate (w : World) (i len : ℕ) : World :=
  w.update i { w.inode i with data := resize (w.inode i).data len }

/-- Bytes written into a file at a position. -/
def write (w : World) (i pos : ℕ) (bs : Bytes) : World :=
  w.update i { w.inode i with data := writeAt (w.inode i).data pos bs }

theorem write_nil (w : World) (i pos : ℕ) : w.write i pos [] = w := by
  show { w with inode := Function.update w.inode i (w.inode i) } = w
  rw [Function.update_eq_self]

theorem write_write (w : World) (i pos : ℕ) (x y : Bytes) :
    (w.write i pos x).write i (pos + x.length) y = w.write i pos (x ++ y) := by
  rw [write, write, inode_update_self, writeAt_writeAt, update, update, Function.update_idem]
  rfl

end World

/-- A call that is carried out or fails without effect. -/
def attempt {α : Type} (w : World) (good : Except Errno α × World) :
    Choice → Option (Except Errno α × World)
  | .ok => some good
  | .fail e => some (.error e, w)
  | _ => none

/-- The effect of a call under the environment's choice; `none` where the call has no such
outcome. -/
def exec (w : World) (ch : Choice) : (c : Call) → Option (Rep c × World)
  | .openFile path => attempt w (w.openFile path) ch
  | .libcOpen self path flags =>
      match ch with
      | .size n =>
          if w.names (procPidFdFdPath self n) = none then some (w.libcOpen self n path flags)
          else none
      | .fail e => some (.error e, w)
      | _ => none
  -- the descriptor is released even where `close` reports an error
  | .closeFile fd =>
      let w' := { w with closed := fd.num :: w.closed }
      attempt w' (.ok (), w') ch
  | .fsetxattr fd x v flag => attempt w (w.fsetxattr fd.ino x v flag) ch
  | .fgetxattr fd x size => attempt w (w.fgetxattr fd.ino x size, w) ch
  | .getxattrProcSelf fd x => attempt w (w.fgetxattr fd.ino x 0, w) ch
  | .fremovexattr fd x => attempt w (w.fremovexattr fd.ino x) ch
  | .fstat fd => attempt w (.ok (w.inode fd.ino).data.length, w) ch
  | .ftruncate fd len => attempt w (.ok (), w.ftruncate fd.ino len) ch
  | .dup fd => attempt w (.ok ⟨fd.ino, w.opened⟩, { w with opened := w.opened + 1 }) ch
  | .fdopen _ => attempt w (.ok (), w) ch
  | .fclose fd =>
      let w' := { w with closed := fd.num :: w.closed }
      attempt w' (.ok (), w') ch
  | .fread fd pos n =>
      match ch with
      | .ok => some (readAt (w.inode fd.ino).data pos n, w)
      | .cut _ m => some (readAt (w.inode fd.ino).data pos (min m n), w)
      | _ => none
  | .fwrite fd pos bs =>
      match ch with
      | .ok => some (bs.length, w.write fd.ino pos bs)
      | .cut _ m => some ((bs.take m).length, w.write fd.ino pos (bs.take m))
      | _ => none
  -- a buffer size is a positive `int`
  | .putBuffer =>
      match ch with
      | .size n => if 0 < n ∧ n < 2 ^ 31 then some (.ok n, w) else none
      | .status st => if st ≠ .ok then some (.error st, w) else none
      | _ => none
  | .putEnd key got =>
      match ch with
      | .ok => some (.ok, w.put key got)
      | .status st => if st ≠ .ok then some (st, w) else none
      | _ => none
  | .getBegin key =>
      match ch with
      | .ok =>
          match w.store key with
          | some obj => some (.ok obj, w)
          | none => some (.error .failed, w)
      | .status st => if st ≠ .ok then some (.error st, w) else none
      | _ => none
  | .getChunk =>
      match ch with
      | .size n => if 0 < n ∧ n < 2 ^ 31 then some (.ok n, w) else none
      | .status st => if st ≠ .ok then some (.error st, w) else none
      | _ => none
  | .getEnd =>
      match ch with
      | .ok => some (.ok, w)
      | .status st => if st ≠ .ok then some (st, w) else none
      | _ => none
  | .uploadObject fd key => attempt w (.ok (), w.put key (w.inode fd.ino).data) ch
  | .downloadObject fd key =>
      match w.store key, ch with
      | some obj, .ok => some (.ok (), w.write fd.ino 0 obj)
      | some obj, .cut e n => some (.error e, w.write fd.ino 0 (obj.take n))
      | none, .ok => some (.error .eio, w)
      | _, .fail e => some (.error e, w)
      | _, _ => none
  | .getpid self => if ch = .ok then some (self, w) else none
  | .shmOpen => attempt w (.ok (), w) ch
  | .shmStat => attempt w (.ok w.shmSize, w) ch
  -- nothing can be mapped of an object without a size
  | .shmMap len => attempt w (if len = 0 then .error .eio else .ok (), w) ch
  -- the push waits while the queue is full
  | .queuePush data =>
      match ch with
      | .ok =>
          if w.requests.length < w.maxRequests then
            some (.ok (), { w with requests := w.requests ++ [data] })
          else none
      | .fail e => some (.error e, w)
      | _ => none
  | .queueTryPop =>
      if ch = .ok then
        match w.requests with
        | [] => some (none, w)
        | r :: rs => some (some r, { w with requests := rs })
      else none

end CloudTiering
