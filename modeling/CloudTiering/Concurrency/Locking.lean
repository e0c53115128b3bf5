import CloudTiering.App.S3Outline
import CloudTiering.Foundations.Mutex
import CloudTiering.Foundations.Threads
import CloudTiering.Recovery.Content

/-!
# The lock attribute

Any number of threads run `upload_file` and `download_file`, one invocation after the other, on any
files.  Every call may fail, with one exception: an attribute that is there can be removed.  The
lock attribute of a file then works as a mutex, although it is released by hand on every path of the
two functions.

* `LockAt`, `LockAt.expects`, `LockAt.next`: where an invocation stands with respect to the lock of
  its file, and the calls it may make there.
* `wp_code`: an invocation keeps to that, on every path.
* `LockInv`: the lock attribute of a file is set exactly while one thread holds the lock.
* `LockSafe`, `reach_lockSafe`: mutual exclusion, refused invocations change nothing, and the lock
  is free once all invocations have returned.
-/

namespace CloudTiering

open Foundations App Recovery

namespace Concurrency

/-! ## Where an invocation stands -/

/-- Where an invocation stands with respect to the lock of its file. -/
inductive LockAt
  /-- About to open the file. -/
  | starting
  /-- About to try to lock it. -/
  | opened (fd : Fd)
  /-- Between the successful `try_lock_file` and the `unlock_file`. -/
  | holding (fd : Fd)
  /-- The `try_lock_file` has failed. -/
  | refused (fd : Fd)
  /-- Behind the `unlock_file`. -/
  | released (fd : Fd)
  /-- About to return, or returned. -/
  | done
  deriving DecidableEq

/-- The calls that are made while the lock is held; the `unlock_file` is one of them. -/
def isHolderCall (fd : Fd) : Call → Bool
  | .fsetxattr fd' x _ _ => fd' = fd && x ≠ .locked
  | .fgetxattr fd' _ _ => fd' = fd
  | .fremovexattr fd' _ => fd' = fd
  | .ftruncate fd' _ => fd' = fd
  | c => isTransferCall c

/-- The calls that an invocation may make. -/
def LockAt.expects : LockAt → Call → Prop
  | .starting, c => ∃ path, c = .openFile path
  | .opened fd, c => c = .fsetxattr fd .locked [] .create
  | .holding fd, c => isHolderCall fd c = true
  | .refused fd, c => c = .closeFile fd
  | .released fd, c => c = .closeFile fd
  | .done, _ => False

/-- Where the invocation stands after an answer. -/
def LockAt.next (p : LockAt) (c : Call) (r : Rep c) : LockAt :=
  match p with
  | .starting => match c, r with
    | .openFile _, .ok fd => .opened fd
    | _, _ => .done
  | .opened fd => match c, r with
    | .fsetxattr .., .ok _ => .holding fd
    | _, _ => .refused fd
  | .holding fd => match c with
    | .fremovexattr _ .locked => .released fd
    | _ => .holding fd
  | .refused _ => .done
  | .released _ => .done
  | .done => .done

/-- The calls as moves of an invocation.  Every answer is possible. -/
def lockCalls : Calls Call Rep LockAt where
  pre p c := p.expects c
  post p c r p' := p' = p.next c r

section

variable {fd : Fd} {p : LockAt}

/-- A call whose answer decides where the invocation stands next. -/
theorem triple_lockAt {c : Call} {Q : Rep c → LockAt → Prop} (hpre : p.expects c)
    (hpost : ∀ r, Q r (p.next c r)) : Prog.Triple lockCalls (fun t => t = p) c Q := by
  rintro t rfl
  refine ⟨hpre, fun r t' ht => ?_⟩
  rw [ht]
  exact hpost r

/-- A call of the holder that does not unlock the file. -/
theorem next_holding {c : Call} (hc : c ≠ .fremovexattr fd .locked) (h : isHolderCall fd c = true)
    (r : Rep c) : (LockAt.holding fd).next c r = .holding fd := by
  cases c with
  | fremovexattr fd' x =>
    obtain rfl : fd' = fd := of_decide_eq_true h
    cases x with
    | locked => exact absurd rfl hc
    | stub => rfl
    | objectId => rfl
  | _ => rfl

theorem triple_holding {c : Call} {Q : Rep c → LockAt → Prop} (hc : c ≠ .fremovexattr fd .locked)
    (h : isHolderCall fd c = true) (hQ : ∀ r, Q r (.holding fd)) :
    Prog.Triple lockCalls (fun t => t = .holding fd) c Q :=
  triple_lockAt h fun r => by
    rw [next_holding hc h r]
    exact hQ r

theorem triple_unlocking :
    Prog.Triple lockCalls (fun t => t = .holding fd) (.fremovexattr fd .locked)
      fun _ t => t = .refused fd ∨ t = .released fd :=
  triple_lockAt (by simp [LockAt.expects, isHolderCall]) fun _ => .inr rfl

theorem triple_closing :
    Prog.Triple lockCalls (fun t => t = .refused fd ∨ t = .released fd) (.closeFile fd)
      fun _ t => t = .done := by
  rintro t (rfl | rfl)
  · exact ⟨rfl, fun _ _ ht => ht⟩
  · exact ⟨rfl, fun _ _ ht => ht⟩

theorem triple_opening (path : Bytes) :
    Prog.Triple lockCalls (fun t => t = .starting) (.openFile path)
      (outcome (fun fd t => t = .opened fd) fun t => t = .done) :=
  triple_lockAt ⟨path, rfl⟩ fun r => by
    cases r <;> rfl

theorem triple_tryLock :
    Prog.Triple lockCalls (fun t => t = .opened fd) (.fsetxattr fd .locked [] .create)
      (outcome (fun _ t => t = .holding fd) fun t => t = .refused fd ∨ t = .released fd) :=
  triple_lockAt rfl fun r => by
    cases r with
    | ok u => rfl
    | error e => exact .inl rfl

theorem triple_checking :
    Prog.Triple lockCalls (fun t => t = .holding fd) (.fgetxattr fd .stub 0)
      (location (fun t => t = .holding fd) (fun t => t = .holding fd) fun t => t = .holding fd) :=
  triple_holding (by simp) (by simp [isHolderCall]) fun r => by
    cases r with
    | ok v => rfl
    | error e => cases e <;> rfl

/-- A transfer is made while the lock is held. -/
theorem wp_transfer {α : Type} {p : Sys α} {Q : α → LockAt → Prop}
    (hp : p.AllCalls fun c => isTransferCall c = true) (hQ : ∀ a, Q a (.holding fd)) :
    p.wp lockCalls Q (.holding fd) := by
  have hholder : ∀ c, isTransferCall c = true →
      isHolderCall fd c = true ∧ c ≠ .fremovexattr fd .locked := by
    intro c hc
    constructor
    · cases c <;> first | exact hc | exact absurd hc (by simp [isTransferCall])
    · rintro rfl
      exact absurd hc (by simp [isTransferCall])
  refine Prog.wp_of_allCalls hp (fun c hc => (hholder c hc).1) ?_ hQ
  rintro c r p' hc rfl
  exact next_holding (hholder c hc).2 (hholder c hc).1 r

/-- An upload and the lock. -/
def lockUpload (retries : Int) (path buf : Bytes) :
    UploadOutline lockCalls (s3Ops retries) path buf fun _ _ p => p = .done where
  start p := p = .starting
  opened fd p := p = .opened fd
  locked fd p := p = .holding fd
  isLocal fd p := p = .holding fd
  stored fd p := p = .holding fd
  named fd p := p = .holding fd
  stubbed fd p := p = .holding fd
  sized fd _ p := p = .holding fd
  emptied fd _ p := p = .holding fd
  undo fd p := p = .holding fd
  undoStub fd p := p = .holding fd
  undoId fd p := p = .holding fd
  leaving fd _ _ p := p = .holding fd
  closing fd _ _ p := p = .refused fd ∨ p = .released fd
  openFile := triple_opening path
  lock _ := triple_tryLock
  check _ := triple_checking
  upload fd p hp := by
    subst hp
    refine wp_transfer (allCalls_s3Upload retries fd _) fun r => ?_
    split <;> rfl
  setId _ := triple_holding (by simp) (by simp [isHolderCall]) fun r => by cases r <;> rfl
  setStub _ := triple_holding (by simp) (by simp [isHolderCall]) fun r => by cases r <;> rfl
  fstat _ := triple_holding (by simp) rfl fun r => by cases r <;> rfl
  empty _ _ := triple_holding (by simp) (by simp [isHolderCall]) fun r => by cases r <;> rfl
  extend _ _ := triple_holding (by simp) (by simp [isHolderCall]) fun r => by cases r <;> rfl
  removeIdUndo _ := triple_holding (by simp) (by simp [isHolderCall]) fun _ => rfl
  removeStub _ := triple_holding (by simp) (by simp [isHolderCall]) fun _ => rfl
  removeId _ := triple_holding (by simp) (by simp [isHolderCall]) fun _ => rfl
  unlock _ _ _ := triple_unlocking
  close _ _ _ := triple_closing

/-- A download and the lock. -/
def lockDownload (retries : Int) (path : Bytes) :
    DownloadOutline lockCalls (s3Ops retries) path fun _ p => p = .done where
  start p := p = .starting
  opened fd p := p = .opened fd
  locked fd p := p = .holding fd
  remote fd p := p = .holding fd
  known fd _ p := p = .holding fd
  loaded fd p := p = .holding fd
  unstubbed fd p := p = .holding fd
  leaving fd _ p := p = .holding fd
  closing fd _ p := p = .refused fd ∨ p = .released fd
  openFile := triple_opening path
  lock _ := triple_tryLock
  check _ := triple_checking
  getId _ := triple_holding (by simp) (by simp [isHolderCall]) fun r => by cases r <;> rfl
  download fd id p hp := by
    subst hp
    refine wp_transfer (allCalls_s3Download retries fd id) fun r => ?_
    split <;> rfl
  removeStub _ := triple_holding (by simp) (by simp [isHolderCall]) fun r => by cases r <;> rfl
  removeId _ := triple_holding (by simp) (by simp [isHolderCall]) fun r => by cases r <;> rfl
  unlock _ _ := triple_unlocking
  close _ _ := triple_closing

end

/-- **Every path unlocks once.**  An invocation makes only the calls that are allowed where it
stands, and where it returns it is done. -/
theorem wp_code (retries : Int) (op : Op) :
    (op.code (s3Ops retries)).wp lockCalls (fun _ p => p = .done) .starting := by
  cases op with
  | upload path buf =>
    exact Prog.wp_bind.mpr (Prog.wp_mono ((lockUpload retries path buf).sound rfl) fun _ _ h => h)
  | download path => exact (lockDownload retries path).sound rfl

/-- An invocation that is done has returned. -/
theorem exists_ret_of_done {α : Type} {p : Sys α} {Q : α → LockAt → Prop}
    (h : p.wp lockCalls Q .done) : ∃ a, p = .ret a := by
  cases p with
  | ret a => exact ⟨a, rfl⟩
  | call c k => exact h.1.elim

/-! ## Who holds the lock -/

/-- The invocation holds the lock of file `i`. -/
def LockAt.holds (i : ℕ) : LockAt → Bool
  | .holding fd => fd.ino = i
  | _ => false

/-- **The lock attribute of a file is set exactly while one thread holds the lock.** -/
structure LockInv {T : Type} (w : World) (place : T → LockAt) : Prop where
  held : HeldAreSet LockAt.holds w.isLocked place
  holder : ∀ i, w.isLocked i = true → ∃ t, (place t).holds i = true

section

variable {T : Type} {w w' : World} {place : T → LockAt} {t : T} {p : LockAt} {fd : Fd}

theorem holds_of_holding (ht : place t = .holding fd) : (place t).holds fd.ino = true := by
  rw [ht]
  exact decide_eq_true rfl

theorem LockInv.eq_of_holding {u : T} {fd' : Fd} (h : LockInv w place) (ht : place t = .holding fd)
    (hu : place u = .holding fd') (hino : fd.ino = fd'.ino) : t = u := by
  refine h.held.unique (holds_of_holding ht) ?_
  rw [hino]
  exact holds_of_holding hu

/-- Where nobody holds a lock, no lock attribute is set. -/
theorem LockInv.locked_eq_none (h : LockInv w place) (hnone : ∀ t fd, place t ≠ .holding fd)
    (i : ℕ) :
    (w.inode i).locked = none := by
  by_contra hlocked
  obtain ⟨t, ht⟩ := h.holder i (Option.isSome_iff_ne_none.mpr hlocked)
  cases hp : place t with
  | holding fd => exact hnone t fd hp
  | _ =>
    rw [hp] at ht
    exact absurd ht Bool.false_ne_true

variable [DecidableEq T]

/-- A step that neither takes nor releases a lock. -/
theorem LockInv.stay (h : LockInv w place) (hw : ∀ i, w'.isLocked i = w.isLocked i)
    (hp : ∀ i, p.holds i = (place t).holds i) : LockInv w' (Function.update place t p) := by
  refine ⟨h.held.stay (fun i hi => by rw [hw, hi]) hp, fun i hi => ?_⟩
  rw [hw] at hi
  exact exists_holder_stay (h.holder i hi) (hp i)

/-- The lock of a file that is not locked is taken. -/
theorem LockInv.lock (h : LockInv w place) (hfree : (w.inode fd.ino).locked = none)
    (hp : ∀ i, (place t).holds i = false) (v : Bytes) :
    LockInv (w.update fd.ino ((w.inode fd.ino).setXattr (some v) .locked))
      (Function.update place t (.holding fd)) := by
  have hother : ∀ i, i ≠ fd.ino → (LockAt.holding fd).holds i = (place t).holds i := by
    intro i hi
    rw [hp]
    exact decide_eq_false hi.symm
  constructor
  · refine h.held.lock (i := fd.ino) ?_ (decide_eq_true rfl) (by simp) fun i hi => ⟨?_, hother i hi⟩
    · rw [World.isLocked, hfree]
      rfl
    · exact World.isLocked_update_of_ne w _ hi
  · intro i hlocked
    by_cases hi : i = fd.ino
    · refine ⟨t, ?_⟩
      rw [Function.update_self, hi]
      exact decide_eq_true rfl
    · rw [World.isLocked_update_of_ne w _ hi] at hlocked
      exact exists_holder_stay (h.holder i hlocked) (hother i hi)

/-- The holder releases the lock. -/
theorem LockInv.unlock (h : LockInv w place) (ht : place t = .holding fd) :
    LockInv (w.update fd.ino ((w.inode fd.ino).setXattr none .locked))
      (Function.update place t (.released fd)) := by
  have hother : ∀ i, i ≠ fd.ino → (LockAt.released fd).holds i = (place t).holds i := by
    intro i hi
    rw [ht]
    exact (decide_eq_false hi.symm).symm
  constructor
  · exact h.held.unlock (holds_of_holding ht) rfl fun i hi =>
      ⟨World.isLocked_update_of_ne w _ hi, hother i hi⟩
  · intro i hlocked
    by_cases hi : i = fd.ino
    · rw [hi] at hlocked
      exact absurd hlocked (by simp)
    · rw [World.isLocked_update_of_ne w _ hi] at hlocked
      exact exists_holder_stay (h.holder i hlocked) (hother i hi)

end

/-! ## The calls -/

/-- The answer is not a failure of the removal of an attribute that is there. -/
def removes (w : World) : (c : Call) → Rep c → Bool
  | .fremovexattr fd x, r => r.isOk || ((w.inode fd.ino).xattr x).isNone
  | _, _ => true

/-- How a call is answered: everything may fail, except for the removal of an attribute that is
there. -/
def execRemoving (w : World) (ch : Choice) (c : Call) : Option (Rep c × World) :=
  (exec w ch c).filter fun a => removes w c a.1

section

variable {w w' : World} {ch : Choice} {fd : Fd}

/-- A call of the holder other than the unlocking leaves every lock attribute alone. -/
theorem locked_holderCall {c : Call} {r : Rep c} (hc : c ≠ .fremovexattr fd .locked)
    (hholder : isHolderCall fd c = true) (h : exec w ch c = some (r, w')) (i : ℕ) :
    (w'.inode i).locked = (w.inode i).locked := by
  have hset : ∀ (x : Xattr) (v : Option Bytes), x ≠ .locked →
      ((w.update fd.ino ((w.inode fd.ino).setXattr v x)).inode i).locked = (w.inode i).locked := by
    intro x v hx
    by_cases hi : i = fd.ino
    · rw [hi, World.inode_update_self]
      cases x with
      | locked => exact absurd rfl hx
      | stub => rfl
      | objectId => rfl
    · rw [World.inode_update_of_ne w _ hi]
  cases c with
  | fsetxattr fd' x v flag =>
    obtain ⟨hfd, hx⟩ := Bool.and_eq_true_iff.mp hholder
    obtain rfl : fd' = fd := of_decide_eq_true hfd
    cases flag with
    | create =>
      rcases exec_fsetxattr_create h with ⟨-, -, rfl⟩ | ⟨e, -, rfl, -⟩
      · exact hset x _ (of_decide_eq_true hx)
      · rfl
    | replace =>
      rcases exec_fsetxattr_replace h with ⟨-, -, rfl⟩ | ⟨e, -, rfl, -⟩
      · exact hset x _ (of_decide_eq_true hx)
      · rfl
  | fgetxattr fd' x n => rw [(exec_fgetxattr h).1]
  | fremovexattr fd' x =>
    obtain rfl : fd' = fd := of_decide_eq_true hholder
    rcases exec_fremovexattr h with ⟨-, -, rfl⟩ | ⟨e, -, rfl, -⟩
    · exact hset x _ fun hx => hc (by rw [hx])
    · rfl
  | ftruncate fd' n =>
    obtain rfl : fd' = fd := of_decide_eq_true hholder
    rcases exec_ftruncate h with ⟨-, rfl⟩ | ⟨e, -, -, rfl⟩
    · rw [World.ftruncate]
      by_cases hi : i = fd'.ino
      · rw [hi, World.inode_update_self]
      · rw [World.inode_update_of_ne w _ hi]
    · rfl
  | _ =>
    refine (exec_transfer ?_ h).1 i .locked
    exact hholder

theorem execRemoving_eq_some {c : Call} {r : Rep c} (h : execRemoving w ch c = some (r, w')) :
    exec w ch c = some (r, w') ∧ removes w c r = true :=
  Option.filter_eq_some_iff.mp h

theorem removes_error {x : Xattr} {e : Errno}
    (h : removes w (.fremovexattr fd x) (.error e) = true) :
    (w.inode fd.ino).xattr x = none := by
  simpa [removes, Except.isOk, Except.toBool] using h

/-- The closing of a file. -/
theorem exec_closeFile {r : Except Errno Unit} (h : exec w ch (.closeFile fd) = some (r, w')) :
    w' = { w with closed := fd.num :: w.closed } := by
  rcases attempt_eq_some h with ⟨-, hx⟩ | ⟨e, -, hx⟩
  · exact (Prod.mk.inj hx).2
  · exact (Prod.mk.inj hx).2

/-- A call that is made without the lock, and does not take it, changes neither files nor
objects. -/
theorem unchanged_of_not_holding {c : Call} {r : Rep c} {p : LockAt} (hpre : p.expects c)
    (h : exec w ch c = some (r, w')) (hbefore : ∀ fd, p ≠ .holding fd)
    (hafter : ∀ fd, p.next c r ≠ .holding fd) : w'.inode = w.inode ∧ w'.store = w.store := by
  have hclose : ∀ {fd : Fd} {r : Rep (.closeFile fd)}, exec w ch (.closeFile fd) = some (r, w') →
      w'.inode = w.inode ∧ w'.store = w.store := by
    intro fd r h
    rw [exec_closeFile h]
    exact ⟨rfl, rfl⟩
  cases p with
  | starting =>
    obtain ⟨path, rfl⟩ := hpre
    rcases exec_openFile h with ⟨i, -, -, rfl⟩ | ⟨e, -, rfl⟩
    · exact ⟨rfl, rfl⟩
    · exact ⟨rfl, rfl⟩
  | opened fd =>
    subst hpre
    rcases exec_fsetxattr_create h with ⟨rfl, -, -⟩ | ⟨e, -, rfl, -⟩
    · exact absurd rfl (hafter fd)
    · exact ⟨rfl, rfl⟩
  | holding fd => exact absurd rfl (hbefore fd)
  | refused fd =>
    subst hpre
    exact hclose h
  | released fd =>
    subst hpre
    exact hclose h
  | done => exact hpre.elim

/-- **One call of one thread.** -/
theorem LockInv.answer {T : Type} [DecidableEq T] {place : T → LockAt} {t : T}
    {c : Call} {r : Rep c}
    (h : LockInv w place) (hpre : (place t).expects c) (he : execRemoving w ch c = some (r, w')) :
    LockInv w' (Function.update place t ((place t).next c r)) := by
  obtain ⟨hexec, hremoves⟩ := execRemoving_eq_some he
  -- a call without the lock leaves it alone, unless it is the one that takes it
  have houtside : (∀ fd, place t ≠ .holding fd) → (∀ fd, (place t).next c r ≠ .holding fd) →
      LockInv w' (Function.update place t ((place t).next c r)) := by
    intro hbefore hafter
    have hnone : ∀ (p : LockAt) (i : ℕ), (∀ fd, p ≠ .holding fd) → p.holds i = false := by
      intro p i hp
      cases p with
      | holding fd => exact absurd rfl (hp fd)
      | _ => rfl
    refine h.stay (fun i => ?_) fun i => ?_
    · rw [World.isLocked, (unchanged_of_not_holding hpre hexec hbefore hafter).1, World.isLocked]
    · rw [hnone _ i hbefore, hnone _ i hafter]
  cases hp : place t with
  | opened fd =>
    rw [hp] at hpre
    subst hpre
    rcases exec_fsetxattr_create hexec with ⟨rfl, hfree, rfl⟩ | ⟨e, rfl, -, -⟩
    · exact h.lock hfree (fun i => by rw [hp]; rfl) []
    · rw [hp] at houtside
      exact houtside (by simp) (by simp [LockAt.next])
  | holding fd =>
    rw [hp] at hpre
    by_cases hc : c = .fremovexattr fd .locked
    · subst hc
      have hpresent := h.held.flag_eq_true (holds_of_holding hp)
      rcases exec_fremovexattr hexec with ⟨-, -, rfl⟩ | ⟨e, rfl, -, -⟩
      · exact h.unlock hp
      · -- the attribute is there: its removal does not fail
        rw [World.isLocked, show (w.inode fd.ino).locked = none from
          removes_error hremoves] at hpresent
        exact absurd hpresent Bool.false_ne_true
    · rw [next_holding hc hpre r]
      refine h.stay (fun i => ?_) fun i => by rw [hp]
      rw [World.isLocked, locked_holderCall hc hpre hexec i, World.isLocked]
  | starting =>
    rw [hp] at houtside
    refine houtside (by simp) fun fd => ?_
    rw [hp] at hpre
    obtain ⟨path, rfl⟩ := hpre
    cases r <;> simp [LockAt.next]
  | refused fd =>
    rw [hp] at houtside
    exact houtside (by simp) (by simp [LockAt.next])
  | released fd =>
    rw [hp] at houtside
    exact houtside (by simp) (by simp [LockAt.next])
  | done =>
    rw [hp] at hpre
    exact hpre.elim

end

/-! ## Any number of threads -/

variable {T : Type} [DecidableEq T]

/-- The threads: each starts the next invocation when the one before has returned. -/
def lockSystem (T : Type) (retries : Int) :
    ThreadSystem Call Rep Int T World Choice LockAt Op Empty where
  exec _ := execRemoving
  observe _ p c r := p.next c r
  next _ _ _ _ op := some (op.code (s3Ops retries), .starting)
  env e _ := e.elim

/-- The worlds and threads of the system. -/
abbrev LockState (T : Type) := ThreadSystem.State Call Rep Int T World LockAt

/-- What the lock attribute guarantees in a state. -/
structure LockSafe (retries : Int) (s : LockState T) : Prop where
  /-- At most one invocation is between its successful `try_lock_file` and its `unlock_file`. -/
  exclusive : ∀ t u fd fd', (s.thread t).mon = .holding fd → (s.thread u).mon = .holding fd' →
    fd.ino = fd'.ino → t = u
  /-- A call of an invocation that holds no lock, before it and after it, changes no file and no
  object. -/
  outside : ∀ t k s', (lockSystem T retries).step s (.answer t k) = some s' →
    (∀ fd, (s.thread t).mon ≠ .holding fd) → (∀ fd, (s'.thread t).mon ≠ .holding fd) →
    s'.world.inode = s.world.inode ∧ s'.world.store = s.world.store
  /-- An invocation whose `try_lock_file` has failed makes one more call, and returns. -/
  refused : ∀ t k s' fd, (lockSystem T retries).step s (.answer t k) = some s' →
    (s.thread t).mon = .refused fd → ∃ a, s'.thread t = ⟨.ret a, .done⟩
  /-- Where no invocation is in progress, no file is locked. -/
  free : (∀ t, ∃ a, (s.thread t).prog = .ret a) → ∀ i, (s.world.inode i).locked = none

/-- No invocation has been made yet. -/
def lockInitial (T : Type) (w : World) : LockState T :=
  ⟨w, fun _ => ⟨.ret 0, .done⟩⟩

/-- Where an invocation stands that has returned. -/
def Returned (_ : Int) (p : LockAt) : Prop := p = .done

section

variable {retries : Int} {s : LockState T}

theorem lockSafe_of_inv (hI : LockInv s.world s.mons)
    (hc : ThreadSystem.Checked lockCalls Returned s) : LockSafe retries s := by
  refine ⟨fun t u fd fd' ht hu hino => hI.eq_of_holding ht hu hino, ?_, ?_, ?_⟩
  · intro t k s' hs hbefore hafter
    obtain ⟨c, f, r, w, hp, he, rfl⟩ := ThreadSystem.step_answer hs
    have hwp := hc t
    rw [hp] at hwp
    refine unchanged_of_not_holding hwp.1 (execRemoving_eq_some he).1 hbefore fun fd => ?_
    simpa [ThreadSystem.State.set, lockSystem] using hafter fd
  · intro t k s' fd hs hrefused
    obtain ⟨c, f, r, w, hp, he, rfl⟩ := ThreadSystem.step_answer hs
    have hwp := hc t
    rw [hp, hrefused] at hwp
    obtain ⟨a, ha⟩ := exists_ret_of_done (Prog.wp_call hwp (r := r) rfl)
    refine ⟨a, ?_⟩
    rw [hrefused, ha]
    simp [ThreadSystem.State.set, lockSystem, LockAt.next]
  · intro hret
    refine hI.locked_eq_none fun t fd => ?_
    obtain ⟨a, ha⟩ := hret t
    have hdone := hc t
    rw [ha] at hdone
    rw [show s.mons t = .done from hdone]
    exact LockAt.noConfusion

/-- **The lock attribute is a mutex, and is always released.** -/
theorem reach_lockSafe {w : World} (hfree : ∀ i, (w.inode i).locked = none)
    (h : Reach (lockSystem T retries).step (fun _ _ => True) (lockInitial T w) s) :
    LockSafe retries s := by
  have hinv : LockInv s.world s.mons ∧ ThreadSystem.Checked lockCalls Returned s := by
    refine ThreadSystem.reach_inv h ?_ (fun _ => rfl) ?_ ?_ ?_
    · refine ⟨fun i => ⟨none, fun t => ?_, fun hs => absurd hs Bool.false_ne_true⟩, fun i hi => ?_⟩
      · simp [ThreadSystem.State.mons, lockInitial, LockAt.holds]
      · rw [lockInitial, World.isLocked, hfree i] at hi
        exact absurd hi Bool.false_ne_true
    · intro s t k c f r w' hI _ hp hpre he
      exact ⟨rfl, hI.answer hpre he⟩
    · intro s t op a p m hI _ hp hdone hn
      obtain ⟨rfl, rfl⟩ := Prod.mk.inj (Option.some.inj hn)
      refine ⟨wp_code retries op, hI.stay (fun _ => rfl) fun i => ?_⟩
      rw [show s.mons t = .done from hdone]
      rfl
    · intro s e
      exact e.elim
  exact lockSafe_of_inv hinv.1 hinv.2

end

/-- An upload holds the lock of a file that a download has tried to lock. -/
theorem lockSafe_contended :
    ∃ s : LockState Bool,
      Reach (lockSystem Bool 3).step (fun _ _ => True) (lockInitial Bool oneByteFile) s ∧
        ((s.thread false).mon = .holding ⟨0, 0⟩ ∧ (s.thread true).mon = .refused ⟨0, 1⟩) ∧
        LockSafe 3 s := by
  have hrun : ((run (lockSystem Bool 3).step (lockInitial Bool oneByteFile)
      [.start false (.upload (ascii "a") []), .answer false .ok, .answer false .ok,
        .start true (.download (ascii "a")), .answer true .ok, .answer true .ok]).any fun s =>
          (s.thread false).mon = .holding ⟨0, 0⟩ && (s.thread true).mon = .refused ⟨0, 1⟩) =
              true := by
    decide
  obtain ⟨s, hs, hp⟩ := Reach.exists_of_run (P := fun _ _ => True) (fun _ _ _ => trivial) hrun
  obtain ⟨hfirst, hsecond⟩ := Bool.and_eq_true_iff.mp hp
  exact ⟨s, hs, ⟨of_decide_eq_true hfirst, of_decide_eq_true hsecond⟩,
    reach_lockSafe (fun _ => rfl) hs⟩

end Concurrency

end CloudTiering
