import CloudTiering.Client.Open

/-!
# The descriptors of the wrapped `open`

`finish_open_common` works on a descriptor that the underlying call has opened already.  Five of the
calls that it makes can fail, and only behind one of them is the descriptor closed again: where the
attributes of a file that is opened with `O_TRUNC` cannot be removed.  Everywhere else `-1` is
returned and the descriptor stays open, unknown to the caller.

The calls are answered in any way, in any world: whatever other threads and processes do between two
calls is part of the answers.

* `Entry`, `Entry.call`: `open` and `openat`, with a bound on the iterations of
  `poll_file_location`.
* `Ledger`, `Ledger.record`: what the answers say about the descriptors, the location and the
  attributes.
* `LeavesNone`: a failed call leaves the descriptors as they were, and a successful one returns the
  opened descriptor of a file that has been seen local or has been cleared.
* `NothingFails`, `leavesNone_iff`: the condition, and the result.
-/

namespace CloudTiering

open Foundations

namespace Client

/-! ## The calls `open` and `openat` -/

/-- The rest of a call, with at most `n` iterations of the loop of `poll_file_location`; `none` if
the loop goes on. -/
def finishWithin : ℕ → Opening → Sys (Option (Except Errno Fd))
  | _, .done ret => return some ret
  | 0, .polling _ _ => return none
  | n + 1, .polling fd flags => do finishWithin n (← pollFileLocation fd flags)

/-- The path behind a directory's descriptor: an absolute path stands for itself, and so does every
path where the descriptor is `AT_FDCWD`. -/
def atPath (self : ℕ) (dirFd : Option ℕ) (path : Bytes) : Bytes :=
  match dirFd with
  | none => path
  | some fd => if path.head? = some 47 then path else procPidFdFdPath self fd ++ 47 :: path

/-- The two functions of `open.c`. -/
inductive Entry
  | open (path : Bytes)
  /-- `dirFd` is `none` for `AT_FDCWD`. -/
  | openat (dirFd : Option ℕ) (path : Bytes)

/-- The path that the underlying call resolves. -/
def Entry.path (self : ℕ) : Entry → Bytes
  | .open path => path
  | .openat dirFd path => atPath self dirFd path

/-- The wrapped `open` and `openat` in process `self`; `found` tells whether the library has found
the underlying call. -/
def Entry.call (n self : ℕ) (found : Bool) (stale : Bytes) (vars : Vars) (entry : Entry)
    (flags : ℕ) :
    Sys (Option (Except Errno Fd)) := do
  if found then
    let a ← openFile self stale vars (entry.path self) flags
    finishWithin n a.1
  else
    return some (.error .elibacc)

/-! ## What the answers say -/

/-- A record of the answers to the calls of one call. -/
structure Ledger where
  /-- The descriptors that are open, the last one first. -/
  held : List Fd
  /-- The descriptors of the shared memory object that are open. -/
  shm : ℕ
  /-- What the underlying call has opened. -/
  opened : Option Fd := none
  /-- The file has been observed local, or remote, since then. -/
  seenLocal : Bool := false
  seenRemote : Bool := false
  /-- The attributes that have been removed, or were missing, since then. -/
  stubCleared : Bool := false
  objectIdCleared : Bool := false
  /-- A location check, or a call for the shared queue, has failed. -/
  failed : Bool := false
  deriving DecidableEq

/-- A look at the stub attribute has been answered; behind `EPERM` there may be a second look. -/
def Ledger.looked {α : Type} (s : Ledger) (again : Bool) : Except Errno α → Ledger
  | .ok _ => { s with seenRemote := true }
  | .error errno =>
      if isLocalPredicate errno then { s with seenLocal := true }
      else if errno = .eperm ∧ again then s
      else { s with failed := true }

/-- A removal that leaves the file without the attribute. -/
def isCleared : Except Errno Unit → Bool
  | .ok _ => true
  | .error errno => errno = .enoattr

/-- The answer to a call of `init_vars_once` or `schedule_download`. -/
def Ledger.tried {α : Type} (s : Ledger) : Except Errno α → Ledger
  | .ok _ => s
  | .error _ => { s with failed := true }

/-- The record after one more answer. -/
def Ledger.record (s : Ledger) : (c : Call) → Rep c → Ledger
  | .libcOpen _ _ _, r => match r with
    | .ok fd => { held := fd :: s.held, shm := s.shm, opened := some fd }
    | .error _ => s
  | .closeFile fd, _ => { s with held := s.held.erase fd }
  | .fsetxattr fd _ _ _, r => if s.opened = some fd then s.looked true r else s
  | .fgetxattr fd _ _, r => if s.opened = some fd then s.looked true r else s
  | .getxattrProcSelf fd _, r => if s.opened = some fd then s.looked false r else s
  | .fremovexattr fd .stub, r =>
      if s.opened = some fd then { s with stubCleared := isCleared r } else s
  | .fremovexattr fd .objectId, r =>
      if s.opened = some fd then { s with objectIdCleared := isCleared r } else s
  | .shmOpen, r => match r with
    | .ok _ => { s with shm := s.shm + 1 }
    | .error _ => { s with failed := true }
  | .shmStat, r => s.tried r
  | .shmMap _, r => s.tried r
  | .queuePush _, r => s.tried r
  | _, _ => s

/-- A call answered in any world, and the record. -/
def execAnywhere (s : Ledger) (k : World × Choice) (c : Call) : Option (Rep c × Ledger) :=
  (exec k.1 k.2 c).map fun a => (a.1, s.record c a.1)

/-- The record before a call of the wrapped `open`. -/
def Ledger.before (held : List Fd) (shm : ℕ) : Ledger := { held := held, shm := shm }

/-- **No descriptor is left behind**: behind `-1` the same descriptors are open as before, and a
descriptor that is returned is the one of the underlying call, of a file observed local or
cleared. -/
def LeavesNone (before after : Ledger) : Except Errno Fd → Prop
  | .error _ => after.held = before.held ∧ after.shm = before.shm
  | .ok fd => after.opened = some fd ∧
      (after.seenLocal = true ∨ (after.stubCleared = true ∧ after.objectIdCleared = true))

/-- The condition: no location check fails, no call for the shared queue fails, and where a file is
remote and is not truncated, `init_vars_once` has not failed before. -/
def NothingFails (vars : Vars) (flags : ℕ) (after : Ledger) : Prop :=
  after.failed = false ∧
    (after.seenRemote = true → flags &&& oTrunc = oTrunc ∨ vars.once = false ∨ vars.queue = true)

/-! ## The parts of a call -/

/-- The answers, read as any. -/
def ledgerCalls : Calls Call Rep Ledger where
  pre _ _ := True
  post s c r s' := s' = s.record c r

section

variable {self : ℕ} {fd : Fd} {flags : ℕ} {vars : Vars} {s before : Ledger}

/-- One call: whatever its answer is, it is recorded. -/
theorem wp_ledger {α : Type} {c : Call} {f : Rep c → Sys α} {Q : α → Ledger → Prop}
    (h : ∀ r, (f r).wp ledgerCalls Q (s.record c r)) : Prog.wp ledgerCalls (.call c f) Q s := by
  refine ⟨trivial, ?_⟩
  rintro r _ rfl
  exact h r

/-- A look that has failed with an error: it may mean that the file is local. -/
theorem wp_looked_error {α : Type} {again : Bool} {errno : Errno} {rest : Sys (Except Errno Int)}
    {Q : Except Errno Int → Ledger → Prop} (hlocal : Q (.ok 1) { s with seenLocal := true })
    (hrest : rest.wp ledgerCalls Q
      (if errno = .eperm ∧ again then s else { s with failed := true })) :
    Prog.wp ledgerCalls (if isLocalPredicate errno then pure (.ok 1) else rest) Q
      (s.looked again (.error errno : Except Errno α)) := by
  show Prog.wp ledgerCalls _ Q (if isLocalPredicate errno then { s with seenLocal := true } else _)
  by_cases hpred : isLocalPredicate errno = true
  · rw [if_pos hpred, if_pos hpred]
    exact hlocal
  · rw [if_neg hpred, if_neg hpred]
    exact hrest

/-- What `is_local_file` finds, and what the record says then. -/
theorem wp_isLocalFile_ledger {Q : Except Errno Int → Ledger → Prop} (hs : s.opened = some fd)
    (hremote : Q (.ok 0) { s with seenRemote := true })
    (hlocal : Q (.ok 1) { s with seenLocal := true })
    (hfailed : ∀ errno, Q (.error errno) { s with failed := true }) :
    (isLocalFile fd flags).wp ledgerCalls Q s := by
  unfold isLocalFile
  split
  all_goals
    refine wp_ledger fun r => ?_
    simp only [Ledger.record, if_pos hs]
    cases r with
    | ok _ => exact hremote
    | error errno =>
      refine wp_looked_error hlocal ?_
      by_cases hperm : errno = .eperm
      · -- the second look, by the name under `/proc/self/fd`
        rw [if_pos hperm, if_pos ⟨hperm, rfl⟩]
        refine wp_ledger fun r => ?_
        simp only [Ledger.record, if_pos hs]
        cases r with
        | ok _ => exact hremote
        | error errno =>
          refine wp_looked_error hlocal ?_
          rw [if_neg fun h => Bool.false_ne_true h.2]
          exact hfailed errno
      · rw [if_neg hperm, if_neg fun h => hperm h.1]
        exact hfailed errno

/-- The results of a removal. -/
theorem removal_cases (r : Except Errno Unit) :
    (r = .ok () ∨ r = .error .enoattr) ∨ ∃ errno, errno ≠ .enoattr ∧ r = .error errno := by
  cases r with
  | ok _ => exact .inl (.inl rfl)
  | error errno =>
    by_cases he : errno = .enoattr
    · exact .inl (.inr (congrArg _ he))
    · exact .inr ⟨errno, he, rfl⟩

/-- What `clear_xattrs` returns, and what the record says then. -/
theorem wp_clearXattrs_ledger {Q : Int → Ledger → Prop} (hs : s.opened = some fd)
    (hok : Q 0 { s with stubCleared := true, objectIdCleared := true })
    (hfailed : ∀ stub objectId,
      Q (-1) { s with stubCleared := stub, objectIdCleared := objectId }) :
    (clearXattrs fd).wp ledgerCalls Q s := by
  refine wp_ledger fun r => ?_
  simp only [Ledger.record, if_pos hs]
  obtain hr | ⟨errno, he, rfl⟩ := removal_cases r
  · rcases hr with rfl | rfl
    all_goals
      refine wp_ledger fun r => ?_
      simp only [Ledger.record, if_pos hs]
      obtain (rfl | rfl) | ⟨errno, he, rfl⟩ := removal_cases r
      · exact hok
      · exact hok
      · show Prog.wp ledgerCalls (if errno ≠ .enoattr then _ else _) Q _
        rw [if_pos he]
        exact hfailed _ _
  · -- the first removal has failed, and `-1` is kept whatever the second one does
    show Prog.wp ledgerCalls (if errno ≠ .enoattr then _ else _) Q _
    rw [if_pos he]
    refine wp_ledger fun r => ?_
    simp only [Ledger.record, if_pos hs]
    obtain (rfl | rfl) | ⟨errno₂, he₂, rfl⟩ := removal_cases r
    · exact hfailed _ _
    · exact hfailed _ _
    · show Prog.wp ledgerCalls (if errno₂ ≠ .enoattr then _ else _) Q _
      rw [if_pos he₂]
      exact hfailed _ _

/-- What `init_vars_once` leaves: the queue is mapped unless it was not and a call for it has
failed. -/
theorem wp_initVarsOnce_ledger {Q : Vars → Ledger → Prop}
    (hmapped : ∀ vars' shm, vars'.queue = true → Q vars' { s with shm := shm })
    (hfailed : ∀ vars' shm, vars'.queue = false → Q vars' { s with shm := shm, failed := true }) :
    (initVarsOnce self vars).wp ledgerCalls Q s := by
  refine wp_ledger fun r => ?_
  by_cases hqueue : vars.queue = true
  · show Prog.wp ledgerCalls (if vars.queue = true then _ else _) Q _
    rw [if_pos hqueue]
    exact hmapped _ _ hqueue
  · show Prog.wp ledgerCalls (if vars.queue = true then _ else _) Q _
    rw [if_neg hqueue]
    have hnone : vars.queue = false := Bool.eq_false_iff.mpr hqueue
    refine wp_ledger fun r => ?_
    cases r with
    | error _ => exact hfailed _ _ hnone
    | ok _ =>
      refine wp_ledger fun r => ?_
      cases r with
      | error _ => exact hfailed _ _ hnone
      | ok _ =>
        refine wp_ledger fun r => ?_
        cases r with
        | error _ => exact hfailed _ _ rfl
        | ok _ => exact hmapped _ _ rfl

/-- What `schedule_download` returns: the request is made unless a call has failed, or the queue has
not been found before. -/
theorem wp_scheduleDownload_ledger {stale : Bytes} {Q : Except Errno Unit × Vars → Ledger → Prop}
    (hok : ∀ vars' shm, (vars.once = false ∨ vars.queue = true) →
      Q (.ok (), vars') { s with shm := shm })
    (hfailed : ∀ vars' shm failed, (failed = true ∨ (vars.once = true ∧ vars.queue = false)) →
      Q (.error .enomem, vars') { s with shm := shm, failed := failed }) :
    (scheduleDownload self stale vars fd).wp ledgerCalls Q s := by
  -- what `pthread_once` leaves
  let Ready (vars' : Vars) (s' : Ledger) : Prop :=
    (vars'.queue = true ∧ (vars.once = false ∨ vars.queue = true) ∧ ∃ shm,
      s' = { s with shm := shm }) ∨
    (vars'.queue = false ∧ ∃ shm failed, (failed = true ∨ (vars.once = true ∧ vars.queue = false)) ∧
      s' = { s with shm := shm, failed := failed })
  unfold scheduleDownload
  split <;> refine Prog.wp_bind.mpr (Prog.wp_mono (Q := Ready) ?_ ?_)
  next honce =>
    cases hqueue : vars.queue with
    | true => exact .inl ⟨hqueue, .inr hqueue, s.shm, rfl⟩
    | false => exact .inr ⟨hqueue, s.shm, s.failed, .inr ⟨honce, hqueue⟩, rfl⟩
  on_goal 2 =>
    rename_i hunused
    exact wp_initVarsOnce_ledger
      (fun vars' shm hqueue => .inl ⟨hqueue, .inl (Bool.eq_false_iff.mpr hunused), shm, rfl⟩)
      (fun vars' shm hqueue => .inr ⟨hqueue, shm, true, .inl rfl, rfl⟩)
  all_goals
    rintro vars' s' (⟨hqueue, honce, shm, rfl⟩ | ⟨hqueue, shm, failed, hfail, rfl⟩)
    · dsimp only
      rw [if_pos hqueue]
      refine wp_ledger fun r => ?_
      cases r with
      | ok _ => exact hok vars' shm honce
      | error _ => exact hfailed vars' shm true (.inl rfl)
    · dsimp only
      rw [if_neg (Bool.eq_false_iff.mp hqueue)]
      exact hfailed vars' shm failed hfail

/-- A descriptor has been opened, and nothing has failed so far. -/
def Midway (before : Ledger) (fd : Fd) (s : Ledger) : Prop :=
  s.held = fd :: before.held ∧ s.opened = some fd ∧ s.failed = false

/-- What is shown of a call, where it returns. -/
def Settled (vars : Vars) (flags : ℕ) (before : Ledger) (ret : Option (Except Errno Fd))
    (s : Ledger) : Prop :=
  ∀ r, ret = some r → (LeavesNone before s r ↔ NothingFails vars flags s)

/-- A descriptor that stays open behind `-1`. -/
theorem not_leavesNone {errno : Errno} (h : s.held = fd :: before.held) :
    ¬ LeavesNone before s (.error errno) := by
  rintro ⟨hheld, -⟩
  rw [h] at hheld
  exact List.cons_ne_self fd before.held hheld

/-- Behind a failure the condition does not hold. -/
theorem settled_failed {errno : Errno} (hheld : s.held = fd :: before.held)
    (hfail : ¬ NothingFails vars flags s) : Settled vars flags before (some (.error errno)) s := by
  intro r hr
  obtain rfl := Option.some.inj hr
  exact iff_of_false (not_leavesNone hheld) hfail

/-- The descriptor is returned. -/
theorem settled_ok (h : s.opened = some fd) (hfailed : s.failed = false)
    (hseen : s.seenLocal = true ∨ (s.stubCleared = true ∧ s.objectIdCleared = true))
    (hvars : s.seenRemote = true → flags &&& oTrunc = oTrunc ∨ vars.once = false ∨
      vars.queue = true) :
    Settled vars flags before (some (.ok fd)) s := by
  intro r hr
  obtain rfl := Option.some.inj hr
  exact iff_of_true ⟨h, hseen⟩ ⟨hfailed, hvars⟩

theorem finishWithin_done (n : ℕ) (ret : Except Errno Fd) :
    finishWithin n (.done ret) = pure (some ret) := by
  cases n <;> rfl

/-- The loop of `poll_file_location`. -/
theorem wp_finishWithin (hvars : flags &&& oTrunc = oTrunc ∨ vars.once = false ∨ vars.queue = true)
    {n : ℕ} :
    ∀ {s}, Midway before fd s →
      (finishWithin n (.polling fd flags)).wp ledgerCalls (Settled vars flags before) s := by
  induction n with
  | zero =>
    intro s _ r hr
    exact absurd hr.symm (Option.some_ne_none r)
  | succ n ih =>
    intro s hs
    obtain ⟨hheld, hopened, hfailed⟩ := hs
    refine Prog.wp_bind.mpr (Prog.wp_bind.mpr (wp_isLocalFile_ledger hopened ?_ ?_ ?_))
    · exact ih ⟨hheld, hopened, hfailed⟩
    · show Prog.wp ledgerCalls (finishWithin n (.done (.ok fd))) _ _
      rw [finishWithin_done]
      exact settled_ok hopened hfailed (.inl rfl) fun _ => hvars
    · intro errno
      show Prog.wp ledgerCalls (finishWithin n (.done (.error errno))) _ _
      rw [finishWithin_done]
      exact settled_failed hheld fun h => Bool.false_ne_true h.1.symm

/-- A call behind the underlying one. -/
theorem wp_finishOpenCommon_ledger {n : ℕ} {stale : Bytes} (hs : Midway before fd s)
    (hshm : s.shm = before.shm) (hremote : s.seenRemote = false) :
    (finishOpenCommon self stale vars fd flags).wp ledgerCalls
      (fun a s => (finishWithin n a.1).wp ledgerCalls (Settled vars flags before) s) s := by
  obtain ⟨hheld, hopened, hfailed⟩ := hs
  refine Prog.wp_bind.mpr (wp_isLocalFile_ledger hopened ?_ ?_ ?_)
  · show Prog.wp ledgerCalls (if flags &&& oTrunc = oTrunc then _ else _) _ _
    by_cases htrunc : flags &&& oTrunc = oTrunc
    · rw [if_pos htrunc]
      refine Prog.wp_bind.mpr (wp_clearXattrs_ledger hopened ?_ ?_)
      · show Prog.wp ledgerCalls (finishWithin n (.done (.ok fd))) _ _
        rw [finishWithin_done]
        exact settled_ok hopened hfailed (.inr ⟨rfl, rfl⟩) fun _ => .inl htrunc
      · -- the only failure behind which the descriptor is closed
        intro stub objectId
        refine wp_ledger fun r => ?_
        show Prog.wp ledgerCalls (finishWithin n (.done (.error .eio))) _ _
        rw [finishWithin_done]
        rintro ret hret
        obtain rfl := Option.some.inj hret
        refine iff_of_true ⟨?_, hshm⟩ ⟨hfailed, fun _ => .inl htrunc⟩
        show s.held.erase fd = before.held
        rw [hheld, List.erase_cons_head]
    · rw [if_neg htrunc]
      refine Prog.wp_bind.mpr (wp_scheduleDownload_ledger ?_ ?_)
      · intro vars' shm honce
        exact wp_finishWithin (.inr honce) ⟨hheld, hopened, hfailed⟩
      · intro vars' shm failed hfail
        show Prog.wp ledgerCalls (finishWithin n (.done (.error .enomem))) _ _
        rw [finishWithin_done]
        refine settled_failed hheld ?_
        rintro ⟨hnone, hvars⟩
        rcases hfail with rfl | ⟨honce, hqueue⟩
        · exact absurd hnone Bool.false_ne_true.symm
        · rcases hvars rfl with h | h | h
          · exact htrunc h
          · exact absurd (honce.symm.trans h) Bool.false_ne_true.symm
          · exact absurd (hqueue.symm.trans h) Bool.false_ne_true
  · show Prog.wp ledgerCalls (finishWithin n (.done (.ok fd))) _ _
    rw [finishWithin_done]
    exact settled_ok hopened hfailed (.inl rfl) fun h =>
      absurd (hremote.symm.trans h) Bool.false_ne_true
  · intro errno
    show Prog.wp ledgerCalls (finishWithin n (.done (.error _))) _ _
    rw [finishWithin_done]
    exact settled_failed hheld fun h => Bool.false_ne_true h.1.symm

/-- A whole call. -/
theorem wp_call_ledger {n : ℕ} {found : Bool} {stale : Bytes} {entry : Entry}
    {held : List Fd} {shm : ℕ} :
    (entry.call n self found stale vars flags).wp ledgerCalls
      (Settled vars flags (Ledger.before held shm)) (Ledger.before held shm) := by
  have herror : ∀ errno, Settled vars flags (Ledger.before held shm) (some (.error errno))
      (Ledger.before held shm) := by
    intro errno r hr
    obtain rfl := Option.some.inj hr
    exact iff_of_true ⟨rfl, rfl⟩ ⟨rfl, fun h => absurd h Bool.false_ne_true⟩
  unfold Entry.call
  cases found with
  | false => exact herror .elibacc
  | true =>
    refine Prog.wp_bind.mpr (Prog.wp_bind.mpr ⟨trivial, ?_⟩)
    rintro r _ rfl
    cases r with
    | error errno =>
      show Prog.wp ledgerCalls (finishWithin n (.done (.error errno))) _ _
      rw [finishWithin_done]
      exact herror errno
    | ok fd => exact wp_finishOpenCommon_ledger ⟨rfl, rfl, rfl⟩ rfl rfl

/-- The answers of a script are answers. -/
theorem execAnywhere_post {k : World × Choice} {c : Call} {r : Rep c} {s' : Ledger}
    (h : execAnywhere s k c = some (r, s')) : s' = s.record c r := by
  obtain ⟨a, -, heq⟩ := Option.map_eq_some_iff.mp h
  obtain ⟨rfl, rfl⟩ := Prod.mk.inj heq
  rfl

end

/-! ## The result -/

/-- **When no descriptor is left behind.**  A call of the wrapped `open` or `openat` that returns,
however its calls are answered, leaves no descriptor behind exactly if nothing fails in it. -/
theorem leavesNone_iff {n self : ℕ} {found : Bool} {stale : Bytes} {vars : Vars}
    {entry : Entry} {flags : ℕ}
    {held : List Fd} {shm : ℕ} {ks ks' : List (World × Choice)} {after : Ledger}
    {ret : Except Errno Fd}
    (hrun : (entry.call n self found stale vars flags).runWith (Prog.scripted execAnywhere)
      (Ledger.before held shm, ks) = some (some ret, (after, ks'))) :
    LeavesNone (Ledger.before held shm) after ret ↔ NothingFails vars flags after := by
  have hsettled : Settled vars flags (Ledger.before held shm) (some ret) after :=
    Prog.wp_of_runWith (K := ledgerCalls) Prod.fst
      (fun t c r t' ht => by
        obtain ⟨k, -, he⟩ := Prog.scripted_eq_some ht
        exact execAnywhere_post he)
      wp_call_ledger hrun
  exact hsettled ret rfl

/-- A remote file, and room for a request. -/
def farFile : World where
  inode _ := { stub := some [] }
  names path := if path = [102] then some 0 else none
  store _ := none
  maxRequests := 1

/-- The file has been downloaded. -/
def nearFile : World := { farFile with inode := fun _ => {} }

/-- A remote file is opened, requested, polled twice, and local. -/
theorem leavesNone_downloaded :
    ∃ after ret, ((Entry.open [102]).call 2 1 true [] {} oRdwr).runWith (Prog.scripted execAnywhere)
        (Ledger.before [] 0, [(farFile, .size 3), (farFile, .ok), (farFile, .ok), (farFile, .ok),
          (farFile, .ok), (farFile, .ok), (farFile, .ok), (farFile, .ok), (nearFile, .ok)]) =
            some (some ret, (after, [])) ∧
      ret = .ok ⟨0, 3⟩ ∧
        (LeavesNone (Ledger.before [] 0) after ret ↔ NothingFails {} oRdwr after) := by
  have hrun : ∃ after ret, ((Entry.open [102]).call 2 1 true [] {} oRdwr).runWith
      (Prog.scripted execAnywhere)
      (Ledger.before [] 0, [(farFile, .size 3), (farFile, .ok), (farFile, .ok), (farFile, .ok),
        (farFile, .ok), (farFile, .ok), (farFile, .ok), (farFile, .ok), (nearFile, .ok)]) =
          some (some ret, (after, [])) ∧
      ret = .ok ⟨0, 3⟩ := ⟨_, _, rfl, rfl⟩
  obtain ⟨after, ret, hrun, hret⟩ := hrun
  exact ⟨after, ret, hrun, hret, leavesNone_iff hrun⟩

/-- **A descriptor left behind**: the shared memory object of the queue cannot be opened. -/
theorem left_behind :
    ¬ ∀ (n self : ℕ) (found : Bool) (stale : Bytes) (vars : Vars) (entry : Entry) (flags : ℕ)
      (held : List Fd)
      (shm : ℕ) (ks ks' : List (World × Choice)) (after : Ledger) (ret : Except Errno Fd),
      (entry.call n self found stale vars flags).runWith (Prog.scripted execAnywhere)
        (Ledger.before held shm, ks) = some (some ret, (after, ks')) →
      LeavesNone (Ledger.before held shm) after ret := by
  intro h
  have hleft := h 0 1 true [] {} (.open [102]) oRdwr [] 0
    [(farFile, .size 3), (farFile, .ok), (farFile, .ok), (farFile, .fail .enoent)] [] _ _ rfl
  exact absurd hleft.1 (by decide)

end Client

end CloudTiering
