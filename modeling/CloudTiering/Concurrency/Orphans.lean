import CloudTiering.Concurrency.Attributes
import CloudTiering.Concurrency.Parties

/-!
# A lock that nobody holds

If the daemon is killed between `try_lock_file` and `unlock_file`, the lock attribute stays on the
file.  Nothing in the code takes it away again: who does not get the lock does not touch the file.
A remote file with such a lock is out of reach for good.

* `execTold`: every call may fail, but none says that an attribute is missing which is there.
* `orphanCalls`: what the threads find out about such a file, and what they must not do to it.
* `PlainOpens`: the file is not opened with `O_TRUNC`.
* `orphan_stays`: it keeps its attributes, and no call of `open` ever returns a descriptor of it.
-/

namespace CloudTiering

open Foundations App

namespace Concurrency

/-! ## The calls -/

/-- A failed look at the stub attribute does not pass for the answer that the file is local. -/
def toldTruly (w : World) : (c : Call) → Rep c → Bool
  | .fsetxattr fd .stub _ .replace, .error e | .fgetxattr fd .stub _, .error e
  | .getxattrProcSelf fd .stub, .error e =>
      !Client.isLocalPredicate e || (w.inode fd.ino).stub.isNone
  | _, _ => true

/-- Every call may fail. -/
def execTold (w : World) (ch : Choice) (c : Call) : Option (Rep c × World) :=
  (exec w ch c).filter fun a => toldTruly w c a.1

/-- What must not be done to file `i`. -/
def sparesAttributes (i : ℕ) : Call → Prop
  | .fsetxattr fd x _ flag => fd.ino = i →
      x = .stub ∧ flag = .replace ∨ x = .locked ∧ flag = .create
  | .fremovexattr fd _ => fd.ino ≠ i
  | .uploadObject .. | .downloadObject .. => False
  | _ => True

/-- What is found out about file `i`: it is locked and remote, and it is not opened with
`O_TRUNC`. -/
def foundOrphaned (i : ℕ) : (c : Call) → Rep c → Prop
  | .libcOpen _ _ flags, .ok fd => fd.ino = i → flags &&& oTrunc ≠ oTrunc
  | .fsetxattr fd .locked _ .create, .ok _ => fd.ino ≠ i
  | .fsetxattr fd .stub _ .replace, .error e | .fgetxattr fd .stub _, .error e
  | .getxattrProcSelf fd .stub, .error e =>
      fd.ino = i → Client.isLocalPredicate e = false
  | _, _ => True

/-- The reading of the calls. -/
def orphanCalls (i : ℕ) : Calls Call Rep Phase where
  pre _ c := sparesAttributes i c
  post _ c r _ := foundOrphaned i c r

/-- No descriptor of file `i` has been returned. -/
def Outcome.sparing (i : ℕ) : Outcome → Prop
  | .opened (.done (.ok fd)) _ => fd.ino ≠ i
  | _ => True

/-! ## The daemon -/

section

variable {i : ℕ} {fd : Fd} {p : Phase}

/-- A call on another file. -/
theorem triple_elsewhere_orphan {c : Call} {Q : Rep c → Phase → Prop}
    (hpre : fd.ino ≠ i → sparesAttributes i c)
    (hQ : fd.ino ≠ i → ∀ r p, Q r p) : Prog.Triple (orphanCalls i) (fun _ => fd.ino ≠ i) c Q :=
  fun _ h => ⟨hpre h, fun r p _ => hQ h r p⟩

theorem sparesAttributes_of_isTransferCall {c : Call} (hc : isTransferCall c = true) :
    sparesAttributes i c := by
  cases c <;> trivial

/-- The bytes of another file are transferred. -/
theorem wp_transfer_orphan {α : Type} {q : Sys α} {Q : α → Phase → Prop}
    (hq : q.AllCalls fun c => isTransferCall c = true)
    (hQ : ∀ a p, Q a p) : q.wp (orphanCalls i) Q p :=
  Prog.wp_mono (Prog.wp_of_allCalls_keep (I := fun _ => True) hq
    (fun _ _ hc _ => sparesAttributes_of_isTransferCall hc)
    (fun _ _ _ _ _ _ _ => trivial) trivial) fun a p _ => hQ a p

/-- An upload: it goes on with a file only if it has locked it. -/
def orphanUpload (i : ℕ) (retries : Int) (path buf : Bytes) :
    UploadOutline (orphanCalls i) (s3Ops retries) path buf fun _ _ _ => True where
  start _ := True
  opened _ _ := True
  locked fd _ := fd.ino ≠ i
  isLocal fd _ := fd.ino ≠ i
  stored fd _ := fd.ino ≠ i
  named fd _ := fd.ino ≠ i
  stubbed fd _ := fd.ino ≠ i
  sized fd _ _ := fd.ino ≠ i
  emptied fd _ _ := fd.ino ≠ i
  undo fd _ := fd.ino ≠ i
  undoStub fd _ := fd.ino ≠ i
  undoId fd _ := fd.ino ≠ i
  leaving fd _ _ _ := fd.ino ≠ i
  closing _ _ _ _ := True
  openFile := fun _ _ => ⟨trivial, fun r _ _ => by cases r <;> trivial⟩
  lock _ := fun _ _ => ⟨fun _ => .inr ⟨rfl, rfl⟩, fun r _ hr => by
    cases r with
    | ok u => exact hr
    | error e => trivial⟩
  check _ := triple_elsewhere_orphan (fun _ => trivial) fun h r _ => by
    cases r with
    | ok v => exact h
    | error e => cases e <;> exact h
  upload fd p h := wp_transfer_orphan (allCalls_s3Upload retries fd _) fun r _ => by
    split <;> exact h
  setId _ := triple_elsewhere_orphan (fun h hi => absurd hi h) fun h r _ => by cases r <;> exact h
  setStub _ := triple_elsewhere_orphan (fun h hi => absurd hi h) fun h r _ => by cases r <;> exact h
  fstat _ := triple_elsewhere_orphan (fun _ => trivial) fun h r _ => by cases r <;> exact h
  empty _ _ := triple_elsewhere_orphan (fun _ => trivial) fun h r _ => by cases r <;> exact h
  extend _ _ := triple_elsewhere_orphan (fun _ => trivial) fun h r _ => by cases r <;> exact h
  removeIdUndo _ := triple_elsewhere_orphan id fun h _ _ => h
  removeStub _ := triple_elsewhere_orphan id fun h _ _ => h
  removeId _ := triple_elsewhere_orphan id fun h _ _ => h
  unlock _ _ _ := triple_elsewhere_orphan id fun _ _ _ => trivial
  close _ _ _ := fun _ _ => ⟨trivial, fun _ _ _ => trivial⟩

/-- A download. -/
def orphanDownload (i : ℕ) (retries : Int) (path : Bytes) :
    DownloadOutline (orphanCalls i) (s3Ops retries) path fun _ _ => True where
  start _ := True
  opened _ _ := True
  locked fd _ := fd.ino ≠ i
  remote fd _ := fd.ino ≠ i
  known fd _ _ := fd.ino ≠ i
  loaded fd _ := fd.ino ≠ i
  unstubbed fd _ := fd.ino ≠ i
  leaving fd _ _ := fd.ino ≠ i
  closing _ _ _ := True
  openFile := fun _ _ => ⟨trivial, fun r _ _ => by cases r <;> trivial⟩
  lock _ := fun _ _ => ⟨fun _ => .inr ⟨rfl, rfl⟩, fun r _ hr => by
    cases r with
    | ok u => exact hr
    | error e => trivial⟩
  check _ := triple_elsewhere_orphan (fun _ => trivial) fun h r _ => by
    cases r with
    | ok v => exact h
    | error e => cases e <;> exact h
  getId _ := triple_elsewhere_orphan (fun _ => trivial) fun h r _ => by cases r <;> exact h
  download fd id p h := wp_transfer_orphan (allCalls_s3Download retries fd _) fun r _ => by
    split <;> exact h
  removeStub _ := triple_elsewhere_orphan id fun h r _ => by cases r <;> exact h
  removeId _ := triple_elsewhere_orphan id fun h r _ => by cases r <;> exact h
  unlock _ _ := triple_elsewhere_orphan id fun _ _ _ => trivial
  close _ _ := fun _ _ => ⟨trivial, fun _ _ _ => trivial⟩

/-! ## The clients -/

/-- What a location check must not return: that the file is local. -/
def NotTaken (i : ℕ) (fd : Fd) (r : Except Errno Int) : Prop := ∀ n, r = .ok n → n ≠ 0 → fd.ino ≠ i

theorem notTaken_zero : NotTaken i fd (.ok 0) := fun _ hn hne => absurd (Except.ok.inj hn).symm hne

theorem notTaken_error (e : Errno) : NotTaken i fd (.error e) := fun n hn => by cases hn

/-- An error that passes for a local file comes from another file. -/
theorem notTaken_of_local {e : Errno} (he : fd.ino = i → Client.isLocalPredicate e = false)
    (hlocal : Client.isLocalPredicate e = true) (r : Except Errno Int) :
    NotTaken i fd r := fun _ _ _ hi =>
  absurd ((he hi).symm.trans hlocal) Bool.false_ne_true

/-- What the location check does when its look has failed; `look` is what it does with the answer to
the other one. -/
theorem wp_failedLook_orphan {look : Except Errno Bytes → Sys (Except Errno Int)} {e : Errno}
    (he : fd.ino = i → Client.isLocalPredicate e = false) (hok : ∀ v, look (.ok v) = pure (.ok 0))
    (herr : ∀ e, look (.error e) =
      if Client.isLocalPredicate e = true then pure (.ok 1) else pure (.error e)) :
    Prog.wp (orphanCalls i) (if Client.isLocalPredicate e = true then pure (.ok 1)
      else if e = .eperm then sys (.getxattrProcSelf fd .stub) >>= look else pure (.error e))
      (fun r _ => NotTaken i fd r) p := by
  split
  next hlocal => exact notTaken_of_local he hlocal _
  next =>
    split
    next =>
      refine Prog.wp_bind.mpr ⟨trivial, fun r q hr => ?_⟩
      cases r with
      | ok v =>
        rw [Prog.wp, hok]
        exact notTaken_zero
      | error e =>
        rw [Prog.wp, herr]
        split
        next hlocal => exact notTaken_of_local hr hlocal _
        next => exact notTaken_error e
    next => exact notTaken_error e

/-- A file that the location check takes for local is another one. -/
theorem wp_isLocalFile_orphan {flags : ℕ} :
    (Client.isLocalFile fd flags).wp (orphanCalls i) (fun r _ => NotTaken i fd r) p := by
  unfold Client.isLocalFile
  split
  · refine Prog.wp_bind.mpr ⟨fun _ => .inl ⟨rfl, rfl⟩, fun r q hr => ?_⟩
    cases r with
    | ok v => exact notTaken_zero
    | error e => exact wp_failedLook_orphan hr (fun _ => rfl) fun _ => rfl
  · refine Prog.wp_bind.mpr (Prog.wp_bind.mpr ⟨trivial, fun r q hr => ?_⟩)
    cases r with
    | ok v => exact notTaken_zero
    | error e => exact wp_failedLook_orphan hr (fun _ => rfl) fun _ => rfl

/-- What a call of `open` must not return. -/
def Sparing (i : ℕ) (opening : Client.Opening) : Prop := ∀ fd, opening = .done (.ok fd) → fd.ino ≠ i

theorem sparing_error {r : Except Errno Fd} (h : ∀ fd, r ≠ .ok fd) : Sparing i (.done r) :=
  fun fd hfd =>
  absurd (Client.Opening.done.inj hfd) (h fd)

theorem sparing_ok (h : fd.ino ≠ i) : Sparing i (.done (.ok fd)) := by
  intro fd' hfd
  obtain rfl := Except.ok.inj (Client.Opening.done.inj hfd)
  exact h

theorem sparing_polling {flags : ℕ} : Sparing i (.polling fd flags) := fun _ hfd => nomatch hfd

theorem wp_pollFileLocation_orphan {flags : ℕ} :
    (Client.pollFileLocation fd flags).wp (orphanCalls i) (fun o _ => Sparing i o) p := by
  refine Prog.wp_bind.mpr (Prog.wp_mono wp_isLocalFile_orphan fun r q hr => ?_)
  cases r with
  | error e => exact sparing_error fun fd hfd => nomatch hfd
  | ok n =>
    show Prog.wp _ (if n = 0 then _ else _) _ _
    split
    next => exact sparing_polling
    next hn => exact sparing_ok (hr n rfl hn)

/-- `clear_xattrs` only removes attributes of its file. -/
theorem allCalls_clearXattrs : (Client.clearXattrs fd).AllCalls fun c => ∃ x,
    c = .fremovexattr fd x := by
  have hask : ∀ x, (sys (.fremovexattr fd x)).AllCalls fun c => ∃ x,
      c = .fremovexattr fd x := fun x =>
    Prog.allCalls_ask ⟨x, rfl⟩
  have hlast : ∀ {last : Except Errno Unit → Sys Int} {stubRet : Int},
      last (.ok ()) = pure stubRet →
      (∀ e, last (.error e) = if e ≠ .enoattr then pure (-1) else pure stubRet) →
      (sys (.fremovexattr fd .objectId) >>= last).AllCalls fun c => ∃ x,
          c = .fremovexattr fd x := by
    intro last stubRet hok herr
    refine .bind (hask .objectId) fun r => ?_
    cases r with
    | ok u =>
      rw [hok]
      trivial
    | error e =>
      rw [herr]
      split <;> trivial
  refine .bind (hask .stub) fun r => ?_
  cases r with
  | ok u => exact hlast rfl fun _ => rfl
  | error e =>
    dsimp only
    split
    · exact hlast rfl fun _ => rfl
    · exact hlast rfl fun _ => rfl

/-- The attributes of another file are removed. -/
theorem wp_clearXattrs_orphan (h : fd.ino ≠ i) :
    (Client.clearXattrs fd).wp (orphanCalls i) (fun _ _ => True) p := by
  refine Prog.wp_of_allCalls_keep (I := fun _ => True) allCalls_clearXattrs ?_
    (fun _ _ _ _ _ _ _ => trivial) trivial
  rintro q c ⟨x, rfl⟩ -
  exact h

theorem wp_scheduleDownload_orphan {self : ℕ} {stale : Bytes} {vars : Client.Vars}
    {Q : Except Errno Unit × Client.Vars → Phase → Prop} (hQ : ∀ a p, Q a p) :
    (Client.scheduleDownload self stale vars fd).wp (orphanCalls i) Q p := by
  refine Prog.wp_mono (Prog.wp_of_allCalls_keep (I := fun _ => True)
    (Client.allCalls_scheduleDownload self stale vars fd)
    ?_ (fun _ _ _ _ _ _ _ => trivial) trivial) fun a p _ => hQ a p
  rintro q c hc -
  cases c <;> trivial

/-- **A call of `open`** never returns a descriptor of the file. -/
theorem wp_openFile_orphan (i : ℕ) (self : ℕ) (stale : Bytes) (vars : Client.Vars) (path : Bytes)
    (flags : ℕ) :
    (Client.openFile self stale vars path flags).wp (orphanCalls i)
    (fun a _ => Sparing i a.1) p := by
  refine Prog.wp_bind.mpr ⟨trivial, fun r q hr => ?_⟩
  cases r with
  | error e => exact sparing_error fun fd hfd => nomatch hfd
  | ok fd =>
  have hplain : fd.ino = i → flags &&& oTrunc ≠ oTrunc := hr
  refine Prog.wp_bind.mpr (Prog.wp_mono wp_isLocalFile_orphan fun r q hr => ?_)
  cases r with
  | error e => exact sparing_error fun fd hfd => nomatch hfd
  | ok n =>
  show Prog.wp _ (if n ≠ 0 then _ else _) _ _
  by_cases hn : n = 0
  · rw [if_neg (not_not_intro hn)]
    by_cases htrunc : flags &&& oTrunc = oTrunc
    · have hfd : fd.ino ≠ i := fun hi => hplain hi htrunc
      rw [if_pos htrunc]
      refine Prog.wp_bind.mpr (Prog.wp_mono (wp_clearXattrs_orphan hfd) fun ret _ _ => ?_)
      split
      · exact ⟨trivial, fun _ _ _ => sparing_error fun fd hfd => nomatch hfd⟩
      · exact sparing_ok hfd
    · rw [if_neg htrunc]
      refine Prog.wp_bind.mpr (wp_scheduleDownload_orphan fun a q => ?_)
      obtain ⟨r, vars'⟩ := a
      cases r with
      | error e => exact sparing_error fun fd hfd => nomatch hfd
      | ok u => exact sparing_polling
  · rw [if_pos hn]
    exact sparing_ok (hr n rfl hn)

/-! ## The threads -/

theorem sparing_of_opening {opening : Client.Opening} {vars : Client.Vars} (h : Sparing i opening) :
    (Outcome.opened opening vars).sparing i := by
  cases opening with
  | polling fd flags => trivial
  | done ret =>
    cases ret with
    | ok fd => exact h fd rfl
    | error e => trivial

theorem wp_program_orphan (i : ℕ) {retries : Int} {a : Outcome} {p p' : Phase} {work : Work}
    {prog : Sys Outcome}
    (h : work.program (s3Ops retries) a p = some (prog, p')) :
    prog.wp (orphanCalls i) (fun a _ => a.sparing i) p' := by
  cases work with
  | uploadRoutine buf secondary =>
    obtain ⟨-, hx⟩ := Option.ite_none_left_eq_some.mp h
    obtain ⟨rfl, rfl⟩ := Prod.mk.inj (Option.some.inj hx)
    refine Prog.wp_bind.mpr (Prog.wp_bind.mpr ?_)
    cases secondary with
    | none => trivial
    | some data =>
      exact Prog.wp_bind.mpr
        (Prog.wp_bind.mpr (Prog.wp_mono ((orphanUpload i retries _ buf).sound trivial)
        fun _ _ _ => trivial))
  | downloadRoutine secondary =>
    obtain ⟨-, hx⟩ := Option.ite_none_left_eq_some.mp h
    obtain ⟨rfl, rfl⟩ := Prod.mk.inj (Option.some.inj hx)
    refine Prog.wp_bind.mpr (Prog.wp_bind.mpr ⟨trivial, fun popped q _ => ?_⟩)
    rw [Prog.wp]
    beta_reduce
    generalize popped.or secondary = data
    cases data with
    | none => trivial
    | some data =>
      exact Prog.wp_bind.mpr
        (Prog.wp_mono ((orphanDownload i retries _).sound trivial) fun _ _ _ => trivial)
  | openFile self stale vars path flags =>
    obtain ⟨-, hx⟩ := Option.ite_none_left_eq_some.mp h
    obtain ⟨rfl, rfl⟩ := Prod.mk.inj (Option.some.inj hx)
    exact Prog.wp_bind.mpr
        (Prog.wp_mono (wp_openFile_orphan i self stale vars path flags) fun _ _ h =>
      sparing_of_opening h)
  | poll =>
    cases a with
    | transferred ret => exact absurd h.symm (Option.some_ne_none _)
    | opened opening vars =>
      cases opening with
      | done ret => exact absurd h.symm (Option.some_ne_none _)
      | polling fd flags =>
        obtain ⟨rfl, rfl⟩ := Prod.mk.inj (Option.some.inj h)
        exact Prog.wp_bind.mpr (Prog.wp_mono wp_pollFileLocation_orphan fun _ _ h =>
          sparing_of_opening h)

variable {w w' : World} {ch : Choice} {c : Call} {r : Rep c}

/-- The file that a path names is opened. -/
theorem names_of_libcOpen {self : ℕ} {path : Bytes} {flags : ℕ}
    (h : exec w ch (.libcOpen self path flags) = some (.ok fd, w')) :
    w.names path = some fd.ino := by
  cases ch with
  | size n =>
    obtain ⟨-, hx⟩ := Option.ite_none_right_eq_some.mp h
    have hx := Option.some.inj hx
    unfold World.libcOpen at hx
    cases hname : w.names path with
    | none =>
      rw [hname] at hx
      exact nomatch (Prod.mk.inj hx).1
    | some j =>
      rw [hname] at hx
      obtain rfl := Except.ok.inj (Prod.mk.inj hx).1
      rfl
  | fail e => exact nomatch (Prod.mk.inj (Option.some.inj h)).1
  | _ => exact absurd h.symm (Option.some_ne_none _)

/-- **What the threads find out** about a file that is locked and remote. -/
theorem foundOrphaned_of_exec (hlocked : w.isLocked i = true)
    (hremote : (w.inode i).stub.isSome = true)
    (he : execTold w ch c = some (r, w'))
    (hplain : ∀ self path flags, c = .libcOpen self path flags → w.names path = some i →
      flags &&& oTrunc ≠ oTrunc) :
    foundOrphaned i c r := by
  obtain ⟨hexec, htold⟩ := Option.filter_eq_some_iff.mp he
  have htruly : ∀ {e : Errno}, (!Client.isLocalPredicate e || (w.inode i).stub.isNone) = true →
      Client.isLocalPredicate e = false := fun h => by
    rw [Option.isNone_eq_false_iff.mpr hremote, Bool.or_false] at h
    exact (Bool.not_eq_true' _).mp h
  cases c with
  | libcOpen self path flags =>
    cases r with
    | error e => trivial
    | ok fd => exact fun hfd => hplain self path flags rfl (hfd ▸ names_of_libcOpen hexec)
  | fsetxattr fd x v flag =>
    cases x with
    | objectId => trivial
    | stub =>
      cases flag with
      | create => trivial
      | replace =>
        cases r with
        | ok u => trivial
        | error e => exact fun hfd => htruly (hfd ▸ htold)
    | locked =>
      cases flag with
      | replace => trivial
      | create =>
        rcases exec_fsetxattr_create hexec with ⟨rfl, hnone, -⟩ | ⟨e, rfl, -, -⟩
        · rintro rfl
          rw [World.isLocked, show (w.inode fd.ino).locked = none from hnone] at hlocked
          exact Bool.false_ne_true hlocked
        · trivial
  | fgetxattr fd x n =>
    cases x with
    | stub =>
      cases r with
      | ok v => trivial
      | error e => exact fun hfd => htruly (hfd ▸ htold)
    | locked | objectId => trivial
  | getxattrProcSelf fd x =>
    cases x with
    | stub =>
      cases r with
      | ok v => trivial
      | error e => exact fun hfd => htruly (hfd ▸ htold)
    | locked | objectId => trivial
  | _ => trivial

/-- **What the threads do** leaves the attributes of a locked file. -/
theorem attributes_of_exec (hlocked : w.isLocked i = true) (hpre : sparesAttributes i c)
    (he : exec w ch c = some (r, w')) (x : Xattr) :
    ((w'.inode i).xattr x).isSome = ((w.inode i).xattr x).isSome := by
  cases c with
  | fsetxattr fd y v flag =>
    cases flag with
    | replace => exact exec_neutral rfl he i x
    | create =>
      rcases exec_fsetxattr_create he with ⟨-, hnone, rfl⟩ | ⟨e, -, rfl, -⟩
      · rw [World.xattr_setXattr_of_ne]
        rintro rfl
        rcases hpre rfl with ⟨-, hflag⟩ | ⟨rfl, -⟩
        · exact nomatch hflag
        · rw [World.isLocked, show (w.inode fd.ino).locked = none from hnone] at hlocked
          exact absurd hlocked Bool.false_ne_true
      · rfl
  | fremovexattr fd y =>
    rcases exec_fremovexattr he with ⟨-, -, rfl⟩ | ⟨e, -, rfl, -⟩
    · rw [World.xattr_setXattr_of_ne w _ fun hi => absurd hi.symm hpre]
    · rfl
  | getxattrProcSelf fd y =>
    rcases attempt_eq_some he with ⟨-, hx⟩ | ⟨e, -, hx⟩
    · rw [(Prod.mk.inj hx).2]
    · rw [(Prod.mk.inj hx).2]
  | uploadObject | downloadObject => exact hpre.elim
  | _ => exact exec_neutral rfl he i x

end

/-! ## Runs -/

/-- The file is not opened with `O_TRUNC`. -/
def PlainOpens {T : Type} (i : ℕ) (s : PartyState T) : ThreadSystem.Label T Choice Work Empty → Prop
  | .answer t _ => ∀ self path flags f, (s.thread t).prog = .call (.libcOpen self path flags) f →
      s.world.names path = some i → flags &&& oTrunc ≠ oTrunc
  | _ => True

/-- **A file whose lock nobody holds is out of reach.**  A remote file with the lock attribute keeps
its attributes, whatever the threads of the daemon and the clients do, whatever fails, and in
whatever order; and no call of `open` returns a descriptor of it, as long as it is not opened with
`O_TRUNC`. -/
theorem orphan_stays {T : Type} [DecidableEq T] {retries : Int} {i : ℕ} {w : World}
    {s : PartyState T}
    (hlocked : w.isLocked i = true) (hremote : (w.inode i).stub.isSome = true)
    (h : Reach (partySystem T execTold (fun _ _ => true) retries).step (PlainOpens i)
      (partiesAtRest T w) s) :
    (∀ x, ((s.world.inode i).xattr x).isSome = ((w.inode i).xattr x).isSome) ∧
      ∀ t fd vars, (s.thread t).prog = .ret (.opened (.done (.ok fd)) vars) → fd.ino ≠ i := by
  have hinv : (∀ x, ((s.world.inode i).xattr x).isSome = ((w.inode i).xattr x).isSome) ∧
      ThreadSystem.Checked (orphanCalls i) (fun a _ => a.sparing i) s := by
    have hrest : ThreadSystem.Checked (orphanCalls i) (fun (a : Outcome) _ => a.sparing i)
        (partiesAtRest T w) :=
      fun _ => trivial
    refine ThreadSystem.reach_inv
      (I := fun v _ => ∀ x, ((v.inode i).xattr x).isSome = ((w.inode i).xattr x).isSome) h
      (fun _ => rfl) hrest ?_ ?_ fun _ e => e.elim
    · intro s t k c f r v hI hP hprog hpre he
      have hlocked' : s.world.isLocked i = true := (hI .locked).trans hlocked
      refine ⟨foundOrphaned_of_exec hlocked' ((hI .stub).trans hremote) he ?_, fun x => ?_⟩
      · rintro self path flags rfl
        exact hP self path flags f hprog
      · exact (attributes_of_exec hlocked' hpre (Option.filter_eq_some_iff.mp he).1 x).trans (hI x)
    · intro s t work a p m hI _ _ _ hn
      exact ⟨wp_program_orphan i hn, hI⟩
  refine ⟨hinv.1, fun t fd vars hprog => ?_⟩
  have ht := hinv.2 t
  rw [hprog] at ht
  exact ht

/-- The daemon has been killed while it had a remote file locked. -/
def orphanedFile : World where
  inode _ := { data := [0], stub := some [], locked := some [], objectId := some [102] }
  names path := if path = [102] then some 0 else none
  store key := if key = [102] then some [7] else none
  maxRequests := 1

/-- `PlainOpens` as a test. -/
def plainOpens (s : PartyState Bool) : ThreadSystem.Label Bool Choice Work Empty → Bool
  | .answer t _ => match (s.thread t).prog with
    | .call (.libcOpen _ _ flags) _ => flags &&& oTrunc ≠ oTrunc
    | _ => true
  | _ => true

theorem plainOpens_sound {s : PartyState Bool}
    {l : ThreadSystem.Label Bool Choice Work Empty} (i : ℕ)
    (h : plainOpens s l = true) : PlainOpens i s l := by
  cases l with
  | answer t k =>
    intro self path flags f hprog _
    rw [plainOpens, hprog] at h
    exact of_decide_eq_true h
  | start | env => trivial

/-- A client waits, the download thread takes its request and does not get the lock, and the client
looks again. -/
def orphanedRun : List (ThreadSystem.Label Bool Choice Work Empty) :=
  .start true (.openFile 1 [] {} [102] oRdwr) ::
    [.size 3, .ok, .ok, .ok, .ok, .ok, .ok].map (.answer true) ++
    .start false (.downloadRoutine none) :: [.ok, .ok, .ok, .ok].map (.answer false) ++
    [.start true .poll, .answer true .ok]

/-- The request is gone, and the client goes on waiting. -/
theorem orphan_stays_waiting :
    ∃ s : PartyState Bool, Reach (partySystem Bool execTold (fun _ _ => true) 3).step (PlainOpens 0)
        (partiesAtRest Bool orphanedFile) s ∧
      (s.world.requests = [] ∧
        ((s.thread false).prog.result matches some (.transferred (some (-1)))) = true ∧
        ((s.thread true).prog.result matches some (.opened (.polling ..) _)) = true) ∧
      (∀ x, ((s.world.inode 0).xattr x).isSome = ((orphanedFile.inode 0).xattr x).isSome) ∧
        ∀ t fd vars, (s.thread t).prog = .ret (.opened (.done (.ok fd)) vars) → fd.ino ≠ 0 := by
  have hrun : ((run (guardedBy plainOpens (partySystem Bool execTold (fun _ _ => true) 3).step)
      (partiesAtRest Bool orphanedFile) orphanedRun).any fun s =>
        decide (s.world.requests = [] ∧
          ((s.thread false).prog.result matches some (.transferred (some (-1)))) = true ∧
          ((s.thread true).prog.result matches some (.opened (.polling ..) _)) = true)) = true := by
    decide +kernel
  obtain ⟨s, hs, hp⟩ := Reach.exists_of_guarded (fun _ _ => plainOpens_sound 0) hrun
  exact ⟨s, hs, of_decide_eq_true hp, orphan_stays rfl rfl hs⟩

end Concurrency

end CloudTiering
