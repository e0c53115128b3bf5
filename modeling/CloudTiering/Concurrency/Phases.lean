import CloudTiering.App.ObjectId
import CloudTiering.App.S3Outline
import CloudTiering.Client.Open
import CloudTiering.Daemon.Transfer
import CloudTiering.System.Answers

/-!
# How far the parties are

Where many threads of the daemon and many clients work on the same files, an argument about all of
them needs to know of each how far it is in its program.  A *phase* is what the calls and answers so
far say about that, as far as attributes, locks and requests are concerned.

* `succeeds`, `execOk`: the runs in which no call fails, except that an attribute is already there
  or is missing.
* `Phase`, `Phase.expects`, `Phase.next`: the phases, the calls a thread in a phase may make, and
  the phase after an answer.
* `phaseCalls`: the reading of the calls as moves between phases.
* `wp_uploadFile`, `wp_downloadFile`, `wp_openFile`, `wp_pollFileLocation` and the routines of the
  daemon: the programs keep to their phases.
-/

namespace CloudTiering

open Foundations App

namespace Concurrency

/-! ## Runs in which nothing fails -/

/-- The answer is not a failure.  An attribute that is already there, or is missing, is none. -/
def succeeds : (c : Call) → Rep c → Bool
  | .openFile _, r => r.isOk
  | .libcOpen .., r => r.isOk
  | .closeFile _, r => r.isOk
  | .fsetxattr _ _ _ flag, r => match r with
    | .ok _ => true
    | .error e => e = if flag = .create then .eexist else .enoattr
  | .fgetxattr .., r => match r with
    | .ok _ => true
    | .error e => e = .enoattr
  | .getxattrProcSelf .., r => match r with
    | .ok _ => true
    | .error e => e = .enoattr
  | .fremovexattr .., r => match r with
    | .ok _ => true
    | .error e => e = .enoattr
  | .fstat _, r => r.isOk
  | .ftruncate .., r => r.isOk
  | .dup _, r => r.isOk
  | .fdopen _, r => r.isOk
  | .fclose _, r => r.isOk
  | .fread .., _ => true
  | .fwrite _ _ bs, r => r = bs.length
  | .putBuffer, r => match r with
    | .ok n => 0 < n && n < 2 ^ 31
    | .error _ => false
  | .putEnd .., r => r = .ok
  | .getBegin _, r => match r with
    | .ok _ => true
    | .error _ => false
  | .getChunk, r => match r with
    | .ok n => 0 < n && n < 2 ^ 31
    | .error _ => false
  | .getEnd, r => r = .ok
  | .uploadObject .., r => r.isOk
  | .downloadObject .., r => r.isOk
  | .getpid self, r => r = self
  | .shmOpen, r => r.isOk
  | .shmStat, r => r.isOk
  | .shmMap _, r => r.isOk
  | .queuePush _, r => r.isOk
  | .queueTryPop, _ => true

/-- A call that is carried out and does not fail. -/
def execOk (w : World) (ch : Choice) (c : Call) : Option (Rep c × World) :=
  if CarriedOut ch then (exec w ch c).filter fun a => succeeds c a.1 else none

theorem execOk_eq_some {w w' : World} {ch : Choice} {c : Call} {r : Rep c}
    (h : execOk w ch c = some (r, w')) :
    CarriedOut ch = true ∧ exec w ch c = some (r, w') ∧ succeeds c r = true := by
  unfold execOk at h
  split at h
  · obtain ⟨he, hs⟩ := Option.filter_eq_some_iff.mp h
    exact ⟨‹_›, he, hs⟩
  · exact absurd h (by simp)

/-! ## Phases -/

/-- How far a thread is. -/
inductive Phase
  /-- Outside, or in code that touches neither attributes nor requests. -/
  | outside
  /-- About to look into the primary download queue, and into the secondary one if that is empty. -/
  | popping (secondary : Option Bytes)
  /-- About to open a file in order to upload (`true`) or download it. -/
  | starting (up : Bool) (path : Bytes)
  | locking (up : Bool) (fd : Fd)
  /-- The file is locked: about to check its location. -/
  | checking (up : Bool) (fd : Fd)
  /-- Uploading the bytes of a local file; then about to set `object_id`. -/
  | storing (fd : Fd)
  /-- `object_id` has been set: about to set the stub attribute. -/
  | named (fd : Fd)
  /-- The stub attribute could not be set: about to remove `object_id` again. -/
  | unnaming (fd : Fd)
  /-- The stub attribute has been set: the file is emptied and extended. -/
  | stubbed (fd : Fd)
  /-- About to read the `object_id` of a remote file. -/
  | asking (fd : Fd)
  /-- Downloading the object; then about to remove the stub attribute. -/
  | loading (fd : Fd)
  /-- The stub attribute has been removed: about to remove `object_id`. -/
  | unstubbed (fd : Fd)
  | unlocking (fd : Fd)
  | closing (fd : Fd)
  /-- In the wrapped `open` of process `self`, which puts `pid` into its requests: about to call the
  `open` of the C library. -/
  | entering (self pid : ℕ) (path : Bytes) (flags : ℕ)
  /-- About to check the location. -/
  | looking (pid : ℕ) (fd : Fd) (flags : ℕ)
  /-- The file is remote and will be truncated: about to remove the stub attribute. -/
  | clearing (fd : Fd)
  /-- About to remove `object_id`. -/
  | clearingId (fd : Fd)
  /-- The file is remote: about to push a request. -/
  | scheduling (pid : ℕ) (fd : Fd) (flags : ℕ)
  /-- In `poll_file_location`. -/
  | polling (pid : ℕ) (fd : Fd) (flags : ℕ)
  deriving DecidableEq

/-- The call of the location check of the library. -/
def isLookCall (fd : Fd) : Call → Prop
  | .fsetxattr fd' x v flag => fd' = fd ∧ x = .stub ∧ v = [] ∧ flag = .replace
  | .fgetxattr fd' x n => fd' = fd ∧ x = .stub ∧ n = 0
  | _ => False

/-- The calls in front of the push of a request. -/
def isSetupCall (pid : ℕ) : Call → Bool
  | .getpid self => self = pid
  | .shmOpen | .shmStat | .shmMap _ => true
  | _ => false

/-- The calls that a thread in a phase may make. -/
def Phase.expects : Phase → Call → Prop
  | .outside, _ => False
  | .popping _, c => c = .queueTryPop
  | .starting _ path, c => c = .openFile path
  | .locking _ fd, c => c = .fsetxattr fd .locked [] .create
  | .checking _ fd, c => c = .fgetxattr fd .stub 0
  | .storing fd, c =>
      isTransferCall c = true ∨ (∃ v, c = .fsetxattr fd .objectId v .create) ∨
        c = .fremovexattr fd .locked
  | .named fd, c => c = .fsetxattr fd .stub [] .create
  | .unnaming fd, c => c = .fremovexattr fd .objectId
  | .stubbed fd, c => c = .fstat fd ∨ (∃ n, c = .ftruncate fd n) ∨ c = .fremovexattr fd .locked
  | .asking fd, c => ∃ n, n ≠ 0 ∧ c = .fgetxattr fd .objectId n
  | .loading fd, c => isTransferCall c = true ∨ c = .fremovexattr fd .stub
  | .unstubbed fd, c => c = .fremovexattr fd .objectId
  | .unlocking fd, c => c = .fremovexattr fd .locked
  | .closing fd, c => c = .closeFile fd
  | .entering self _ path flags, c => c = .libcOpen self path flags
  | .looking _ fd _, c => isLookCall fd c
  | .clearing fd, c => c = .fremovexattr fd .stub
  | .clearingId fd, c => c = .fremovexattr fd .objectId
  | .scheduling pid fd _, c =>
      isSetupCall pid c = true ∨ ∃ stale, c = .queuePush (Client.downloadRequest pid fd.num stale)
  | .polling _ fd _, c => isLookCall fd c

/-- The phase after the location check of the library: the answer says that the file is remote, or
that it is local. -/
def afterLook (remote here : Phase) : (c : Call) → Rep c → Phase
  | .fsetxattr .., r => if r.isOk then remote else here
  | .fgetxattr .., r => if r.isOk then remote else here
  | _, _ => here

theorem afterLook_cases (remote here : Phase) (c : Call) (r : Rep c) :
    afterLook remote here c r = remote ∨ afterLook remote here c r = here := by
  cases c with
  | fsetxattr fd x v flag => cases r <;> simp [afterLook, Except.isOk, Except.toBool]
  | fgetxattr fd x n => cases r <;> simp [afterLook, Except.isOk, Except.toBool]
  | _ => exact .inr rfl

/-- The phase after an answer. -/
def Phase.next (p : Phase) (c : Call) (r : Rep c) : Phase :=
  match p with
  | .outside => .outside
  | .popping secondary => match c, r with
    | .queueTryPop, popped => match popped.or secondary with
      | some data => .starting false (cString data)
      | none => .outside
    | _, _ => p
  | .starting up _ => match c, r with
    | .openFile _, .ok fd => .locking up fd
    | _, _ => .outside
  | .locking up fd => match c, r with
    | .fsetxattr .., .ok _ => .checking up fd
    | _, _ => .closing fd
  | .checking up fd => match c, r with
    | .fgetxattr .., .ok _ => if up then .unlocking fd else .asking fd
    | _, _ => if up then .storing fd else .unlocking fd
  | .storing fd => match c, r with
    | .fsetxattr .., .ok _ => .named fd
    | .fsetxattr .., .error _ => .unlocking fd
    | .fremovexattr .., _ => .closing fd
    | _, _ => .storing fd
  | .named fd => match c, r with
    | .fsetxattr .., .ok _ => .stubbed fd
    | _, _ => .unnaming fd
  | .unnaming fd => .unlocking fd
  | .stubbed fd => match c with
    | .fremovexattr .. => .closing fd
    | _ => .stubbed fd
  | .asking fd => match c, r with
    | .fgetxattr .., .ok _ => .loading fd
    | _, _ => .unlocking fd
  | .loading fd => match c, r with
    | .fremovexattr .., .ok _ => .unstubbed fd
    | .fremovexattr .., .error _ => .unlocking fd
    | _, _ => .loading fd
  | .unstubbed fd => .unlocking fd
  | .unlocking fd => .closing fd
  | .closing _ => .outside
  | .entering _ pid _ flags => match c, r with
    | .libcOpen .., .ok fd => .looking pid fd flags
    | _, _ => .outside
  | .looking pid fd flags =>
      afterLook (if flags &&& oTrunc = oTrunc then .clearing fd else .scheduling pid fd flags)
        .outside c r
  | .clearing fd => .clearingId fd
  | .clearingId _ => .outside
  | .scheduling pid fd flags => match c with
    | .queuePush _ => .polling pid fd flags
    | _ => .scheduling pid fd flags
  | .polling pid fd flags => afterLook (.polling pid fd flags) .outside c r

/-- The calls as moves between phases: a thread makes only calls that its phase expects, and they do
not fail. -/
def phaseCalls : Calls Call Rep Phase where
  pre p c := p.expects c
  post p c r p' := succeeds c r = true ∧ p' = p.next c r

/-! ## The daemon keeps to its phases -/

section

variable {fd : Fd} {p : Phase}

/-- A call whose answer decides the next phase. -/
theorem triple_phase {c : Call} {Q : Rep c → Phase → Prop} (hpre : p.expects c)
    (hpost : ∀ r, succeeds c r = true → Q r (p.next c r)) :
    Prog.Triple phaseCalls (fun t => t = p) c Q := by
  rintro t rfl
  refine ⟨hpre, fun r t' ht => ?_⟩
  rw [ht.2]
  exact hpost r ht.1

theorem next_storing {c : Call} (hc : isTransferCall c = true) (r : Rep c) :
    (Phase.storing fd).next c r = .storing fd := by
  cases c <;> first | rfl | exact absurd hc (by simp [isTransferCall])

theorem next_loading {c : Call} (hc : isTransferCall c = true) (r : Rep c) :
    (Phase.loading fd).next c r = .loading fd := by
  cases c <;> first | rfl | exact absurd hc (by simp [isTransferCall])

/-- Before the lock attribute is removed. -/
def Leaving (fd : Fd) (p : Phase) : Prop := p = .unlocking fd ∨ p = .storing fd ∨ p = .stubbed fd

theorem triple_unlock :
    Prog.Triple phaseCalls (Leaving fd) (.fremovexattr fd .locked) fun _ p => p = .closing fd := by
  rintro p (rfl | rfl | rfl)
  · exact ⟨rfl, fun r t ht => ht.2⟩
  · exact ⟨.inr (.inr rfl), fun r t ht => ht.2⟩
  · exact ⟨.inr (.inr rfl), fun r t ht => ht.2⟩

theorem triple_close {Q : Phase → Prop} (hQ : Q .outside) :
    Prog.Triple phaseCalls (fun p => p = .closing fd) (.closeFile fd) fun _ => Q :=
  triple_phase rfl fun _ _ => hQ

theorem triple_open {up : Bool} {path : Bytes} {bad : Phase → Prop} :
    Prog.Triple phaseCalls (fun p => p = .starting up path) (.openFile path)
      (outcome (fun fd p => p = .locking up fd) bad) :=
  triple_phase rfl fun r hr => by
    cases r with
    | ok fd => rfl
    | error e => exact absurd hr (by simp [succeeds, Except.isOk, Except.toBool])

theorem triple_lock {up : Bool} :
    Prog.Triple phaseCalls (fun p => p = .locking up fd) (.fsetxattr fd .locked [] .create)
      (outcome (fun _ p => p = .checking up fd) fun p => p = .closing fd) :=
  triple_phase rfl fun r _ => by cases r <;> rfl

/-- The phases of an upload. -/
def phaseUpload (retries : Int) (path buf : Bytes) :
    UploadOutline phaseCalls (s3Ops retries) path buf fun _ _ p => p = .outside where
  start p := p = .starting true path
  opened fd p := p = .locking true fd
  locked fd p := p = .checking true fd
  isLocal fd p := p = .storing fd
  stored fd p := p = .storing fd
  named fd p := p = .named fd
  stubbed fd p := p = .stubbed fd
  sized fd _ p := p = .stubbed fd
  emptied fd _ p := p = .stubbed fd
  undo _ _ := False
  undoStub _ _ := False
  undoId fd p := p = .unnaming fd
  leaving fd _ _ := Leaving fd
  closing fd _ _ p := p = .closing fd
  openFile := triple_open
  lock _ := triple_lock
  check fd := triple_phase rfl fun r hr => by
    cases r with
    | ok v => exact .inl rfl
    | error e =>
      obtain rfl : e = .enoattr := of_decide_eq_true hr
      rfl
  upload fd p hp := by
    subst hp
    refine Prog.wp_of_allCalls (allCalls_s3Upload retries fd _) (fun c hc => .inl hc) ?_ fun r => ?_
    · rintro c r p' hc ⟨-, rfl⟩
      exact next_storing hc r
    · split
      · exact .inr (.inl rfl)
      · rfl
  setId fd := triple_phase (.inr (.inl ⟨_, rfl⟩)) fun r _ => by
    cases r with
    | ok u => rfl
    | error e => exact .inl rfl
  setStub fd := triple_phase rfl fun r _ => by cases r <;> rfl
  fstat fd := triple_phase (.inl rfl) fun r _ => by
    cases r with
    | ok n => rfl
    | error e => exact .inr (.inr rfl)
  empty fd n := triple_phase (.inr (.inl ⟨0, rfl⟩)) fun r hr => by
    cases r with
    | ok u => rfl
    | error e => exact absurd hr (by simp [succeeds, Except.isOk, Except.toBool])
  extend fd n := triple_phase (.inr (.inl ⟨n, rfl⟩)) fun r hr => by
    cases r with
    | ok u => exact .inr (.inr rfl)
    | error e => exact absurd hr (by simp [succeeds, Except.isOk, Except.toBool])
  removeIdUndo _ := fun _ h => h.elim
  removeStub _ := fun _ h => h.elim
  removeId fd := triple_phase rfl fun _ _ => .inl rfl
  unlock _ _ _ := triple_unlock
  close _ _ _ := triple_close rfl

/-- The phases of the download of the bytes: nothing fails, so that it returns `0`. -/
def phaseS3Download (fd d₀ : Fd) (key : Bytes) :
    S3DownloadOutline phaseCalls d₀ key fun r p => r = 0 ∧ p = .loading fd where
  start p := p = .loading fd
  duplicated _ p := p = .loading fd
  ready _ p := p = .loading fd
  loading _ _ _ p := p = .loading fd
  finished _ r p := r = 0 ∧ p = .loading fd
  dup := triple_phase (.inl rfl) fun r hr => by
    cases r with
    | ok u => rfl
    | error e => exact absurd hr (by simp [succeeds, Except.isOk, Except.toBool])
  fdopen _ := triple_phase (.inl rfl) fun r hr => by
    cases r with
    | ok u => rfl
    | error e => exact absurd hr (by simp [succeeds, Except.isOk, Except.toBool])
  getBegin _ := triple_phase (.inl rfl) fun r hr => by
    cases r with
    | ok u => rfl
    | error e => exact absurd hr (by simp [succeeds])
  getChunk _ _ _ _ := triple_phase (.inl rfl) fun r hr => by
    cases r with
    | ok n =>
      simp only [succeeds, Bool.and_eq_true, decide_eq_true_eq] at hr
      exact ⟨hr.1, rfl⟩
    | error e => exact absurd hr (by simp [succeeds])
  fwrite _ _ rest n _ _ := triple_phase (.inl rfl) fun r hr => by
    obtain rfl : r = (rest.take n).length := of_decide_eq_true hr
    rw [if_neg (Nat.lt_irrefl _)]
    exact ⟨rfl, rfl⟩
  getEnd _ _ := triple_phase (.inl rfl) fun r hr => by
    obtain rfl : r = .ok := of_decide_eq_true hr
    exact ⟨rfl, rfl, rfl⟩
  fclose _ r := by
    rintro p ⟨rfl, hp⟩
    refine triple_phase (p := .loading fd) (.inl rfl) (fun x hx => ?_) p hp
    cases x with
    | ok u => exact ⟨rfl, rfl⟩
    | error e => exact absurd hx (by simp [succeeds, Except.isOk, Except.toBool])

/-- The phases of a download. -/
def phaseDownload (retries : Int) (path : Bytes) :
    DownloadOutline phaseCalls (s3Ops retries) path fun _ p => p = .outside where
  start p := p = .starting false path
  opened fd p := p = .locking false fd
  locked fd p := p = .checking false fd
  remote fd p := p = .asking fd
  known fd _ p := p = .loading fd
  loaded fd p := p = .loading fd
  unstubbed fd p := p = .unstubbed fd
  leaving fd _ := Leaving fd
  closing fd _ p := p = .closing fd
  openFile := triple_open
  lock _ := triple_lock
  check fd := triple_phase rfl fun r hr => by
    cases r with
    | ok v => rfl
    | error e =>
      obtain rfl : e = .enoattr := of_decide_eq_true hr
      exact .inl rfl
  getId fd := triple_phase ⟨_, s3GetObjectIdXattrSize_ne_zero, rfl⟩ fun r _ => by
    cases r with
    | ok v => rfl
    | error e => exact .inl rfl
  download fd id p hp := by
    refine Prog.wp_mono ((phaseS3Download fd fd (cString id)).sound hp) ?_
    rintro r p' ⟨rfl, rfl⟩
    rfl
  removeStub fd := triple_phase (.inr rfl) fun r _ => by
    cases r with
    | ok u => rfl
    | error e => exact .inl rfl
  removeId fd := triple_phase rfl fun r _ => by
    cases r <;> exact .inl rfl
  unlock _ _ := triple_unlock
  close _ _ := triple_close rfl

end

theorem wp_uploadFile (retries : Int) (path buf : Bytes) :
    (uploadFile (s3Ops retries) path buf).wp phaseCalls (fun _ p => p = .outside)
      (.starting true path) :=
  (phaseUpload retries path buf).sound rfl

theorem wp_downloadFile (retries : Int) (path : Bytes) :
    (downloadFile (s3Ops retries) path).wp phaseCalls (fun _ p => p = .outside)
      (.starting false path) :=
  (phaseDownload retries path).sound rfl

/-! ## The routines of the daemon -/

/-- Where an iteration of the download thread stands after it has looked into the queues. -/
def downloadStart : Option Bytes → Phase
  | none => .outside
  | some data => .starting false (cString data)

theorem next_popping (popped secondary : Option Bytes) :
    (Phase.popping secondary).next .queueTryPop popped = downloadStart (popped.or secondary) := by
  unfold Phase.next
  dsimp only
  cases popped.or secondary <;> rfl

/-- An iteration of the download thread. -/
theorem wp_downloadFileRoutine (retries : Int) (secondary : Option Bytes) :
    (Daemon.downloadFileRoutine (s3Ops retries) secondary).wp phaseCalls (fun _ p => p = .outside)
      (.popping secondary) := by
  have hpop : Prog.Triple phaseCalls (fun p => p = .popping secondary) .queueTryPop
      fun popped p => p = downloadStart (popped.or secondary) :=
    triple_phase rfl fun popped _ => next_popping popped secondary
  refine hpop.bind rfl ?_
  rintro popped p rfl
  beta_reduce
  generalize popped.or secondary = data
  cases data with
  | none => rfl
  | some data =>
    exact Prog.wp_bind.mpr (Prog.wp_mono (wp_downloadFile retries (cString data)) fun _ _ h => h)

/-- Where an iteration of the upload thread starts. -/
def uploadStart : Option Bytes → Phase
  | none => .outside
  | some data => .starting true (cString data)

/-- An iteration of the upload thread. -/
theorem wp_uploadFileRoutine (retries : Int) (buf : Bytes) (secondary : Option Bytes) :
    (Daemon.uploadFileRoutine (s3Ops retries) buf secondary).wp phaseCalls (fun _ p => p = .outside)
      (uploadStart secondary) := by
  cases secondary with
  | none => rfl
  | some data =>
    refine Prog.wp_bind.mpr ?_
    exact Prog.wp_bind.mpr (Prog.wp_bind.mpr
      (Prog.wp_mono (wp_uploadFile retries (cString data) buf) fun _ _ h => h))

/-! ## The clients keep to their phases -/

open Client

section

variable {self pid : ℕ} {fd : Fd} {flags : ℕ}

/-- The location check of the library. -/
theorem wp_isLocalFile {p : Phase} (remote here : Phase) {Q : Except Errno Int → Phase → Prop}
    (hp : ∀ c, isLookCall fd c → p.expects c)
    (hnext : ∀ (c : Call) (r : Rep c), isLookCall fd c → p.next c r = afterLook remote here c r)
    (hremote : Q (.ok 0) remote) (hhere : Q (.ok 1) here) :
    (isLocalFile fd flags).wp phaseCalls Q p := by
  have hset : isLookCall fd (.fsetxattr fd .stub [] .replace) := ⟨rfl, rfl, rfl, rfl⟩
  have hget : isLookCall fd (.fgetxattr fd .stub 0) := ⟨rfl, rfl, rfl⟩
  unfold isLocalFile
  split
  · refine ⟨hp _ hset, ?_⟩
    rintro r p' ⟨hr, rfl⟩
    rw [hnext _ r hset]
    cases r with
    | ok u => exact hremote
    | error e =>
      obtain rfl : e = .enoattr := of_decide_eq_true hr
      exact hhere
  · refine ⟨hp _ hget, ?_⟩
    rintro r p' ⟨hr, rfl⟩
    rw [hnext _ r hget]
    cases r with
    | ok u => exact hremote
    | error e =>
      obtain rfl : e = .enoattr := of_decide_eq_true hr
      exact hhere

/-- Where a call of the wrapped `open` stands. -/
def OpeningAt (pid : ℕ) : Opening → Phase → Prop
  | .done _, p => p = .outside
  | .polling fd flags, p => p = .polling pid fd flags

theorem wp_pollFileLocation :
    (pollFileLocation fd flags).wp phaseCalls (OpeningAt pid) (.polling pid fd flags) := by
  refine Prog.wp_bind.mpr (wp_isLocalFile (.polling pid fd flags) .outside
    (fun _ h => h) (fun _ _ _ => rfl) ?_ ?_)
  · rfl
  · rfl

/-- The removal of the attributes: nothing fails, so that it returns `0`. -/
theorem wp_clearXattrs :
    (clearXattrs fd).wp phaseCalls (fun r p => r = 0 ∧ p = .outside) (.clearing fd) := by
  have hnone : ∀ {x : Xattr} {r : Except Errno Unit}, succeeds (.fremovexattr fd x) r = true →
      r = .ok () ∨ r = .error .enoattr := by
    intro x r hr
    cases r with
    | ok u => exact .inl rfl
    | error e => exact .inr (congrArg _ (of_decide_eq_true hr))
  refine ⟨rfl, ?_⟩
  rintro r p' ⟨hr, rfl⟩
  obtain rfl | rfl := hnone hr
  all_goals
    refine ⟨rfl, ?_⟩
    rintro r p' ⟨hr, rfl⟩
    obtain rfl | rfl := hnone hr
    all_goals exact ⟨rfl, rfl⟩

/-- The process id that process `self` puts into its requests: the one that the library remembers,
or its own if the library has not been used yet. -/
def requestPid (self : ℕ) (vars : Vars) : ℕ := if vars.once then vars.pid.getD 0 else self

theorem next_scheduling {c : Call} (hc : isSetupCall pid c = true) (r : Rep c) :
    (Phase.scheduling pid fd flags).next c r = .scheduling pid fd flags := by
  cases c <;> first | rfl | exact absurd hc (by simp [isSetupCall])

/-- A call in front of the push. -/
theorem wp_setup {α : Type} {c : Call} {f : Rep c → Sys α} {Q : α → Phase → Prop}
    (hc : isSetupCall pid c = true)
    (hf : ∀ r, succeeds c r = true → (f r).wp phaseCalls Q (.scheduling pid fd flags)) :
    (sys c >>= f).wp phaseCalls Q (.scheduling pid fd flags) := by
  refine Prog.wp_bind.mpr ⟨.inl hc, ?_⟩
  rintro r p' ⟨hr, rfl⟩
  rw [next_scheduling hc]
  exact hf r hr

/-- The variables in front of the push. -/
def Initialised (pid : ℕ) (fd : Fd) (flags : ℕ) (vars : Vars) (p : Phase) : Prop :=
  vars.pid.getD 0 = pid ∧ p = .scheduling pid fd flags

theorem wp_initVarsOnce (vars : Vars) :
    (initVarsOnce pid vars).wp phaseCalls (Initialised pid fd flags)
    (.scheduling pid fd flags) := by
  refine ⟨.inl (by simp [isSetupCall]), ?_⟩
  rintro r p' ⟨hr, rfl⟩
  have hpid : (some r).getD 0 = pid := of_decide_eq_true hr
  rw [next_scheduling (by simp [isSetupCall])]
  show Prog.wp phaseCalls (if vars.queue = true then _ else _) _ _
  split
  · exact ⟨hpid, rfl⟩
  · refine wp_setup rfl fun r hr => ?_
    cases r with
    | error e => exact ⟨hpid, rfl⟩
    | ok u =>
    refine wp_setup rfl fun r hr => ?_
    cases r with
    | error e => exact ⟨hpid, rfl⟩
    | ok u =>
    refine wp_setup rfl fun r hr => ?_
    cases r with
    | error e => exact ⟨hpid, rfl⟩
    | ok u => exact ⟨hpid, rfl⟩

/-- Where `schedule_download` ends. -/
def ScheduledAt (pid : ℕ) (fd : Fd) (flags : ℕ) : Except Errno Unit → Phase → Prop
  | .ok _, p => p = .polling pid fd flags
  | .error _, p => p = .scheduling pid fd flags

/-- A request is pushed. -/
theorem wp_scheduleDownload (vars : Vars) (stale : Bytes) :
    (scheduleDownload self stale vars fd).wp phaseCalls
      (fun a => ScheduledAt (requestPid self vars) fd flags a.1)
      (.scheduling (requestPid self vars) fd flags) := by
  unfold scheduleDownload requestPid
  split
  on_goal 1 =>
    refine Prog.wp_bind.mpr
      (Prog.wp_mono (Q := Initialised (vars.pid.getD 0) fd flags) ⟨rfl, rfl⟩ ?_)
  on_goal 2 =>
    refine Prog.wp_bind.mpr
      (Prog.wp_mono (Q := Initialised self fd flags) (wp_initVarsOnce vars) ?_)
  -- the push is the same whether the variables had been set before or not
  all_goals
    rintro vars' p ⟨hpid, rfl⟩
    dsimp only
    split
    · refine Prog.wp_bind.mpr ⟨.inr ⟨stale, by rw [hpid]⟩, ?_⟩
      rintro r p' ⟨hr, rfl⟩
      cases r with
      | error e => exact absurd hr (by simp [succeeds, Except.isOk, Except.toBool])
      | ok u => rfl
    · rfl

/-- Where a call of the wrapped `open` stands.  A request that could not be pushed ends the call. -/
def OpenedAt (pid : ℕ) : Opening → Phase → Prop
  | .done _, p => p = .outside ∨ ∃ fd flags, p = .scheduling pid fd flags
  | .polling fd flags, p => p = .polling pid fd flags

theorem wp_finishOpenCommon (vars : Vars) (stale : Bytes) :
    (finishOpenCommon self stale vars fd flags).wp phaseCalls
      (fun a => OpenedAt (requestPid self vars) a.1)
      (.looking (requestPid self vars) fd flags) := by
  refine Prog.wp_bind.mpr (wp_isLocalFile _ .outside (fun _ h => h) (fun _ _ _ => rfl) ?_ ?_)
  · show Prog.wp phaseCalls (if (0 : Int) ≠ 0 then _ else _) _ _
    rw [if_neg (by decide)]
    by_cases htrunc : flags &&& oTrunc = oTrunc
    · rw [if_pos htrunc, if_pos htrunc]
      refine Prog.wp_bind.mpr (Prog.wp_mono wp_clearXattrs ?_)
      rintro r p ⟨rfl, rfl⟩
      exact .inl rfl
    · rw [if_neg htrunc, if_neg htrunc]
      refine Prog.wp_bind.mpr (Prog.wp_mono (wp_scheduleDownload vars stale) ?_)
      rintro ⟨r, vars'⟩ p hp
      cases r with
      | error e => exact .inr ⟨fd, flags, hp⟩
      | ok u => exact hp
  · exact .inl rfl

/-- The wrapped `open`. -/
theorem wp_openFile (vars : Vars) (stale path : Bytes) :
    (openFile self stale vars path flags).wp phaseCalls
      (fun a => OpenedAt (requestPid self vars) a.1)
      (.entering self (requestPid self vars) path flags) := by
  refine Prog.wp_bind.mpr ⟨rfl, ?_⟩
  rintro r p ⟨hr, rfl⟩
  cases r with
  | error e => exact absurd hr (by simp [succeeds, Except.isOk, Except.toBool])
  | ok fd => exact wp_finishOpenCommon vars stale

end

end Concurrency

end CloudTiering
