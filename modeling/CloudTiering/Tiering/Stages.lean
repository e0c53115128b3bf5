import CloudTiering.Concurrency.Eviction
import CloudTiering.Concurrency.Parties

/-!
# How far the parties are, down to the bytes

The phases of `Concurrency.Phases` say where a thread is as far as attributes and locks are
concerned.  What a file holds while it goes to the store and comes back depends on the bytes as
well, and on which descriptors the clients have.  A *stage* says both.

* `Stage`, `Stage.expects`, `Stage.next`: the stages, the calls a thread may make there, and the
  stage after an answer.
* `Stage.answered`: what is known of an answer.
* `stageCalls`: the reading of the calls as moves between stages.
* `tierUpload`, `tierDownload`, `wp_openFile`, `wp_pollFileLocation`: the programs keep to their
  stages.
-/

namespace CloudTiering

open Foundations App Concurrency

namespace Tiering

/-! ## Stages -/

/-- How far a thread is. -/
inductive Stage
  | outside
  /-- About to look into the download queues. -/
  | popping (secondary : Option Bytes)
  /-- About to open a file in order to upload (`true`) or download it. -/
  | starting (up : Bool) (path : Bytes)
  | locking (up : Bool) (fd : Fd)
  /-- The file is locked: about to check its location. -/
  | checking (up : Bool) (fd : Fd)
  /-- `upload_file`: the file is local. -/
  | copying (fd : Fd)
  | sizing (fd d : Fd)
  /-- The size is `n`, and `got` has been read. -/
  | reading (fd d : Fd) (n : ℕ) (got : Bytes)
  /-- The object is stored under `key`. -/
  | stored (fd d : Fd) (key : Bytes)
  | named (fd : Fd)
  | stubbed (fd : Fd)
  | sized (fd : Fd) (n : ℕ)
  /-- The file has been truncated. -/
  | emptied (fd : Fd) (n : ℕ)
  /-- `download_file`: the file is remote. -/
  | asking (fd : Fd)
  | known (fd : Fd) (key : Bytes)
  | fetching (fd d : Fd) (key : Bytes)
  /-- Of the object, `done` has been written. -/
  | loading (fd d : Fd) (object done : Bytes)
  | loaded (fd d : Fd)
  | unstubbed (fd : Fd)
  | unlocking (fd : Fd)
  | closing (fd : Fd)
  /-- The wrapped `open`: about to call the `open` of the C library. -/
  | entering (self : ℕ) (path : Bytes) (flags : ℕ)
  /-- About to check the location. -/
  | looking (fd : Fd) (flags : ℕ)
  /-- The file was remote and is truncated: about to remove the stub attribute. -/
  | clearing (fd : Fd)
  | clearingId (fd : Fd)
  /-- The file was remote: in `schedule_download` or `poll_file_location`. -/
  | waiting (fd : Fd)
  /-- `open` has returned the descriptor, or is about to. -/
  | ready (fd : Fd)
  deriving DecidableEq

/-- The calls that a thread may make. -/
def Stage.expects : Stage → Call → Prop
  | .outside, _ => False
  | .popping _, c => c = .queueTryPop
  | .starting _ path, c => c = .openFile path
  | .locking _ fd, c => c = .fsetxattr fd .locked [] .create
  | .checking _ fd, c => c = .fgetxattr fd .stub 0
  | .copying fd, c => c = .dup fd
  | .sizing _ d, c => c = .fstat d
  | .reading _ d n got, c => c = .fdopen d ∨ c = .putBuffer ∨
      (∃ k, got.length < n ∧ 0 < k ∧ c = .fread d got.length k) ∨
      (n ≤ got.length ∧ ∃ key, c = .putEnd key got)
  | .stored fd d key, c => c = .fclose d ∨ ∃ v, cString v = key ∧
    c = .fsetxattr fd .objectId v .create
  | .named fd, c => c = .fsetxattr fd .stub [] .create
  | .stubbed fd, c => c = .fstat fd
  | .sized fd _, c => c = .ftruncate fd 0
  | .emptied fd n, c => c = .ftruncate fd n
  | .asking fd, c => ∃ n, n ≠ 0 ∧ c = .fgetxattr fd .objectId n
  | .known fd _, c => c = .dup fd
  | .fetching _ d key, c => c = .fdopen d ∨ c = .getBegin key
  | .loading _ d object done, c => c = .getChunk ∨
      (∃ bs rest, object = done ++ bs ++ rest ∧ c = .fwrite d done.length bs) ∨
      (done = object ∧ c = .getEnd)
  | .loaded fd d, c => c = .fclose d ∨ c = .fremovexattr fd .stub
  | .unstubbed fd, c => c = .fremovexattr fd .objectId
  | .unlocking fd, c => c = .fremovexattr fd .locked
  | .closing fd, c => c = .closeFile fd
  | .entering self path flags, c => c = .libcOpen self path flags
  | .looking fd _, c => isLookCall fd c
  | .clearing fd, c => c = .fremovexattr fd .stub
  | .clearingId fd, c => c = .fremovexattr fd .objectId
  | .waiting fd, c => isLookCall fd c ∨ (∃ pid, isSetupCall pid c = true) ∨
    ∃ data, c = .queuePush data
  | .ready fd, c => (∃ pos n, c = .fread fd pos n) ∨ (∃ pos bs, c = .fwrite fd pos bs) ∨
    c = .closeFile fd

/-- The answer to a location check of the library says that the file is remote. -/
def sawRemote : (c : Call) → Rep c → Bool
  | .fsetxattr .., r => r.isOk
  | .fgetxattr .., r => r.isOk
  | _, _ => true

/-- The stage after an answer. -/
def Stage.next (p : Stage) (c : Call) (r : Rep c) : Stage :=
  match p with
  | .outside => .outside
  | .popping secondary => match c, r with
    | .queueTryPop, popped => match popped.or secondary with
      | some data => .starting false (cString data)
      | none => .outside
    | _, _ => p
  | .starting up _ => match c, r with
    | .openFile _, .ok fd => .locking up fd
    | _, _ => .outside
  | .locking up fd => match c, r with
    | .fsetxattr .., .ok _ => .checking up fd
    | _, _ => .closing fd
  | .checking up fd => match c, r with
    | .fgetxattr .., .ok _ => if up then .unlocking fd else .asking fd
    | _, _ => if up then .copying fd else .unlocking fd
  | .copying fd => match c, r with
    | .dup _, .ok d => .sizing fd d
    | _, _ => p
  | .sizing fd d => match c, r with
    | .fstat _, .ok n => .reading fd d n []
    | _, _ => p
  | .reading fd d n got => match c, r with
    | .fread .., bs => .reading fd d n (got ++ bs)
    | .putEnd key _, _ => .stored fd d key
    | _, _ => p
  | .stored fd _ _ => match c, r with
    | .fsetxattr .., .ok _ => .named fd
    | .fsetxattr .., .error _ => .unlocking fd
    | _, _ => p
  | .named fd => .stubbed fd
  | .stubbed fd => match c, r with
    | .fstat _, .ok n => .sized fd n
    | _, _ => p
  | .sized fd n => .emptied fd n
  | .emptied fd _ => .unlocking fd
  | .asking fd => match c, r with
    | .fgetxattr .., .ok v => .known fd (cString v)
    | _, _ => .unlocking fd
  | .known fd key => match c, r with
    | .dup _, .ok d => .fetching fd d key
    | _, _ => p
  | .fetching fd d _ => match c, r with
    | .getBegin _, .ok object => .loading fd d object []
    | _, _ => p
  | .loading fd d object done => match c with
    | .fwrite _ _ bs => .loading fd d object (done ++ bs)
    | .getEnd => .loaded fd d
    | _ => p
  | .loaded fd _ => match c, r with
    | .fremovexattr .., .ok _ => .unstubbed fd
    | .fremovexattr .., .error _ => .unlocking fd
    | _, _ => p
  | .unstubbed fd => .unlocking fd
  | .unlocking fd => .closing fd
  | .closing _ => .outside
  | .entering _ _ flags => match c, r with
    | .libcOpen .., .ok fd => .looking fd flags
    | _, _ => .outside
  | .looking fd flags =>
      if sawRemote c r then
        if flags &&& oTrunc = oTrunc then .clearing fd else .waiting fd
      else .ready fd
  | .clearing fd => .clearingId fd
  | .clearingId fd => .ready fd
  | .waiting fd => if sawRemote c r then .waiting fd else .ready fd
  | .ready fd => match c with
    | .closeFile _ => .outside
    | _ => .ready fd

/-- What is known of an answer: a file does not get shorter while it is read, and an upload never
finds that the stub attribute is there. -/
def Stage.answered (p : Stage) (c : Call) (r : Rep c) : Prop :=
  match p with
  | .reading .. => match c, r with
    | .fread .., bs => bs ≠ []
    | c, r => succeeds c r = true
  | .named _ => match c, r with
    | .fsetxattr .., r => r = .ok ()
    | c, r => succeeds c r = true
  | _ => succeeds c r = true

/-- The calls as moves between stages. -/
def stageCalls : Calls Call Rep Stage where
  pre := Stage.expects
  post p c r p' := p.answered c r ∧ p' = p.next c r

section

variable {fd : Fd} {p : Stage}

/-- A call that is expected, whose answer decides the next stage. -/
theorem triple_stage {c : Call} {Q : Rep c → Stage → Prop} (hpre : p.expects c)
    (hpost : ∀ r, p.answered c r → Q r (p.next c r)) :
    Prog.Triple stageCalls (fun t => t = p) c Q := by
  rintro t rfl
  refine ⟨hpre, ?_⟩
  rintro r t' ⟨hr, rfl⟩
  exact hpost r hr

/-! ## The daemon keeps to its stages -/

/-- The upload of the bytes. -/
def tierS3Upload (fd : Fd) (key : Bytes) :
    S3UploadOutline stageCalls fd key fun r p => r = 0 ∧ ∃ d, p = .stored fd d key where
  start p := p = .copying fd
  duplicated d p := p = .sizing fd d
  sized d n p := p = .reading fd d n []
  reading d n got p := p = .reading fd d n got
  finished d r p := r = 0 ∧ p = .stored fd d key
  dup := triple_stage rfl fun r hr => by
    obtain ⟨d, rfl⟩ := exists_ok_of_isOk hr
    rfl
  fstat d := triple_stage rfl fun r hr => by
    obtain ⟨n, rfl⟩ := exists_ok_of_isOk hr
    rfl
  fdopen d n := triple_stage (.inl rfl) fun r hr => by
    obtain ⟨u, rfl⟩ := exists_ok_of_isOk hr
    rfl
  putBuffer d n got _ := triple_stage (.inr (.inl rfl)) fun r hr => by
    cases r with
    | ok size =>
      obtain ⟨hpos, hlt⟩ := Bool.and_eq_true_iff.mp hr
      exact ⟨size_mod_pos (of_decide_eq_true hpos) (of_decide_eq_true hlt), rfl⟩
    | error status => exact absurd hr Bool.false_ne_true
  fread d n got size hlt hsize := triple_stage
    (.inr (.inr (.inl ⟨_, hlt, toRead_pos hsize (Nat.sub_pos_of_lt hlt), rfl⟩))) fun _ hbs =>
      ⟨hbs, rfl⟩
  putEnd d n got hle := triple_stage (.inr (.inr (.inr ⟨hle, key, rfl⟩))) fun r hr => by
    obtain rfl : r = .ok := of_decide_eq_true hr
    exact ⟨rfl, rfl, rfl⟩
  fclose d _ := .lift fun hret => triple_stage (.inl rfl) fun r hr => by
    obtain ⟨u, rfl⟩ := exists_ok_of_isOk hr
    exact ⟨hret, d, rfl⟩

/-- The stages of an upload. -/
def tierUpload (retries : Int) (path buf : Bytes) :
    UploadOutline stageCalls (s3Ops retries) path buf fun _ _ p => p = .outside where
  start p := p = .starting true path
  opened fd p := p = .locking true fd
  locked fd p := p = .checking true fd
  isLocal fd p := p = .copying fd
  stored fd p := ∃ d, p = .stored fd d (cString (s3GetObjectIdXattrValue path buf))
  named fd p := p = .named fd
  stubbed fd p := p = .stubbed fd
  sized fd n p := p = .sized fd n
  emptied fd n p := p = .emptied fd n
  undo _ _ := False
  undoStub _ _ := False
  undoId _ _ := False
  leaving fd _ _ p := p = .unlocking fd
  closing fd _ _ p := p = .closing fd
  openFile := triple_stage rfl fun r hr => by
    obtain ⟨fd, rfl⟩ := exists_ok_of_isOk hr
    rfl
  lock _ := triple_stage rfl fun r _ => by cases r <;> rfl
  check _ := triple_stage rfl fun r hr => by
    cases r with
    | ok v => rfl
    | error e =>
      obtain rfl : e = .enoattr := of_decide_eq_true hr
      rfl
  upload fd p hp := Prog.wp_mono ((tierS3Upload fd _).sound hp) fun r t ⟨hr, ht⟩ => by
    subst hr
    exact ht
  setId fd := by
    rintro p ⟨d, rfl⟩
    refine triple_stage (p := .stored fd d _)
      (.inr ⟨_, cString_take_s3GetObjectIdXattrValue path buf, rfl⟩)
      (fun r _ => ?_) _ rfl
    cases r <;> rfl
  setStub _ := triple_stage rfl fun r hr => by
    obtain rfl : r = .ok () := hr
    rfl
  fstat _ := triple_stage rfl fun r hr => by
    obtain ⟨n, rfl⟩ := exists_ok_of_isOk hr
    rfl
  empty _ _ := triple_stage rfl fun r hr => by
    obtain ⟨u, rfl⟩ := exists_ok_of_isOk hr
    rfl
  extend _ _ := triple_stage rfl fun r hr => by
    obtain ⟨u, rfl⟩ := exists_ok_of_isOk hr
    rfl
  removeIdUndo _ := fun _ h => h.elim
  removeStub _ := fun _ h => h.elim
  removeId _ := fun _ h => h.elim
  unlock _ _ _ := triple_stage rfl fun _ _ => rfl
  close _ _ _ := triple_stage rfl fun _ _ => rfl

/-- The download of the bytes. -/
def tierS3Download (fd : Fd) (key : Bytes) :
    S3DownloadOutline stageCalls fd key fun r p => r = 0 ∧ ∃ d, p = .loaded fd d where
  start p := p = .known fd key
  duplicated d p := p = .fetching fd d key
  ready d p := p = .fetching fd d key
  loading d done rest p := p = .loading fd d (done ++ rest) done
  finished d r p := r = 0 ∧ p = .loaded fd d
  dup := triple_stage rfl fun r hr => by
    obtain ⟨d, rfl⟩ := exists_ok_of_isOk hr
    rfl
  fdopen d := triple_stage (.inl rfl) fun r hr => by
    obtain ⟨u, rfl⟩ := exists_ok_of_isOk hr
    rfl
  getBegin d := triple_stage (.inr rfl) fun r hr => by
    cases r with
    | ok object => rfl
    | error status => exact absurd hr Bool.false_ne_true
  getChunk d done rest _ := triple_stage (.inl rfl) fun r hr => by
    cases r with
    | ok n => exact ⟨of_decide_eq_true (Bool.and_eq_true_iff.mp hr).1, rfl⟩
    | error status => exact absurd hr Bool.false_ne_true
  fwrite d done rest n _ _ := triple_stage
    (.inr (.inl ⟨rest.take n, rest.drop n, by rw [List.append_assoc, List.take_append_drop], rfl⟩))
        fun r hr => by
      obtain rfl : r = (rest.take n).length := of_decide_eq_true hr
      rw [if_neg (Nat.lt_irrefl _)]
      refine ⟨rfl, ?_⟩
      rw [List.append_assoc, List.take_append_drop]
      rfl
  getEnd d done := triple_stage (.inr (.inr ⟨(List.append_nil done).symm, rfl⟩)) fun r hr => by
    obtain rfl : r = .ok := of_decide_eq_true hr
    exact ⟨rfl, rfl, rfl⟩
  fclose d _ := .lift fun hret => triple_stage (.inl rfl) fun r hr => by
    obtain ⟨u, rfl⟩ := exists_ok_of_isOk hr
    exact ⟨hret, d, rfl⟩

/-- The stages of a download. -/
def tierDownload (retries : Int) (path : Bytes) :
    DownloadOutline stageCalls (s3Ops retries) path fun _ p => p = .outside where
  start p := p = .starting false path
  opened fd p := p = .locking false fd
  locked fd p := p = .checking false fd
  remote fd p := p = .asking fd
  known fd v p := p = .known fd (cString v)
  loaded fd p := ∃ d, p = .loaded fd d
  unstubbed fd p := p = .unstubbed fd
  leaving fd _ p := p = .unlocking fd
  closing fd _ p := p = .closing fd
  openFile := triple_stage rfl fun r hr => by
    obtain ⟨fd, rfl⟩ := exists_ok_of_isOk hr
    rfl
  lock _ := triple_stage rfl fun r _ => by cases r <;> rfl
  check _ := triple_stage rfl fun r hr => by
    cases r with
    | ok v => rfl
    | error e =>
      obtain rfl : e = .enoattr := of_decide_eq_true hr
      rfl
  getId _ := triple_stage ⟨_, s3GetObjectIdXattrSize_ne_zero, rfl⟩ fun r _ => by cases r <;> rfl
  download fd v p hp :=
      Prog.wp_mono ((tierS3Download fd (cString v)).sound hp) fun r t ⟨hr, ht⟩ => by
    subst hr
    exact ht
  removeStub fd := by
    rintro p ⟨d, rfl⟩
    refine triple_stage (p := .loaded fd d) (.inr rfl) (fun r _ => ?_) _ rfl
    cases r <;> rfl
  removeId _ := triple_stage rfl fun r _ => by cases r <;> rfl
  unlock _ _ := triple_stage rfl fun _ _ => rfl
  close _ _ := triple_stage rfl fun _ _ => rfl

end

/-- Where an iteration of the download thread stands after it has looked into the queues. -/
def downloadStart : Option Bytes → Stage
  | none => .outside
  | some data => .starting false (cString data)

theorem next_popping (popped secondary : Option Bytes) :
    (Stage.popping secondary).next .queueTryPop popped = downloadStart (popped.or secondary) := by
  unfold Stage.next
  dsimp only
  cases popped.or secondary <;> rfl

/-- An iteration of the download thread. -/
theorem wp_downloadFileRoutine (retries : Int) (secondary : Option Bytes) :
    (Daemon.downloadFileRoutine (s3Ops retries) secondary).wp stageCalls (fun _ p => p = .outside)
      (.popping secondary) := by
  have hpop : Prog.Triple stageCalls (fun p => p = .popping secondary) .queueTryPop
      fun popped p => p = downloadStart (popped.or secondary) :=
    triple_stage rfl fun popped _ => next_popping popped secondary
  refine hpop.bind rfl ?_
  rintro popped p rfl
  beta_reduce
  generalize popped.or secondary = data
  cases data with
  | none => rfl
  | some data =>
    exact Prog.wp_bind.mpr
      (Prog.wp_mono ((tierDownload retries (cString data)).sound rfl) fun _ _ h => h)

/-- Where an iteration of the upload thread starts. -/
def uploadStart : Option Bytes → Stage
  | none => .outside
  | some data => .starting true (cString data)

/-- An iteration of the upload thread. -/
theorem wp_uploadFileRoutine (retries : Int) (buf : Bytes) (secondary : Option Bytes) :
    (Daemon.uploadFileRoutine (s3Ops retries) buf secondary).wp stageCalls (fun _ p => p = .outside)
      (uploadStart secondary) := by
  cases secondary with
  | none => rfl
  | some data =>
    refine Prog.wp_bind.mpr ?_
    exact Prog.wp_bind.mpr (Prog.wp_bind.mpr
      (Prog.wp_mono ((tierUpload retries (cString data) buf).sound rfl) fun _ _ h => h))

/-! ## The clients keep to their stages -/

section

variable {fd : Fd} {flags : ℕ} {p : Stage}

/-- The location check of the library. -/
theorem wp_isLocalFile {Q : Except Errno Int → Stage → Prop} (remote here : Stage)
    (hexpects : ∀ c, isLookCall fd c → p.expects c)
    (hanswered : ∀ (c : Call) (r : Rep c), p.answered c r → succeeds c r = true)
    (hnext : ∀ (c : Call) (r : Rep c), p.next c r = if sawRemote c r then remote else here)
    (hremote : Q (.ok 0) remote) (hhere : Q (.ok 1) here) :
    (Client.isLocalFile fd flags).wp stageCalls Q p := by
  unfold Client.isLocalFile
  split
  · refine ⟨hexpects _ ⟨rfl, rfl, rfl, rfl⟩, ?_⟩
    rintro r p' ⟨hr, rfl⟩
    rw [hnext]
    cases r with
    | ok u => exact hremote
    | error e =>
      obtain rfl : e = .enoattr := of_decide_eq_true (hanswered _ _ hr)
      exact hhere
  · refine ⟨hexpects _ ⟨rfl, rfl, rfl⟩, ?_⟩
    rintro r p' ⟨hr, rfl⟩
    rw [hnext]
    cases r with
    | ok v => exact hremote
    | error e =>
      obtain rfl : e = .enoattr := of_decide_eq_true (hanswered _ _ hr)
      exact hhere

/-- Where a call of the wrapped `open` stands.  A request that could not be pushed ends the call. -/
def OpeningAt : Client.Opening → Stage → Prop
  | .done (.ok fd), p => p = .ready fd
  | .done (.error _), p => ∃ fd, p = .waiting fd
  | .polling fd _, p => p = .waiting fd

theorem wp_pollFileLocation :
    (Client.pollFileLocation fd flags).wp stageCalls OpeningAt (.waiting fd) := by
  refine Prog.wp_bind.mpr (wp_isLocalFile (.waiting fd) (.ready fd) (fun _ => .inl) (fun _ _ => id)
    (fun _ _ => rfl) ?_ ?_)
  · rfl
  · rfl

theorem expects_waiting {c : Call} (hc : Client.isRequestStep c = true) :
    (Stage.waiting fd).expects c := by
  cases c with
  | getpid self => exact .inr (.inl ⟨self, decide_eq_true rfl⟩)
  | shmOpen => exact .inr (.inl ⟨0, rfl⟩)
  | shmStat => exact .inr (.inl ⟨0, rfl⟩)
  | shmMap len => exact .inr (.inl ⟨0, rfl⟩)
  | queuePush data => exact .inr (.inr ⟨data, rfl⟩)
  | _ => exact absurd hc Bool.false_ne_true

theorem next_waiting {c : Call} (hc : Client.isRequestStep c = true) (r : Rep c) :
    (Stage.waiting fd).next c r = .waiting fd := by
  cases c <;> first | rfl | exact absurd hc Bool.false_ne_true

theorem wp_scheduleDownload (self : ℕ) (stale : Bytes) (vars : Client.Vars) :
    (Client.scheduleDownload self stale vars fd).wp stageCalls (fun _ p => p = .waiting fd)
    (.waiting fd) := by
  refine Prog.wp_of_allCalls (Client.allCalls_scheduleDownload self stale vars fd)
    (fun _ => expects_waiting) ?_ fun _ => rfl
  rintro c r p hc ⟨-, rfl⟩
  exact next_waiting hc r

/-- The removal of the attributes: nothing fails, so that it returns `0`. -/
theorem wp_clearXattrs :
    (Client.clearXattrs fd).wp stageCalls (fun r p => r = 0 ∧ p = .ready fd) (.clearing fd) := by
  have hnone : ∀ {x : Xattr} {r : Except Errno Unit}, succeeds (.fremovexattr fd x) r = true →
      r = .ok () ∨ r = .error .enoattr := by
    intro x r hr
    cases r with
    | ok u => exact .inl rfl
    | error e => exact .inr (congrArg _ (of_decide_eq_true hr))
  refine ⟨rfl, ?_⟩
  rintro r p ⟨hr, rfl⟩
  obtain rfl | rfl := hnone hr
  all_goals
    refine ⟨rfl, ?_⟩
    rintro r p ⟨hr, rfl⟩
    obtain rfl | rfl := hnone hr
    all_goals exact ⟨rfl, rfl⟩

theorem wp_finishOpenCommon (self : ℕ) (stale : Bytes) (vars : Client.Vars) :
    (Client.finishOpenCommon self stale vars fd flags).wp stageCalls (fun a => OpeningAt a.1)
      (.looking fd flags) := by
  refine Prog.wp_bind.mpr
    (wp_isLocalFile _ (.ready fd) (fun _ => id) (fun _ _ => id) (fun _ _ => rfl) ?_ ?_)
  · show Prog.wp stageCalls (if (0 : Int) ≠ 0 then _ else _) _ _
    rw [if_neg (by decide)]
    by_cases htrunc : flags &&& oTrunc = oTrunc
    · rw [if_pos htrunc, if_pos htrunc]
      refine Prog.wp_bind.mpr (Prog.wp_mono wp_clearXattrs ?_)
      rintro r p ⟨rfl, rfl⟩
      rfl
    · rw [if_neg htrunc, if_neg htrunc]
      refine Prog.wp_bind.mpr (Prog.wp_mono (wp_scheduleDownload self stale vars) ?_)
      rintro ⟨r, vars'⟩ p rfl
      cases r with
      | error e => exact ⟨fd, rfl⟩
      | ok u => rfl
  · rfl

/-- The wrapped `open`. -/
theorem wp_openFile (self : ℕ) (stale : Bytes) (vars : Client.Vars) (path : Bytes) :
    (Client.openFile self stale vars path flags).wp stageCalls (fun a => OpeningAt a.1)
      (.entering self path flags) := by
  refine Prog.wp_bind.mpr ⟨rfl, ?_⟩
  rintro r p ⟨hr, rfl⟩
  cases r with
  | error e => exact absurd hr Bool.false_ne_true
  | ok fd => exact wp_finishOpenCommon self stale vars

end

end Tiering

end CloudTiering
