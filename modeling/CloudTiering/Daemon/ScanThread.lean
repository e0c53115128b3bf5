import CloudTiering.Foundations.Transition
import Mathlib.Algebra.Order.Ring.Int

/-!
# `daemon.c`: the scan thread and the frame it reads

`start_routines` hands the scan thread a pointer to a local pair of pointers to the two queue pairs
of `main`.  The thread reads through it when the scheduler lets it; once a function has returned,
the words of its frame may hold anything.

* `Frames`: where the three pairs are, and what they hold when the thread has been created.
* `ScanStart`, `ScanStart.step`: `start_routines`, `main` and `scan_fs_routine`, one read at a time,
  and the reuse of frames that are no longer live.
* `ScanStart.OwnQueues`: every call of `scan_fs` gets the queues that were made for it.
* `Unspoilt`, `reach_ownQueues`: this holds in every run in which no word that the thread has still
  to read is overwritten.
* `ReadInTime`, `reach_unspoilt`: among these are the runs in which the thread reads before the
  functions return.
-/

namespace CloudTiering

open Foundations

namespace Daemon

/-! ## The frames and the threads -/

/-- The memory, in words, when `pthread_create` has created the scan thread: the addresses of the
pairs, and the secondary queues in them.  The second member of a pair is the word behind the
first. -/
structure Frames where
  dowUplPair : ℕ
  dowQueuePair : ℕ
  uplQueuePair : ℕ
  secondaryDownload : ℕ
  secondaryUpload : ℕ
  mem : ℕ → ℕ
  apart : [dowUplPair, dowUplPair + 1, dowQueuePair, dowQueuePair + 1, uplQueuePair,
    uplQueuePair + 1].Nodup
  first : mem dowUplPair = dowQueuePair
  second : mem (dowUplPair + 1) = uplQueuePair
  download : mem (dowQueuePair + 1) = secondaryDownload
  upload : mem (uplQueuePair + 1) = secondaryUpload

/-- Where the main thread is: in `start_routines` behind the creation of the scan thread or of the
download thread, in `monitor_threads`, behind a `start_routines` that has failed, behind the end of
`main`, or gone with the process. -/
inductive MainAt
  | scanCreated | downloadCreated | monitors | failed | returned | exited
  deriving DecidableEq

/-- Where the scan thread is: before each of its four reads, or in its loop. -/
inductive ScanAt
  | readsFirst | readsSecond | readsDownload | readsUpload | loops
  deriving DecidableEq

/-- The memory, the two threads with the local variables of `scan_fs_routine`, and the arguments of
the calls of `scan_fs`. -/
structure ScanStart where
  mem : ℕ → ℕ
  main : MainAt
  scan : ScanAt
  dowQueuePair : ℕ
  uplQueuePair : ℕ
  downloadQueue : ℕ
  uploadQueue : ℕ
  failureCounter : ℕ
  calls : List (ℕ × ℕ)

/-- The labels of the steps. -/
inductive ScanLabel
  /-- The next `pthread_create` of `start_routines`; when it is the last or fails, the function
  returns. -/
  | create (ok : Bool)
  /-- `main` returns `EXIT_FAILURE`. -/
  | mainReturns
  /-- The process exits. -/
  | exits
  /-- The next step of `scan_fs_routine`; `failed` tells whether `scan_fs` returns `-1`. -/
  | scan (failed : Bool)
  /-- A word of a frame that is no longer live is overwritten. -/
  | overwrite (address value : ℕ)

/-- `start_routines` has returned. -/
def MainAt.startRoutinesReturned : MainAt → Bool
  | .scanCreated | .downloadCreated => false
  | _ => true

/-- `main` has returned. -/
def MainAt.mainReturned : MainAt → Bool
  | .returned | .exited => true
  | _ => false

/-- The word belongs to a frame whose function has returned. -/
def ScanStart.dead (f : Frames) (s : ScanStart) (address : ℕ) : Bool :=
  (s.main.startRoutinesReturned && (address = f.dowUplPair || address = f.dowUplPair + 1)) ||
    (s.main.mainReturned && (address = f.dowQueuePair || address = f.dowQueuePair + 1 ||
      address = f.uplQueuePair || address = f.uplQueuePair + 1))

/-- The next step of `scan_fs_routine`. -/
def ScanStart.scanStep (f : Frames) (s : ScanStart) (failed : Bool) : ScanStart :=
  match s.scan with
  | .readsFirst => { s with dowQueuePair := s.mem f.dowUplPair, scan := .readsSecond }
  | .readsSecond => { s with uplQueuePair := s.mem (f.dowUplPair + 1), scan := .readsDownload }
  | .readsDownload => { s with downloadQueue := s.mem (s.dowQueuePair + 1), scan := .readsUpload }
  | .readsUpload => { s with uploadQueue := s.mem (s.uplQueuePair + 1), scan := .loops }
  | .loops => { s with
      calls := s.calls ++ [(s.downloadQueue, s.uploadQueue)]
      failureCounter := if failed then (s.failureCounter + 1) % 2 ^ 64 else s.failureCounter }

/-- A step of one of the threads, or of whatever reuses a frame. -/
def ScanStart.step (f : Frames) (s : ScanStart) : ScanLabel → Option ScanStart
  | .create ok =>
      match s.main with
      | .scanCreated => some { s with main := if ok then .downloadCreated else .failed }
      | .downloadCreated => some { s with main := if ok then .monitors else .failed }
      | _ => none
  | .mainReturns => if s.main = .failed then some { s with main := .returned } else none
  | .exits => if s.main = .returned then some { s with main := .exited } else none
  | .scan failed => if s.main = .exited then none else some (s.scanStep f failed)
  | .overwrite address value =>
      if s.dead f address then some { s with mem := Function.update s.mem address value } else none

/-- The scan thread has been created and has not begun.  Its local variables hold anything. -/
def ScanStart.initial (f : Frames) (garbage : ℕ) : ScanStart :=
  { mem := f.mem, main := .scanCreated, scan := .readsFirst, dowQueuePair := garbage,
    uplQueuePair := garbage
    downloadQueue := garbage, uploadQueue := garbage, failureCounter := 0, calls := [] }

/-- **The scanner works on the queues that were made for it.** -/
def ScanStart.OwnQueues (f : Frames) (s : ScanStart) : Prop :=
  ∀ call ∈ s.calls, call = (f.secondaryDownload, f.secondaryUpload)

/-! ## The conditions -/

/-- The words that the scan thread has still to read, if all goes well. -/
def ScanAt.unread (f : Frames) : ScanAt → List ℕ
  | .readsFirst => [f.dowUplPair, f.dowUplPair + 1, f.dowQueuePair + 1, f.uplQueuePair + 1]
  | .readsSecond => [f.dowUplPair + 1, f.dowQueuePair + 1, f.uplQueuePair + 1]
  | .readsDownload => [f.dowQueuePair + 1, f.uplQueuePair + 1]
  | .readsUpload => [f.uplQueuePair + 1]
  | .loops => []

/-- No word that the thread has still to read gets another value. -/
def Unspoilt (f : Frames) (s : ScanStart) (l : ScanLabel) : Prop :=
  ∀ address value, l = .overwrite address value → address ∈ s.scan.unread f → value = s.mem address

/-- `start_routines` does not return before the thread has read the local pair, and `main` does not
return before it has read the queues. -/
def ReadInTime (s : ScanStart) : ScanLabel → Prop
  | .create ok => (s.main = .scanCreated ∧ ok = true) ∨
    (s.scan ≠ .readsFirst ∧ s.scan ≠ .readsSecond)
  | .mainReturns => s.scan = .loops
  | _ => True

/-! ## The invariant -/

/-- What the thread has read and still uses. -/
def ScanStart.Read (f : Frames) (s : ScanStart) : Prop :=
  match s.scan with
  | .readsFirst => True
  | .readsSecond => s.dowQueuePair = f.dowQueuePair
  | .readsDownload => s.dowQueuePair = f.dowQueuePair ∧ s.uplQueuePair = f.uplQueuePair
  | .readsUpload => s.uplQueuePair = f.uplQueuePair ∧ s.downloadQueue = f.secondaryDownload
  | .loops => s.downloadQueue = f.secondaryDownload ∧ s.uploadQueue = f.secondaryUpload

/-- What the thread has read is right, and so is what it has still to read. -/
structure ScanStart.Sound (f : Frames) (s : ScanStart) : Prop where
  unread : ∀ address ∈ s.scan.unread f, s.mem address = f.mem address
  read : s.Read f
  ownQueues : s.OwnQueues f

section

variable {f : Frames} {s s' : ScanStart} {l : ScanLabel}

theorem sound_initial (garbage : ℕ) : (ScanStart.initial f garbage).Sound f :=
  ⟨fun _ _ => rfl, trivial, fun _ h => absurd h List.not_mem_nil⟩

/-- The next `pthread_create` of `start_routines`. -/
theorem step_create {ok : Bool} (hs : s.step f (.create ok) = some s') :
    (s.main = .scanCreated ∧ s' = { s with main := if ok then .downloadCreated else .failed }) ∨
      (s.main = .downloadCreated ∧ s' = { s with main := if ok then .monitors else .failed }) := by
  cases hmain : s.main with
  | scanCreated =>
    simp only [ScanStart.step, hmain] at hs
    exact .inl ⟨rfl, (Option.some.inj hs).symm⟩
  | downloadCreated =>
    simp only [ScanStart.step, hmain] at hs
    exact .inr ⟨rfl, (Option.some.inj hs).symm⟩
  | _ =>
    simp only [ScanStart.step, hmain] at hs
    exact absurd hs.symm (Option.some_ne_none _)

/-- The steps of the main thread do not concern the scan thread. -/
theorem ScanStart.Sound.setMain {main : MainAt} (h : s.Sound f) :
    ({ s with main := main } : ScanStart).Sound f :=
  ⟨h.unread, h.read, h.ownQueues⟩

/-- **A step of the scan thread.** -/
theorem ScanStart.Sound.scanStep {failed : Bool} (h : s.Sound f) :
    (s.scanStep f failed).Sound f := by
  obtain ⟨hunread, hread, hown⟩ := h
  obtain ⟨mem, main, scan, dowQueuePair, uplQueuePair, downloadQueue, uploadQueue,
    failureCounter, calls⟩ := s
  cases scan with
  | readsFirst =>
    refine ⟨fun a ha => hunread a (List.mem_cons_of_mem _ ha), ?_, hown⟩
    exact (hunread f.dowUplPair List.mem_cons_self).trans f.first
  | readsSecond =>
    refine ⟨fun a ha => hunread a (List.mem_cons_of_mem _ ha), ⟨hread, ?_⟩, hown⟩
    exact (hunread (f.dowUplPair + 1) List.mem_cons_self).trans f.second
  | readsDownload =>
    obtain ⟨hdow, hupl⟩ : dowQueuePair = f.dowQueuePair ∧ uplQueuePair = f.uplQueuePair := hread
    refine ⟨fun a ha => hunread a (List.mem_cons_of_mem _ ha), ⟨hupl, ?_⟩, hown⟩
    show mem (dowQueuePair + 1) = f.secondaryDownload
    rw [hdow]
    exact (hunread (f.dowQueuePair + 1) List.mem_cons_self).trans f.download
  | readsUpload =>
    obtain ⟨hupl, hdownload⟩ : uplQueuePair = f.uplQueuePair ∧
      downloadQueue = f.secondaryDownload := hread
    refine ⟨fun a ha => absurd ha List.not_mem_nil, ⟨hdownload, ?_⟩, hown⟩
    show mem (uplQueuePair + 1) = f.secondaryUpload
    rw [hupl]
    exact (hunread (f.uplQueuePair + 1) List.mem_cons_self).trans f.upload
  | loops =>
    refine ⟨hunread, hread, fun call hcall => ?_⟩
    rcases List.mem_append.mp hcall with hcall | hcall
    · exact hown call hcall
    · rw [List.mem_singleton.mp hcall]
      exact Prod.ext hread.1 hread.2

/-- A word that is overwritten is not needed, or keeps its value. -/
theorem ScanStart.Sound.overwrite {address value : ℕ} (h : s.Sound f)
    (hspoilt : address ∈ s.scan.unread f → value = s.mem address) :
    ({ s with mem := Function.update s.mem address value } : ScanStart).Sound f := by
  refine ⟨fun a ha => ?_, h.read, h.ownQueues⟩
  show Function.update s.mem address value a = f.mem a
  by_cases haddress : a = address
  · subst haddress
    rw [Function.update_self, hspoilt ha]
    exact h.unread a ha
  · rw [Function.update_of_ne haddress]
    exact h.unread a ha

/-- **Every step.** -/
theorem ScanStart.Sound.step (h : s.Sound f) (hl : Unspoilt f s l) (hs : s.step f l = some s') :
    s'.Sound f := by
  cases l with
  | create ok =>
    rcases step_create hs with ⟨-, rfl⟩ | ⟨-, rfl⟩
    · exact h.setMain
    · exact h.setMain
  | mainReturns =>
    obtain ⟨-, heq⟩ := Option.ite_none_right_eq_some.mp hs
    obtain rfl := Option.some.inj heq
    exact h.setMain
  | exits =>
    obtain ⟨-, heq⟩ := Option.ite_none_right_eq_some.mp hs
    obtain rfl := Option.some.inj heq
    exact h.setMain
  | scan failed =>
    obtain ⟨-, heq⟩ := Option.ite_none_left_eq_some.mp hs
    obtain rfl := Option.some.inj heq
    exact h.scanStep
  | overwrite address value =>
    obtain ⟨-, heq⟩ := Option.ite_none_right_eq_some.mp hs
    obtain rfl := Option.some.inj heq
    exact h.overwrite (hl address value rfl)

end

/-! ## Runs in which the thread reads in time -/

/-- The words of a frame that is no longer live have been read. -/
structure ScanStart.Ahead (s : ScanStart) : Prop where
  pair : s.main.startRoutinesReturned = true → s.scan ≠ .readsFirst ∧ s.scan ≠ .readsSecond
  queues : s.main.mainReturned = true → s.scan = .loops

section

variable {f : Frames} {s s' : ScanStart} {l : ScanLabel} {garbage : ℕ}

/-- The scan thread does not go back. -/
theorem ScanStart.Ahead.scanStep {failed : Bool} (h : s.Ahead) : (s.scanStep f failed).Ahead := by
  obtain ⟨hpair, hqueues⟩ := h
  obtain ⟨mem, main, scan, dowQueuePair, uplQueuePair, downloadQueue, uploadQueue,
    failureCounter, calls⟩ := s
  cases scan with
  | readsFirst => exact ⟨fun h => absurd rfl (hpair h).1, fun h => ScanAt.noConfusion (hqueues h)⟩
  | readsSecond => exact ⟨fun h => absurd rfl (hpair h).2, fun h => ScanAt.noConfusion (hqueues h)⟩
  | readsDownload =>
    exact ⟨fun _ => ⟨ScanAt.noConfusion, ScanAt.noConfusion⟩,
      fun h => ScanAt.noConfusion (hqueues h)⟩
  | readsUpload => exact ⟨fun _ => ⟨ScanAt.noConfusion, ScanAt.noConfusion⟩, fun _ => rfl⟩
  | loops => exact ⟨hpair, hqueues⟩

/-- **Every step in time** keeps the thread ahead. -/
theorem step_ahead (h : s.Ahead) (hl : ReadInTime s l) (hs : s.step f l = some s') : s'.Ahead := by
  obtain ⟨hpair, hqueues⟩ := h
  cases l with
  | create ok =>
    rcases step_create hs with ⟨-, rfl⟩ | ⟨hmain, rfl⟩
    · cases ok with
      | true => exact ⟨Bool.noConfusion, Bool.noConfusion⟩
      | false => exact ⟨fun _ => hl.resolve_left fun h => Bool.noConfusion h.2, Bool.noConfusion⟩
    · have hread := hl.resolve_left fun h => by rw [hmain] at h; exact MainAt.noConfusion h.1
      cases ok with
      | true => exact ⟨fun _ => hread, Bool.noConfusion⟩
      | false => exact ⟨fun _ => hread, Bool.noConfusion⟩
  | mainReturns =>
    obtain ⟨hfailed, heq⟩ := Option.ite_none_right_eq_some.mp hs
    obtain rfl := Option.some.inj heq
    exact ⟨fun _ => hpair (by rw [hfailed]; rfl), fun _ => hl⟩
  | exits =>
    obtain ⟨hreturned, heq⟩ := Option.ite_none_right_eq_some.mp hs
    obtain rfl := Option.some.inj heq
    exact ⟨fun _ => hpair (by rw [hreturned]; rfl), fun _ => hqueues (by rw [hreturned]; rfl)⟩
  | scan failed =>
    obtain ⟨-, heq⟩ := Option.ite_none_left_eq_some.mp hs
    obtain rfl := Option.some.inj heq
    exact ScanStart.Ahead.scanStep ⟨hpair, hqueues⟩
  | overwrite address value =>
    obtain ⟨-, heq⟩ := Option.ite_none_right_eq_some.mp hs
    obtain rfl := Option.some.inj heq
    exact ⟨hpair, hqueues⟩

/-- What belongs to a frame that is no longer live is not to be read any more. -/
theorem ScanStart.Ahead.not_unread {address : ℕ} (h : s.Ahead) (hdead : s.dead f address = true) :
    address ∉ s.scan.unread f := by
  rcases (Bool.or_eq_true _ _).mp hdead with hpair | hqueues
  · obtain ⟨hreturned, haddress⟩ := (Bool.and_eq_true _ _).mp hpair
    have hapart := f.apart
    obtain ⟨hfirst, hsecond⟩ := h.pair hreturned
    have hrest : ∀ a ∈ s.scan.unread f, a = f.dowQueuePair + 1 ∨ a = f.uplQueuePair + 1 := by
      intro a ha
      cases hscan : s.scan with
      | readsFirst => exact absurd hscan hfirst
      | readsSecond => exact absurd hscan hsecond
      | readsDownload =>
        rw [hscan] at ha
        exact (List.mem_cons.mp ha).imp_right List.mem_singleton.mp
      | readsUpload =>
        rw [hscan] at ha
        exact .inr (List.mem_singleton.mp ha)
      | loops =>
        rw [hscan] at ha
        exact absurd ha List.not_mem_nil
    intro hunread
    have hword := hrest address hunread
    simp only [Bool.or_eq_true, decide_eq_true_eq] at haddress
    simp only [List.nodup_cons, List.mem_cons, not_or] at hapart
    omega
  · obtain ⟨hreturned, -⟩ := (Bool.and_eq_true _ _).mp hqueues
    rw [h.queues hreturned]
    exact List.not_mem_nil

/-- **Reading in time suffices**: the runs in which the thread reads before the functions return are
among those in which nothing is overwritten that it has still to read. -/
theorem reach_unspoilt
    (h : Reach (ScanStart.step f) (fun s l => ReadInTime s l) (ScanStart.initial f garbage) s) :
    Reach (ScanStart.step f) (Unspoilt f) (ScanStart.initial f garbage) s := by
  have hboth : Reach (ScanStart.step f) (Unspoilt f) (ScanStart.initial f garbage) s ∧ s.Ahead := by
    induction h with
    | init => exact ⟨.init, Bool.noConfusion, Bool.noConfusion⟩
    | tail hs hl hstep ih =>
      obtain ⟨hreach, hahead⟩ := ih
      refine ⟨hreach.tail ?_ hstep, step_ahead hahead hl hstep⟩
      rintro address value rfl hunread
      obtain ⟨hdead, -⟩ := Option.ite_none_right_eq_some.mp hstep
      exact absurd hunread (hahead.not_unread hdead)
  exact hboth.1

end

/-! ## The result -/

/-- **When the scanner works on its own queues.**  In every run in which no word that the scan
thread has still to read is overwritten, every call of `scan_fs` gets the secondary queues that
`init_data` has made. -/
theorem reach_ownQueues {f : Frames} {garbage : ℕ} {s : ScanStart}
    (h : Reach (ScanStart.step f) (Unspoilt f) (ScanStart.initial f garbage) s) : s.OwnQueues f :=
  (h.invariant (sound_initial garbage) fun _ _ _ hs hl hstep => hs.step hl hstep).ownQueues

/-- Three pairs and two queues. -/
def scanFrames : Frames where
  dowUplPair := 30
  dowQueuePair := 10
  uplQueuePair := 20
  secondaryDownload := 1
  secondaryUpload := 2
  mem a := if a = 30 then 10 else if a = 31 then 20 else if a = 11 then
    1 else if a = 21 then 2 else 0
  apart := by decide
  first := rfl
  second := rfl
  download := rfl
  upload := rfl

/-- A test for steps that overwrite nothing that is to be read. -/
def unspoiltTest (f : Frames) (s : ScanStart) : ScanLabel → Bool
  | .overwrite address _ => address ∉ s.scan.unread f
  | _ => true

theorem unspoilt_of_test {f : Frames} {s : ScanStart} {l : ScanLabel}
    (h : unspoiltTest f s l = true) :
    Unspoilt f s l := by
  rintro address value rfl hunread
  exact absurd hunread (of_decide_eq_true h)

/-- The thread reads in time, and the frame is used again afterwards. -/
theorem ownQueues_inTime :
    ∃ s, Reach (ScanStart.step scanFrames) (Unspoilt scanFrames)
      (ScanStart.initial scanFrames 0) s ∧
      s.calls = [(1, 2)] ∧ s.OwnQueues scanFrames := by
  have hrun : ((run (guardedBy (unspoiltTest scanFrames) (ScanStart.step scanFrames))
      (ScanStart.initial scanFrames 0)
      [.create true, .scan false, .scan false, .create true, .overwrite 30 0, .overwrite 31 0,
        .scan false, .scan false, .scan false]).any fun s =>
          decide (s.calls = [(1, 2)])) = true := by
    decide
  obtain ⟨s, hs, hp⟩ := Reach.exists_of_guarded (fun _ _ => unspoilt_of_test) hrun
  exact ⟨s, hs, of_decide_eq_true hp, reach_ownQueues hs⟩

/-- **A scanner on another queue**: `start_routines` returns before the thread has read the local
pair, and its frame is used again. -/
theorem not_ownQueues_late :
    ¬ ∀ (f : Frames) (garbage : ℕ) (s : ScanStart),
      Reach (ScanStart.step f) (fun _ _ => True) (ScanStart.initial f garbage) s →
        s.OwnQueues f := by
  intro hall
  have hrun : ((run (ScanStart.step scanFrames) (ScanStart.initial scanFrames 0)
      [.create true, .create true, .overwrite 30 20, .scan false, .scan false, .scan false,
        .scan false, .scan false]).any fun s => decide (s.calls = [(2, 2)])) = true := by
    decide
  obtain ⟨s, hs, hp⟩ := Reach.exists_of_run (fun _ _ _ => trivial) hrun
  have hcall : (2, 2) ∈ s.calls := by
    rw [of_decide_eq_true hp]
    exact List.mem_cons_self
  exact absurd (hall scanFrames 0 s hs (2, 2) hcall) (by decide)

end Daemon

end CloudTiering
