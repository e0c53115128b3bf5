import CloudTiering.App.ConfFailures
import CloudTiering.Foundations.Program
import CloudTiering.Queue.Capacity

/-!
# `daemon.c`: the start

The daemon reads its configuration, makes three queues, one of them in a shared memory object that
must not exist yet, connects to the store and creates its threads.  Every call may fail, and what
has been made has to be taken back by hand.

* `StartCall`, `StartWorld`, `answer`: the calls, the shared memory objects, and how the calls are
  answered.
* `queueInit`, `queueDestroy`, `initData`, `startRoutines`, `main`: the code.
* `StartOutline`: the walk through the code along the status of the object.
* `Repeatable`: after a failed start the object is as it was before, and the start can be repeated.
* `Status.Holds`, `objectOutline`: what has become of the object, along the code.
* `repeatable_iff`: a failed start can be repeated exactly if neither a `pthread_create` nor the
  `shm_unlink` of a clean-up has failed.
-/

namespace CloudTiering

open Foundations App

namespace Daemon
namespace Start

/-! ## The calls -/

/-- The start routines of the threads. -/
inductive Routine
  | scanFs | downloadFile | uploadFile
  deriving DecidableEq

/-- The calls of the start.  `shm_open` is the one with `O_CREAT | O_EXCL`, `ftruncate`, the shared
`mmap` and `close` are for the descriptor that it has returned. -/
inductive StartCall
  | sysconf
  | mmapPrivate (length : ℕ)
  | shmOpen (name : Bytes)
  | ftruncate (length : ℕ)
  | mmapShared (length : ℕ)
  | close
  | shmUnlink (name : Bytes)
  | munmap (length : ℕ)
  | connect
  | pthreadCreate (routine : Routine)
  deriving DecidableEq

/-- What a call yields that does not fail: the size of a page, the mapped memory, or nothing. -/
def StartVal : StartCall → Type
  | .sysconf => ℕ
  | .mmapPrivate _ | .mmapShared _ => ℕ → UInt8
  | _ => Unit

/-- The answer to a call, `none` if it fails. -/
abbrev StartRep (c : StartCall) : Type := Option (StartVal c)

/-- The code of the start. -/
abbrev StartProg := Prog StartCall StartRep

/-- One call. -/
def call (c : StartCall) : StartProg (StartRep c) := Prog.ask c

/-- The shared memory objects with the process that has created them, which of the coming calls
fail, and which calls have failed. -/
structure StartWorld where
  pageSize : ℕ
  memory : ℕ → UInt8
  shm : Bytes → Option ℕ
  fails : List Bool
  failed : List StartCall

/-- What a call yields, and the objects then.  An object is created only if there is none, and
removed only if there is one. -/
def perform (self : ℕ) (w : StartWorld) : (c : StartCall) → Option (StartVal c × (Bytes → Option ℕ))
  | .sysconf => some (w.pageSize, w.shm)
  | .mmapPrivate _ | .mmapShared _ => some (w.memory, w.shm)
  | .shmOpen name =>
      if w.shm name = none then some ((), Function.update w.shm name (some self)) else none
  | .shmUnlink name =>
      if w.shm name = none then none else some ((), Function.update w.shm name none)
  | .ftruncate _ | .close | .munmap _ | .connect | .pthreadCreate _ => some ((), w.shm)

/-- The answer to a call of the process `self`.  Behind the end of `fails` no call fails. -/
def answer (self : ℕ) (w : StartWorld) (c : StartCall) : StartRep c × StartWorld :=
  if w.fails.headD false = true then
    (none, { w with fails := w.fails.tail, failed := w.failed ++ [c] })
  else match perform self w c with
    | some (v, shm) => (some v, { w with fails := w.fails.tail, shm := shm })
    | none => (none, { w with fails := w.fails.tail })

/-! ## The code -/

/-- `QUEUE_SHM_OBJ`. -/
def queueShmObj : Bytes := ascii "/cloudtiering-queue"

/-- A queue with the fields of `queue_t` that `queue_destroy` uses. -/
structure MappedQueue where
  queue : Queue.QueueT
  totalSize : ℕ
  shmObj : Bytes

/-- `pair_t` with two queues. -/
structure QueuePair where
  first : Option MappedQueue
  second : Option MappedQueue

/-- `queue_init`; `none` for `-1`. -/
def queueInit (maxSize dataMaxSize : ℕ) (shmObj : Option Bytes) :
    StartProg (Option MappedQueue) := do
  match ← call .sysconf with
  | none => pure none
  | some pageSize =>
    let total := Queue.totalSizeAligned pageSize maxSize dataMaxSize
    match shmObj with
    | none =>
      match ← call (.mmapPrivate total) with
      | none => pure none
      | some mem => pure (some ⟨Queue.queueInit pageSize maxSize dataMaxSize mem, total, []⟩)
    | some name =>
      match ← call (.shmOpen name) with
      | none => pure none
      | some _ =>
        match ← call (.ftruncate total) with
        | none => do
          let _ ← call .close
          let _ ← call (.shmUnlink name)
          pure none
        | some _ =>
          match ← call (.mmapShared total) with
          | none => do
            let _ ← call .close
            let _ ← call (.shmUnlink name)
            pure none
          | some mem =>
            match ← call .close with
            | none => do
              let _ ← call (.munmap total)
              let _ ← call (.shmUnlink name)
              pure none
            | some _ => pure (some ⟨Queue.queueInit pageSize maxSize dataMaxSize mem, total, name⟩)

/-- `queue_destroy`. -/
def queueDestroy : Option MappedQueue → StartProg Unit
  | none => pure ()
  | some queue => do
      if queue.shmObj ≠ [] then
        let _ ← call (.shmUnlink queue.shmObj)
      let _ ← call (.munmap queue.totalSize)
      pure ()

/-- The value of a field of type `size_t`. -/
def sizeField (f : Field) (conf : Conf) : ℕ := decodeLE (f.bytes conf.mem)

/-- `init_data`: the two pairs of queues, or `none` for `-1`. -/
def initData (conf : Option Conf) : StartProg (Option (QueuePair × QueuePair)) := do
  match conf with
  | none => pure none
  | some conf =>
    let pathMax := sizeField .pathMax conf
    match ← queueInit (sizeField .primaryDownloadQueueMaxSize conf) pathMax (some queueShmObj) with
    | none => pure none
    | some dowFirst =>
      match ← queueInit (sizeField .secondaryDownloadQueueMaxSize conf) pathMax none with
      | none => do
        queueDestroy (some dowFirst)
        pure none
      | some dowSecond =>
        let uplFirst : Option MappedQueue := none
        match ← queueInit (sizeField .secondaryUploadQueueMaxSize conf) pathMax none with
        | none => do
          queueDestroy (some dowFirst)
          queueDestroy (some dowSecond)
          queueDestroy uplFirst
          pure none
        | some uplSecond =>
          match ← call .connect with
          | none => do
            queueDestroy (some dowFirst)
            queueDestroy (some dowSecond)
            queueDestroy uplFirst
            queueDestroy (some uplSecond)
            pure none
          | some _ => pure (some (⟨some dowFirst, some dowSecond⟩, ⟨uplFirst, some uplSecond⟩))

/-- `start_routines`: `false` for `-1`. -/
def startRoutines : StartProg Bool := do
  match ← call (.pthreadCreate .scanFs) with
  | none => pure false
  | some _ =>
    match ← call (.pthreadCreate .downloadFile) with
    | none => pure false
    | some _ =>
      match ← call (.pthreadCreate .uploadFile) with
      | none => pure false
      | some _ => pure true

/-- Where `main` gets: it returns `EXIT_FAILURE`, or it stays in `monitor_threads`. -/
inductive Outcome
  | exitFailure | monitorThreads
  deriving DecidableEq

/-- `main`; the configuration file has the option lines `lines`, and `read_conf` finds `env` and
gives up at `stop`. -/
def main (argc : ℕ) (env : ConfEnv) (lines : List OptionLine) (stop : Option ℕ) :
    StartProg Outcome := do
  if argc ≠ 2 then pure .exitFailure
  else if (readConfTo env lines stop unreadConf).1 ≠ 0 then pure .exitFailure
  else
    match ← initData (getConf (readConfTo env lines stop unreadConf).2) with
    | none => pure .exitFailure
    | some _ =>
      if ← startRoutines then pure .monitorThreads else pure .exitFailure

/-- A run of the code by the process `self`. -/
def runBy {α : Type} (self : ℕ) (p : StartProg α) (w : StartWorld) : Option (α × StartWorld) :=
  p.runWith (fun w c => some (answer self w c)) w

/-! ## Outlines -/

/-- Where the start is with the object; it has `ended` when nothing more will be done about it. -/
inductive Status
  | clean | held | stuck | ended

/-- The calls that neither concern the object nor are critical. -/
def StartCall.neutral : StartCall → Bool
  | .pthreadCreate _ | .shmUnlink _ | .shmOpen _ => false
  | _ => true

/-- An outline of the start: what is known in each status, and how the calls move on.  The object is
created by `shm_open` and taken back by `shm_unlink`, and it stays when a thread cannot be
created. -/
structure StartOutline {σ : Type} (K : Calls StartCall StartRep σ) where
  Holds : Status → σ → Prop
  ended_of_clean : ∀ s, Holds .clean s → Holds .ended s
  ended_of_stuck : ∀ s, Holds .stuck s → Holds .ended s
  neutral : ∀ st c, c.neutral = true → Prog.Triple K (Holds st) c fun _ => Holds st
  shmOpen : Prog.Triple K (Holds .clean) (.shmOpen queueShmObj) fun r s =>
    (r = none ∧ Holds .clean s) ∨ (r = some () ∧ Holds .held s)
  shmUnlink : Prog.Triple K (Holds .held) (.shmUnlink queueShmObj) fun _ => Holds .ended
  pthreadCreate : ∀ routine, Prog.Triple K (Holds .held) (.pthreadCreate routine) fun r s =>
    (r = none ∧ Holds .stuck s) ∨ (r = some () ∧ Holds .held s)

namespace StartOutline

variable {σ α : Type} {K : Calls StartCall StartRep σ} (O : StartOutline K) {s : σ} {c : StartCall}
  {st : Status} {Q : α → σ → Prop}

/-- Code that begins with a neutral call. -/
theorem wp_neutral {f : StartRep c → StartProg α} (hc : c.neutral = true) (hst : O.Holds st s)
    (h : ∀ r s', O.Holds st s' → (f r).wp K Q s') : (call c >>= f).wp K Q s :=
  Prog.wp_bind.mpr
    ⟨(O.neutral st c hc s hst).1, fun r s' hr => h r s' ((O.neutral st c hc s hst).2 r s' hr)⟩

/-- Code that begins with the removal of the object. -/
theorem wp_shmUnlink {f : StartRep (.shmUnlink queueShmObj) → StartProg α} (hst : O.Holds .held s)
    (h : ∀ r s', O.Holds .ended s' → (f r).wp K Q s') :
    (call (.shmUnlink queueShmObj) >>= f).wp K Q s :=
  Prog.wp_bind.mpr ⟨(O.shmUnlink s hst).1, fun r s' hr => h r s' ((O.shmUnlink s hst).2 r s' hr)⟩

/-- Code that begins with the creation of a thread. -/
theorem wp_pthreadCreate {routine : Routine} {f : StartRep (.pthreadCreate routine) → StartProg α}
    (hst : O.Holds .held s) (hfail : ∀ s', O.Holds .stuck s' → (f none).wp K Q s')
    (h : ∀ s', O.Holds .held s' → (f (some ())).wp K Q s') :
    (call (.pthreadCreate routine) >>= f).wp K Q s := by
  obtain ⟨hpre, hpost⟩ := O.pthreadCreate routine s hst
  refine Prog.wp_bind.mpr ⟨hpre, fun r s' hr => ?_⟩
  rcases hpost r s' hr with ⟨rfl, hst⟩ | ⟨rfl, hst⟩
  · exact hfail s' hst
  · exact h s' hst

/-- `queue_init` without an object. -/
theorem wp_queueInit_private {maxSize dataMaxSize : ℕ} (hst : O.Holds st s) :
    (queueInit maxSize dataMaxSize none).wp K
      (fun r s' => O.Holds st s' ∧ ∀ queue, r = some queue → queue.shmObj = []) s := by
  refine O.wp_neutral rfl hst fun r s hst => ?_
  cases r with
  | none => exact ⟨hst, fun queue h => absurd h.symm (Option.some_ne_none queue)⟩
  | some pageSize =>
    refine O.wp_neutral rfl hst fun r s hst => ?_
    cases r with
    | none => exact ⟨hst, fun queue h => absurd h.symm (Option.some_ne_none queue)⟩
    | some mem =>
      refine ⟨hst, fun queue h => ?_⟩
      obtain rfl := Option.some.inj h
      rfl

/-- How `queue_init` gives up the object: it lets go of the descriptor or the memory, and removes
the object. -/
theorem wp_takeBack {r : α} (hc : c.neutral = true) (hst : O.Holds .held s)
    (h : ∀ s', O.Holds .ended s' → Q r s') :
    (do let _ ← call c; let _ ← call (.shmUnlink queueShmObj); pure r : StartProg α).wp K Q s :=
  O.wp_neutral hc hst fun _ _ hst => O.wp_shmUnlink hst fun _ s hst => h s hst

/-- **`queue_init` with the object.**  When it fails, the object has been taken back or the removal
has failed. -/
theorem wp_queueInit_shared {maxSize dataMaxSize : ℕ} (hst : O.Holds .clean s) :
    (queueInit maxSize dataMaxSize (some queueShmObj)).wp K
      (fun r s' => (r = none ∧ O.Holds .ended s') ∨
        ∃ queue, r = some queue ∧ queue.shmObj = queueShmObj ∧ O.Holds .held s') s := by
  refine O.wp_neutral rfl hst fun r s hst => ?_
  cases r with
  | none => exact .inl ⟨rfl, O.ended_of_clean s hst⟩
  | some pageSize =>
    refine Prog.wp_bind.mpr ⟨(O.shmOpen s hst).1, fun r s' hr => ?_⟩
    rcases (O.shmOpen s hst).2 r s' hr with ⟨rfl, hst⟩ | ⟨rfl, hst⟩
    · exact .inl ⟨rfl, O.ended_of_clean s' hst⟩
    · refine O.wp_neutral rfl hst fun r s hst => ?_
      cases r with
      | none => exact O.wp_takeBack rfl hst fun s hst => .inl ⟨rfl, hst⟩
      | some _ =>
        refine O.wp_neutral rfl hst fun r s hst => ?_
        cases r with
        | none => exact O.wp_takeBack rfl hst fun s hst => .inl ⟨rfl, hst⟩
        | some mem =>
          refine O.wp_neutral rfl hst fun r s hst => ?_
          cases r with
          | none => exact O.wp_takeBack rfl hst fun s hst => .inl ⟨rfl, hst⟩
          | some _ => exact .inr ⟨_, rfl, rfl, hst⟩

/-- `queue_destroy` of a queue without an object. -/
theorem wp_queueDestroy_private {queue : MappedQueue} {f : Unit → StartProg α}
    (hq : queue.shmObj = [])
    (hst : O.Holds st s) (h : ∀ s', O.Holds st s' → (f ()).wp K Q s') :
    (queueDestroy (some queue) >>= f).wp K Q s := by
  obtain ⟨q, totalSize, shmObj⟩ := queue
  obtain rfl : shmObj = [] := hq
  exact O.wp_neutral rfl hst fun _ s hst => h s hst

/-- `queue_destroy` of the queue with the object. -/
theorem wp_queueDestroy_shared {queue : MappedQueue} {f : Unit → StartProg α}
    (hq : queue.shmObj = queueShmObj) (hst : O.Holds .held s)
    (h : ∀ s', O.Holds .ended s' → (f ()).wp K Q s') :
    (queueDestroy (some queue) >>= f).wp K Q s := by
  obtain ⟨q, totalSize, shmObj⟩ := queue
  obtain rfl : shmObj = queueShmObj := hq
  exact O.wp_shmUnlink hst fun _ s hst => O.wp_neutral rfl hst fun _ s hst => h s hst

/-- **`init_data`** returns its queues together with the object. -/
theorem wp_initData {conf : Option Conf} (hst : O.Holds .clean s) :
    (initData conf).wp K
      (fun r s' => (r = none ∧ O.Holds .ended s') ∨ (r.isSome = true ∧ O.Holds .held s')) s := by
  cases conf with
  | none => exact .inl ⟨rfl, O.ended_of_clean s hst⟩
  | some conf =>
    refine Prog.wp_bind.mpr (Prog.wp_mono (O.wp_queueInit_shared hst) ?_)
    rintro r s (⟨rfl, hst⟩ | ⟨dowFirst, rfl, hdow, hst⟩)
    · exact .inl ⟨rfl, hst⟩
    · refine Prog.wp_bind.mpr (Prog.wp_mono (O.wp_queueInit_private hst) ?_)
      rintro r s ⟨hst, hdowSecond⟩
      cases r with
      | none => exact O.wp_queueDestroy_shared hdow hst fun s hst => .inl ⟨rfl, hst⟩
      | some dowSecond =>
        refine Prog.wp_bind.mpr (Prog.wp_mono (O.wp_queueInit_private hst) ?_)
        rintro r s ⟨hst, huplSecond⟩
        cases r with
        | none =>
          refine O.wp_queueDestroy_shared hdow hst fun s hst => ?_
          exact O.wp_queueDestroy_private (hdowSecond _ rfl) hst fun s hst => .inl ⟨rfl, hst⟩
        | some uplSecond =>
          refine O.wp_neutral rfl hst fun r s hst => ?_
          cases r with
          | none =>
            refine O.wp_queueDestroy_shared hdow hst fun s hst => ?_
            refine O.wp_queueDestroy_private (hdowSecond _ rfl) hst fun s hst => ?_
            exact O.wp_queueDestroy_private (huplSecond _ rfl) hst fun s hst => .inl ⟨rfl, hst⟩
          | some _ => exact .inr ⟨rfl, hst⟩

/-- **`start_routines`.** -/
theorem wp_startRoutines (hst : O.Holds .held s) :
    startRoutines.wp K (fun r s' => (r = false ∧ O.Holds .stuck s') ∨
      (r = true ∧ O.Holds .held s')) s :=
  O.wp_pthreadCreate hst (fun _ hst => .inl ⟨rfl, hst⟩) fun _ hst =>
    O.wp_pthreadCreate hst (fun _ hst => .inl ⟨rfl, hst⟩) fun _ hst =>
      O.wp_pthreadCreate hst (fun _ hst => .inl ⟨rfl, hst⟩) fun _ hst => .inr ⟨rfl, hst⟩

/-- **`main`** gets to `monitor_threads` with the object only. -/
theorem wp_main {argc : ℕ} {env : ConfEnv} {lines : List OptionLine} {stop : Option ℕ}
    (hst : O.Holds .clean s) :
    (main argc env lines stop).wp K
      (fun r s' => (r = .exitFailure ∧ O.Holds .ended s') ∨
        (r = .monitorThreads ∧ O.Holds .held s')) s := by
  unfold main
  split
  · exact .inl ⟨rfl, O.ended_of_clean s hst⟩
  · split
    · exact .inl ⟨rfl, O.ended_of_clean s hst⟩
    · refine Prog.wp_bind.mpr (Prog.wp_mono (O.wp_initData hst) ?_)
      rintro r s (⟨rfl, hst⟩ | ⟨hr, hst⟩)
      · exact .inl ⟨rfl, hst⟩
      · obtain ⟨pairs, rfl⟩ := Option.isSome_iff_exists.mp hr
        refine Prog.wp_bind.mpr (Prog.wp_mono (O.wp_startRoutines hst) ?_)
        rintro r s (⟨rfl, hst⟩ | ⟨rfl, hst⟩)
        · exact .inl ⟨rfl, O.ended_of_stuck s hst⟩
        · exact .inr ⟨rfl, hst⟩

end StartOutline

/-! ## What a failed start leaves behind -/

/-- The system for the next start, in which nothing fails. -/
def StartWorld.restarted (w : StartWorld) : StartWorld := { w with fails := [], failed := [] }

/-- **A failed start can be repeated.**  If the object did not exist before, it does not exist now,
and a start in which nothing fails gets through `init_data`; and an object that existed is left in
place. -/
structure Repeatable (w w' : StartWorld) : Prop where
  absent : w.shm queueShmObj = none → w'.shm queueShmObj = none
  again : w.shm queueShmObj = none → ∀ (self : ℕ) (conf : Conf),
    ∃ pairs w'', runBy self (initData (some conf)) w'.restarted = some (some pairs, w'')
  inPlace : ∀ owner, w.shm queueShmObj = some owner → w'.shm queueShmObj = some owner

/-- The calls whose failure leaves the object behind: the creation of a thread, after which nothing
is taken back, and the removal of the object. -/
def StartCall.critical : StartCall → Bool
  | .pthreadCreate _ | .shmUnlink _ => true
  | _ => false

/-! ## The object along the code -/

/-- The object is as it was `before`. -/
def Clean (before : Option ℕ) (w : StartWorld) : Prop :=
  w.shm queueShmObj = before ∧ ∀ c ∈ w.failed, c.critical = false

/-- The process `self` has created the object, and it did not exist before. -/
def Held (self : ℕ) (before : Option ℕ) (w : StartWorld) : Prop :=
  before = none ∧ w.shm queueShmObj = some self ∧ ∀ c ∈ w.failed, c.critical = false

/-- The object did not exist before, and it is left behind because of a critical failure. -/
def Stuck (before : Option ℕ) (w : StartWorld) : Prop :=
  before = none ∧ w.shm queueShmObj ≠ none ∧ ∃ c ∈ w.failed, c.critical = true

/-- What is known then. -/
def Status.Holds (self : ℕ) (before : Option ℕ) : Status → StartWorld → Prop
  | .clean, w => Clean before w
  | .held, w => Held self before w
  | .stuck, w => Stuck before w
  | .ended, w => Clean before w ∨ Stuck before w

/-- The reading of the calls by their answers. -/
def startCalls (self : ℕ) : Calls StartCall StartRep StartWorld where
  pre _ _ := True
  post w c r w' := answer self w c = (r, w')

section

variable {self : ℕ} {before : Option ℕ} {w w' : StartWorld} {c : StartCall} {α : Type}

/-- How a call is answered. -/
theorem answer_cases {r : StartRep c} (h : answer self w c = (r, w')) :
    (r = none ∧ w'.shm = w.shm ∧ w'.failed = w.failed ++ [c]) ∨
      (∃ v shm, perform self w c = some (v, shm) ∧ r = some v ∧ w'.shm = shm ∧
        w'.failed = w.failed) ∨
      (perform self w c = none ∧ r = none ∧ w'.shm = w.shm ∧ w'.failed = w.failed) := by
  unfold answer at h
  split at h
  · obtain ⟨rfl, rfl⟩ := Prod.mk.inj h
    exact .inl ⟨rfl, rfl, rfl⟩
  · cases hp : perform self w c with
    | some a =>
      rw [hp] at h
      obtain ⟨rfl, rfl⟩ := Prod.mk.inj h
      exact .inr (.inl ⟨a.1, a.2, rfl, rfl, rfl, rfl⟩)
    | none =>
      rw [hp] at h
      obtain ⟨rfl, rfl⟩ := Prod.mk.inj h
      exact .inr (.inr ⟨rfl, rfl, rfl, rfl⟩)

theorem shm_of_perform {a : StartVal c × (Bytes → Option ℕ)} (hc : c.neutral = true)
    (h : perform self w c = some a) : a.2 = w.shm := by
  cases c with
  | shmOpen name | shmUnlink name => exact absurd hc Bool.false_ne_true
  | _ =>
    obtain rfl := Option.some.inj h
    rfl

/-- A neutral call leaves the objects alone, and if it fails, this is not critical. -/
theorem answer_neutral {r : StartRep c} (hc : c.neutral = true) (h : answer self w c = (r, w')) :
    w'.shm = w.shm ∧ (w'.failed = w.failed ∨ w'.failed = w.failed ++ [c]) := by
  rcases answer_cases h with ⟨-, hshm, hfailed⟩ | ⟨v, shm, hp, -, hshm, hfailed⟩ |
    ⟨-, -, hshm, hfailed⟩
  · exact ⟨hshm, .inr hfailed⟩
  · exact ⟨hshm.trans (shm_of_perform hc hp), .inl hfailed⟩
  · exact ⟨hshm, .inl hfailed⟩

theorem critical_of_neutral (hc : c.neutral = true) : c.critical = false := by
  cases c with
  | pthreadCreate routine => exact absurd hc Bool.false_ne_true
  | shmUnlink name => exact absurd hc Bool.false_ne_true
  | _ => rfl

/-- Calls that are not critical keep the record free of critical failures. -/
theorem not_critical_append {l : List StartCall} (hc : c.critical = false)
    (h : ∀ c ∈ l, c.critical = false) : ∀ c' ∈ l ++ [c], c'.critical = false := by
  intro c' hc'
  rcases List.mem_append.mp hc' with hc' | hc'
  · exact h c' hc'
  · obtain rfl := List.mem_singleton.mp hc'
    exact hc

/-- **A neutral call keeps the status.** -/
theorem Status.Holds.neutral {st : Status} {r : StartRep c} (hst : st.Holds self before w)
    (hc : c.neutral = true) (h : answer self w c = (r, w')) : st.Holds self before w' := by
  obtain ⟨hshm, hfailed⟩ := answer_neutral hc h
  have hkept : (∀ c ∈ w.failed, c.critical = false) → ∀ c ∈ w'.failed, c.critical = false := by
    intro hnone
    rcases hfailed with hfailed | hfailed
    · rwa [hfailed]
    · rw [hfailed]
      exact not_critical_append (critical_of_neutral hc) hnone
  have hclean : Clean before w → Clean before w' := fun h => ⟨by rw [hshm]; exact h.1, hkept h.2⟩
  have hstuck : Stuck before w → Stuck before w' := by
    rintro ⟨hbefore, hobject, c', hc', hcrit⟩
    refine ⟨hbefore, by rwa [hshm], c', ?_, hcrit⟩
    rcases hfailed with hfailed | hfailed
    · rwa [hfailed]
    · rw [hfailed]
      exact List.mem_append_left _ hc'
  cases st with
  | clean => exact hclean hst
  | held => exact ⟨hst.1, by rw [hshm]; exact hst.2.1, hkept hst.2.2⟩
  | stuck => exact hstuck hst
  | ended => exact hst.imp hclean hstuck

/-- `shm_open`: the object is created, or it is as it was. -/
theorem holds_shmOpen {r : StartRep (.shmOpen queueShmObj)} (hst : Status.clean.Holds self before w)
    (h : answer self w (.shmOpen queueShmObj) = (r, w')) :
    (r = none ∧ Status.clean.Holds self before w') ∨
      (r = some () ∧ Status.held.Holds self before w') := by
  rcases answer_cases h with ⟨hr, hshm, hfailed⟩ | ⟨v, shm, hp, hr, hshm, hfailed⟩ |
    ⟨-, hr, hshm, hfailed⟩
  · refine .inl ⟨hr, by rw [hshm]; exact hst.1, ?_⟩
    rw [hfailed]
    exact not_critical_append rfl hst.2
  · obtain ⟨habsent, heq⟩ := Option.ite_none_right_eq_some.mp hp
    obtain ⟨-, rfl⟩ := Prod.mk.inj (Option.some.inj heq)
    refine .inr ⟨hr, hst.1.symm.trans habsent, ?_, by rw [hfailed]; exact hst.2⟩
    rw [hshm]
    exact Function.update_self _ _ _
  · exact .inl ⟨hr, by rw [hshm]; exact hst.1, by rw [hfailed]; exact hst.2⟩

/-- `shm_unlink` of the object that the start has created. -/
theorem holds_shmUnlink {r : StartRep (.shmUnlink queueShmObj)}
    (hst : Status.held.Holds self before w)
    (h : answer self w (.shmUnlink queueShmObj) = (r, w')) : Status.ended.Holds self before w' := by
  obtain ⟨hbefore, hobject, hnone⟩ := hst
  have hexists : w.shm queueShmObj ≠ none := by
    rw [hobject]
    exact Option.some_ne_none self
  rcases answer_cases h with ⟨-, hshm, hfailed⟩ | ⟨v, shm, hp, -, hshm, hfailed⟩ | ⟨hp, -⟩
  · refine .inr ⟨hbefore, by rwa [hshm], .shmUnlink queueShmObj, ?_, rfl⟩
    rw [hfailed]
    exact List.mem_append_right _ List.mem_cons_self
  · obtain ⟨-, heq⟩ := Option.ite_none_left_eq_some.mp hp
    obtain ⟨-, rfl⟩ := Prod.mk.inj (Option.some.inj heq)
    refine .inl ⟨?_, by rw [hfailed]; exact hnone⟩
    rw [hshm, hbefore]
    exact Function.update_self _ _ _
  · rw [perform, if_neg hexists] at hp
    exact absurd hp (Option.some_ne_none _)

/-- `pthread_create`: when it fails, the object stays. -/
theorem holds_pthreadCreate {routine : Routine} {r : StartRep (.pthreadCreate routine)}
    (hst : Status.held.Holds self before w) (h : answer self w (.pthreadCreate routine) = (r, w')) :
    (r = none ∧ Status.stuck.Holds self before w') ∨
      (r = some () ∧ Status.held.Holds self before w') := by
  obtain ⟨hbefore, hobject, hnone⟩ := hst
  rcases answer_cases h with ⟨hr, hshm, hfailed⟩ | ⟨v, shm, hp, hr, hshm, hfailed⟩ | ⟨hp, -⟩
  · refine .inl ⟨hr, hbefore, ?_, .pthreadCreate routine, ?_, rfl⟩
    · rw [hshm, hobject]
      exact Option.some_ne_none self
    · rw [hfailed]
      exact List.mem_append_right _ List.mem_cons_self
  · obtain ⟨-, rfl⟩ := Prod.mk.inj (Option.some.inj hp)
    exact .inr ⟨hr, hbefore, by rw [hshm]; exact hobject, by rw [hfailed]; exact hnone⟩
  · exact absurd hp (Option.some_ne_none _)

/-- The outline of the start of the process `self`. -/
def objectOutline (self : ℕ) (before : Option ℕ) : StartOutline (startCalls self) where
  Holds st := st.Holds self before
  ended_of_clean _ hst := .inl hst
  ended_of_stuck _ hst := .inr hst
  neutral _ _ hc _ hst := ⟨trivial, fun _ _ hr => hst.neutral hc hr⟩
  shmOpen _ hst := ⟨trivial, fun _ _ hr => holds_shmOpen hst hr⟩
  shmUnlink _ hst := ⟨trivial, fun _ _ hr => holds_shmUnlink hst hr⟩
  pthreadCreate _ _ hst := ⟨trivial, fun _ _ hr => holds_pthreadCreate hst hr⟩

/-! ## A start in which nothing fails -/

variable {Q : α → StartWorld → Prop}

/-- Code that begins with a call, where nothing fails. -/
theorem wp_answered {f : StartRep c → StartProg α} {v : StartVal c} {shm : Bytes → Option ℕ}
    (hfails : w.fails = []) (hp : perform self w c = some (v, shm))
    (h : ∀ w', w'.fails = [] → w'.shm = shm → (f (some v)).wp (startCalls self) Q w') :
    (call c >>= f).wp (startCalls self) Q w := by
  refine Prog.wp_bind.mpr ⟨trivial, fun r w' hr => ?_⟩
  replace hr : answer self w c = (r, w') := hr
  unfold answer at hr
  rw [hfails, if_neg (by decide), hp] at hr
  obtain ⟨rfl, rfl⟩ := Prod.mk.inj hr
  exact h _ rfl rfl

theorem wp_queueInit_answered {maxSize dataMaxSize : ℕ} {shmObj : Option Bytes}
    (hfails : w.fails = [])
    (habsent : ∀ name, shmObj = some name → w.shm name = none) :
    (queueInit maxSize dataMaxSize shmObj).wp (startCalls self)
      (fun r w' => r.isSome = true ∧ w'.fails = []) w := by
  refine wp_answered hfails rfl fun w hfails hshm => ?_
  cases shmObj with
  | none => exact wp_answered hfails rfl fun w hfails _ => ⟨rfl, hfails⟩
  | some name =>
    rw [← hshm] at habsent
    refine wp_answered hfails (if_pos (habsent name rfl)) fun w hfails _ => ?_
    refine wp_answered hfails rfl fun w hfails _ => ?_
    refine wp_answered hfails rfl fun w hfails _ => ?_
    exact wp_answered hfails rfl fun w hfails _ => ⟨rfl, hfails⟩

/-- **Without the object, `init_data` gets through.** -/
theorem wp_initData_answered {conf : Conf} (hfails : w.fails = [])
    (habsent : w.shm queueShmObj = none) :
    (initData (some conf)).wp (startCalls self) (fun r _ => r.isSome = true) w := by
  have hprivate : ∀ (w : StartWorld) (name : Bytes), none = some name → w.shm name = none :=
    fun _ name h => absurd h.symm (Option.some_ne_none name)
  refine Prog.wp_bind.mpr (Prog.wp_mono (wp_queueInit_answered hfails ?_) ?_)
  · intro name hname
    obtain rfl := Option.some.inj hname
    exact habsent
  rintro r w ⟨hr, hfails⟩
  obtain ⟨dowFirst, rfl⟩ := Option.isSome_iff_exists.mp hr
  refine Prog.wp_bind.mpr (Prog.wp_mono (wp_queueInit_answered hfails (hprivate w)) ?_)
  rintro r w ⟨hr, hfails⟩
  obtain ⟨dowSecond, rfl⟩ := Option.isSome_iff_exists.mp hr
  refine Prog.wp_bind.mpr (Prog.wp_mono (wp_queueInit_answered hfails (hprivate w)) ?_)
  rintro r w ⟨hr, hfails⟩
  obtain ⟨uplSecond, rfl⟩ := Option.isSome_iff_exists.mp hr
  exact wp_answered hfails rfl fun _ _ _ => rfl

/-- Such a run of `init_data` returns. -/
theorem exists_initData_answered {conf : Conf} (hfails : w.fails = [])
    (habsent : w.shm queueShmObj = none) :
    ∃ pairs w', runBy self (initData (some conf)) w = some (some pairs, w') := by
  have hwp : (initData (some conf)).wp (startCalls self) (fun r _ => r.isSome = true) w :=
    wp_initData_answered hfails habsent
  obtain ⟨r, w', hrun, hr⟩ := Prog.wp_runWith id
    (fun t c _ => ⟨(answer self t c).1, (answer self t c).2, rfl, rfl⟩) hwp
  obtain ⟨pairs, rfl⟩ := Option.isSome_iff_exists.mp hr
  exact ⟨pairs, w', hrun⟩

/-! ## The result -/

/-- **When a failed start can be repeated.**  Where `main` returns `EXIT_FAILURE`, the object is as
it was and the start can be repeated exactly if neither a `pthread_create` nor a `shm_unlink` has
failed. -/
theorem repeatable_iff {argc : ℕ} {env : ConfEnv} {lines : List OptionLine} {stop : Option ℕ}
    (hfresh : w.failed = [])
    (hrun : runBy self (main argc env lines stop) w = some (.exitFailure, w')) :
    Repeatable w w' ↔ ∀ c ∈ w'.failed, c.critical = false := by
  have hclean : Status.clean.Holds self (w.shm queueShmObj) w := by
    refine ⟨rfl, fun c hc => ?_⟩
    rw [hfresh] at hc
    exact absurd hc List.not_mem_nil
  have hmain := Prog.wp_of_runWith (K := startCalls self) id (fun _ _ _ _ h => Option.some.inj h)
    ((objectOutline self (w.shm queueShmObj)).wp_main hclean) hrun
  have hended : Clean (w.shm queueShmObj) w' ∨ Stuck (w.shm queueShmObj) w' :=
    (hmain.resolve_right fun h => Outcome.noConfusion h.1).2
  rcases hended with ⟨hobject, hnone⟩ | ⟨hbefore, hobject, c, hc, hcrit⟩
  · refine iff_of_true ⟨fun h => hobject.trans h, fun h self conf => ?_, fun owner h =>
      hobject.trans h⟩ hnone
    exact exists_initData_answered rfl (hobject.trans h)
  · refine iff_of_false (fun h => hobject (h.absent hbefore)) fun h => ?_
    have hfalse := h c hc
    rw [hcrit] at hfalse
    exact Bool.noConfusion hfalse

end

/-- The options of a file. -/
def startLines : List OptionLine := .pathMax 127 :: withoutPathMax

/-- No object, and some of the coming calls fail. -/
def startWorld (fails : List Bool) : StartWorld :=
  { pageSize := 4096, memory := fun _ => 0, shm := fun _ => none, fails := fails, failed := [] }

/-- The first nine calls do not fail, the connection does. -/
def connectFails : List Bool := List.replicate 9 false ++ [true]

/-- The creation of the first thread fails. -/
def pthreadCreateFails : List Bool := List.replicate 10 false ++ [true]

/-- The store cannot be reached. -/
theorem repeatable_connectFails :
    ∃ w', runBy 1 (main 2 confEnv startLines none) (startWorld connectFails) =
      some (.exitFailure, w') ∧
      (Repeatable (startWorld connectFails) w' ↔ ∀ c ∈ w'.failed, c.critical = false) := by
  have hrun : ∃ w', runBy 1 (main 2 confEnv startLines none) (startWorld connectFails) =
      some (.exitFailure, w') := ⟨_, rfl⟩
  obtain ⟨w', hrun⟩ := hrun
  exact ⟨w', hrun, repeatable_iff rfl hrun⟩

/-- **A start that cannot be repeated.**  When a thread cannot be created, the object stays
behind. -/
theorem not_repeatable_pthreadCreateFails :
    ¬ ∀ (self argc : ℕ) (env : ConfEnv) (lines : List OptionLine) (stop : Option ℕ)
      (w w' : StartWorld),
      w.failed = [] → runBy self (main argc env lines stop) w = some (.exitFailure, w') →
        Repeatable w w' := by
  intro h
  have hrepeat := h 1 2 confEnv startLines none (startWorld pthreadCreateFails) _ rfl rfl
  exact absurd (hrepeat.absent rfl) (by decide)

end Start
end Daemon

end CloudTiering
