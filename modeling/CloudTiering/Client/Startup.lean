import CloudTiering.Client.Open
import CloudTiering.Foundations.Transition
import CloudTiering.Queue.Layout

/-!
# A client and the start of the daemon

`init_vars_once` looks for the shared queue once in the life of a process.  Whatever it finds is
kept, so that a call of `schedule_download` that comes too early decides about all later ones.

* `Stage`: how far the daemon is with `queue_init`.
* `QueueObject`: what the daemon gives the queue, its sizes and its `data_max_size`.
* `Startup`, `Startup.step`: one process with its calls of `schedule_download`, one system call at a
  time, and the daemon.  A system call fails only because the object is not there yet, or is empty
  when it is asked for its size, or because the queue takes no element of that size.
* `Startup.Served`: every call that begins when the queue is ready pushes its path and returns `0`.
* `startCalls`: the reading of the calls in which the object is there.
* `OnTime`, `QueueObject.TakesPaths`, `reach_served`: the conditions under which the process is
  served, and the result.
-/

namespace CloudTiering

open Foundations

namespace Client

/-! ## The daemon's start and the calls of the process -/

/-- How far the daemon is with `queue_init`: the object is created, then it is given its size, and
at the end `queue_init` returns. -/
inductive Stage
  | absent | created | sized | ready
  deriving DecidableEq

/-- The next stage. -/
def Stage.next : Stage → Option Stage
  | .absent => some .created
  | .created => some .sized
  | .sized => some .ready
  | .ready => none

/-- The shared memory object that `queue_init` makes, by the arguments that it is given; the total
size of the queue does not need reduction. -/
structure QueueObject where
  pageSize : ℕ
  maxSize : ℕ
  dataMaxSize : ℕ
  fits : Queue.unreduced pageSize maxSize dataMaxSize < Queue.sizeTMod

/-- The size that `queue_init` gives the object. -/
def QueueObject.totalSize (q : QueueObject) : ℕ :=
  Queue.totalSizeAligned q.pageSize q.maxSize q.dataMaxSize

theorem QueueObject.totalSize_pos (q : QueueObject) : 0 < q.totalSize := by
  rw [totalSize, (Queue.totalSizeAligned_of_unreduced q.fits).2, Queue.unreduced]
  exact Nat.lt_of_lt_of_le (by decide : 0 < Queue.sizeofQueueT)
    ((Nat.le_add_right _ _).trans (Nat.le_add_right _ _))

/-- What `fstat` says about the size of the object. -/
def QueueObject.stSize (q : QueueObject) : Stage → ℕ
  | .absent | .created => 0
  | .sized | .ready => q.totalSize

/-- The queue takes the elements that `schedule_download` pushes; all have the same size. -/
def QueueObject.TakesPaths (q : QueueObject) : Prop := procPidFdFdPathMaxLen ≤ q.dataMaxSize

instance (q : QueueObject) : Decidable q.TakesPaths := Nat.decLe _ _

/-- A call of `schedule_download` that is under way: whether `queue_init` had returned when it
began, and the paths that it has pushed. -/
structure Scheduling where
  fd : Fd
  afterStart : Bool
  prog : Sys (Except Errno Unit × Vars)
  pushed : List Bytes

/-- A call of `schedule_download` that has returned. -/
structure Scheduled where
  fd : Fd
  afterStart : Bool
  ret : Except Errno Unit
  pushed : List Bytes

/-- The daemon's start, the queue, and the process: the variables of the library, the call that is
under way, and the calls that have returned. -/
structure Startup where
  stage : Stage
  world : World
  vars : Vars
  call : Option Scheduling
  returned : List Scheduled

/-- The labels of the steps. -/
inductive StartLabel
  /-- The daemon gets on with `queue_init`. -/
  | daemon
  /-- The daemon and other processes work on the queue. -/
  | others (requests : List Bytes)
  /-- The process calls `schedule_download`; `stale` is in the buffer. -/
  | call (fd : Fd) (stale : Bytes)
  /-- A system call of the process is answered. -/
  | answer (ch : Choice)
  /-- The call returns. -/
  | ret

/-- The answers to the system calls.  `shm_open` fails as long as the object does not exist, and
`mmap` where it is given the size `0`.  A push on a queue that is not ready may return anything and
adds nothing to the queue; one on a queue that is ready is refused where the element is larger than
`data_max_size`. -/
def answered (q : QueueObject) (stage : Stage) (w : World) (ch : Choice) :
    (c : Call) → Option (Rep c × World)
  | .shmOpen => some (if stage = .absent then .error .enoent else .ok (), w)
  | .shmStat => some (.ok (q.stSize stage), w)
  | .shmMap len => some (if len = 0 then .error .eio else .ok (), w)
  | .queuePush data =>
      if stage = .ready then
        if q.TakesPaths then exec w .ok (.queuePush data) else some (.error .eio, w)
      else match ch with
        | .ok => some (.ok (), w)
        | .fail e => some (.error e, w)
        | _ => none
  | .getpid self => some (self, w)
  | _ => none

/-- The paths that a call has pushed after an answer. -/
def pathsBy (pushed : List Bytes) : (c : Call) → Rep c → List Bytes
  | .queuePush data, r => match r with
    | .ok _ => pushed ++ [data]
    | .error _ => pushed
  | _, _ => pushed

/-- A system call of the call that is under way. -/
def Startup.answer (q : QueueObject) (s : Startup) (now : Scheduling) (ch : Choice) :
    Option Startup :=
  match now.prog with
  | .ret _ => none
  | .call c f => (answered q s.stage s.world ch c).map fun a =>
      { s with
        world := a.2
        call := some { now with prog := f a.1, pushed := pathsBy now.pushed c a.1 } }

/-- The call that is under way returns. -/
def Startup.finish (s : Startup) (now : Scheduling) : Option Startup :=
  match now.prog with
  | .call _ _ => none
  | .ret (ret, vars) => some
      { s with
        vars := vars
        call := none
        returned := s.returned ++ [⟨now.fd, now.afterStart, ret, now.pushed⟩] }

/-- A step; `self` is the pid of the process. -/
def Startup.step (q : QueueObject) (self : ℕ) (s : Startup) : StartLabel → Option Startup
  | .daemon => s.stage.next.map fun stage => { s with stage := stage }
  | .others requests => some { s with world := { s.world with requests := requests } }
  | .call fd stale =>
      if s.call.isSome then none
      else some { s with
        call := some ⟨fd, decide (s.stage = .ready), scheduleDownload self stale s.vars fd, []⟩ }
  | .answer ch => s.call.bind fun now => s.answer q now ch
  | .ret => s.call.bind fun now => s.finish now

/-- Nothing has happened yet. -/
def Startup.initial (w : World) : Startup :=
  { stage := .absent, world := w, vars := {}, call := none, returned := [] }

/-- A call has pushed its path, once, and has returned `0`. -/
def Scheduled.Good (self : ℕ) (r : Scheduled) : Prop :=
  r.ret = .ok () ∧ r.pushed.map cString = [procPidFdFdPath self r.fd.num]

/-- Steps of the process within its call. -/
def StartLabel.isOwn : StartLabel → Bool
  | .answer _ | .ret => true
  | _ => false

/-- Every call that began after `queue_init` had returned does its work: where it has returned, it
has pushed its path and returned `0`; where it has not, it returns, unless it has to wait for room
in the queue. -/
def Startup.Served (q : QueueObject) (self : ℕ) (s : Startup) : Prop :=
  (∀ r ∈ s.returned, r.afterStart = true → r.Good self) ∧
    ∀ now, s.call = some now → now.afterStart = true →
      s.world.requests.length < s.world.maxRequests →
      ∃ ls s', (∀ l ∈ ls, l.isOwn = true) ∧ run (Startup.step q self) s ls = some s' ∧
        ∃ r, s'.returned = s.returned ++ [r] ∧ r.fd = now.fd ∧ r.Good self

/-- The system call that the process makes next comes in time: `shm_open` when the object exists,
`fstat` when it has its size, `queue_push` when `queue_init` has returned. -/
def onTimeCall (stage : Stage) : Call → Bool
  | .shmOpen => stage ≠ .absent
  | .shmStat => stage = .sized || stage = .ready
  | .queuePush _ => stage = .ready
  | _ => true

/-- The next system call of the process comes in time. -/
def Startup.onTime (s : Startup) : StartLabel → Bool
  | .answer _ => s.call.all fun now => match now.prog with
    | .ret _ => true
    | .call c _ => onTimeCall s.stage c
  | _ => true

/-- The condition on a step. -/
def OnTime (s : Startup) (l : StartLabel) : Prop := s.onTime l = true

/-! ## The calls of `schedule_download` -/

/-- The answer of a system call that comes in time. -/
def answeredInTime : (c : Call) → Rep c → Prop
  | .getpid self, r => r = self
  | .shmOpen, r => r = .ok ()
  | .shmStat, r => ∃ n, 0 < n ∧ r = .ok n
  | .shmMap len, r => 0 < len → r = .ok ()
  | .queuePush _, r => r = .ok ()
  | _, _ => False

/-- The calls in front of the push, and the push. -/
def isScheduleCall : Call → Bool
  | .getpid _ | .shmOpen | .shmStat | .shmMap _ | .queuePush _ => true
  | _ => false

/-- The reading of the calls where all come in time: the state is what has been pushed so far. -/
def startCalls : Calls Call Rep (List Bytes) where
  pre pushed c := isScheduleCall c = true ∧ pushed = []
  post pushed c r pushed' := answeredInTime c r ∧ pushed' = pathsBy pushed c r

/-- The variables between the calls: the process that has looked for the queue has found it. -/
def Found (self : ℕ) (vars : Vars) : Prop :=
  vars.once = true → vars.queue = true ∧ vars.pid = some self

/-- How a call ends. -/
def Ends (self : ℕ) (fd : Fd) (a : Except Errno Unit × Vars) (pushed : List Bytes) : Prop :=
  a.1 = .ok () ∧ pushed.map cString = [procPidFdFdPath self fd.num] ∧ Found self a.2

section

variable {self : ℕ} {fd : Fd} {vars : Vars}

/-- A call in front of the push. -/
theorem wp_before_push {α : Type} {c : Call} {f : Rep c → Sys α} {Q : α → List Bytes → Prop}
    (hc : isScheduleCall c = true) (hpaths : ∀ r, pathsBy [] c r = [])
    (hf : ∀ r, answeredInTime c r → (f r).wp startCalls Q []) :
    (sys c >>= f).wp startCalls Q [] := by
  refine Prog.wp_bind.mpr ⟨⟨hc, rfl⟩, ?_⟩
  rintro r pushed' ⟨hr, rfl⟩
  rw [hpaths]
  exact hf r hr

/-- `init_vars_once` finds the queue. -/
theorem wp_initVarsOnce_found :
    (initVarsOnce self vars).wp startCalls
      (fun vars' pushed => (vars'.queue = true ∧ vars'.pid = some self) ∧ pushed = []) [] := by
  refine wp_before_push rfl (fun _ => rfl) fun r hr => ?_
  have hpid : some r = some self := congrArg some hr
  show Prog.wp startCalls (if vars.queue = true then _ else _) _ _
  split
  · exact ⟨⟨‹_›, hpid⟩, rfl⟩
  · refine wp_before_push rfl (fun _ => rfl) fun r hr => ?_
    obtain rfl : r = .ok () := hr
    refine wp_before_push rfl (fun _ => rfl) fun r hr => ?_
    obtain ⟨stSize, hpos, rfl⟩ : ∃ n, 0 < n ∧ r = .ok n := hr
    refine wp_before_push rfl (fun _ => rfl) fun r hr => ?_
    obtain rfl : r = .ok () := hr hpos
    exact ⟨⟨rfl, hpid⟩, rfl⟩

/-- A call whose system calls all come in time pushes its path and returns `0`. -/
theorem wp_scheduleDownload_found {stale : Bytes} (hvars : Found self vars) :
    (scheduleDownload self stale vars fd).wp startCalls (Ends self fd) [] := by
  unfold scheduleDownload
  split <;> refine Prog.wp_bind.mpr (Prog.wp_mono
    (Q := fun vars' pushed => (vars'.queue = true ∧ vars'.pid = some self) ∧ pushed = []) ?_ ?_)
  · exact ⟨hvars ‹_›, rfl⟩
  on_goal 2 => exact wp_initVarsOnce_found
  -- the push is the same whether the variables had been set before or not
  all_goals
    rintro vars' pushed ⟨⟨hqueue, hpid⟩, rfl⟩
    have hget : vars'.pid.getD 0 = self := by rw [hpid]; rfl
    dsimp only
    rw [if_pos hqueue]
    refine Prog.wp_bind.mpr ⟨⟨rfl, rfl⟩, ?_⟩
    rintro r pushed' ⟨hr, rfl⟩
    obtain rfl : r = .ok () := hr
    refine ⟨rfl, ?_, fun _ => ⟨hqueue, hpid⟩⟩
    show [cString (downloadRequest (vars'.pid.getD 0) fd.num stale)] = _
    rw [hget, cString_downloadRequest]

end

/-! ## The invariant -/

section

variable {q : QueueObject} {self : ℕ} {s s' : Startup} {now : Scheduling} {ch : Choice}

/-- What holds while every system call comes in time. -/
structure Startup.InTime (pid : ℕ) (s : Startup) : Prop where
  vars : Found pid s.vars
  call : ∀ now, s.call = some now →
    now.prog.wp startCalls (Ends pid now.fd) now.pushed ∧ (now.afterStart = true → s.stage = .ready)
  returned : ∀ r ∈ s.returned, r.Good pid

theorem inTime_initial (w : World) : (Startup.initial w).InTime self :=
  ⟨fun h => absurd h Bool.false_ne_true, fun now h => absurd h.symm (Option.some_ne_none now),
    fun _ hr => absurd hr List.not_mem_nil⟩

/-- The answer to a system call that comes in time. -/
theorem answeredInTime_of_answered {stage : Stage} {w w' : World} {c : Call} {r : Rep c}
    (hq : q.TakesPaths) (hc : isScheduleCall c = true) (htime : onTimeCall stage c = true)
    (h : answered q stage w ch c = some (r, w')) : answeredInTime c r := by
  cases c with
  | getpid self => exact (Prod.mk.inj (Option.some.inj h)).1.symm
  | shmOpen =>
    have hr := (Prod.mk.inj (Option.some.inj h)).1
    rw [if_neg (of_decide_eq_true htime)] at hr
    exact hr.symm
  | shmStat =>
    have hsized : stage = .sized ∨ stage = .ready := by simpa [onTimeCall] using htime
    refine ⟨q.totalSize, q.totalSize_pos, ?_⟩
    rcases hsized with rfl | rfl <;> exact (Prod.mk.inj (Option.some.inj h)).1.symm
  | shmMap len =>
    intro hpos
    have hr := (Prod.mk.inj (Option.some.inj h)).1
    rw [if_neg hpos.ne'] at hr
    exact hr.symm
  | queuePush data =>
    have hexec : (if stage = .ready then _ else _) = some (r, w') := h
    rw [if_pos (of_decide_eq_true htime), if_pos hq] at hexec
    obtain ⟨-, heq⟩ := Option.ite_none_right_eq_some.mp hexec
    exact (Prod.mk.inj (Option.some.inj heq)).1.symm
  | _ => exact absurd hc Bool.false_ne_true

/-- A system call that comes in time. -/
theorem Startup.InTime.answer (hq : q.TakesPaths) (h : s.InTime self) (hnow : s.call = some now)
    (htime : s.onTime (.answer ch) = true) (hs : s.answer q now ch = some s') : s'.InTime self := by
  obtain ⟨hwp, hready⟩ := h.call now hnow
  unfold Startup.answer at hs
  split at hs
  case h_1 => exact absurd hs.symm (Option.some_ne_none _)
  case h_2 c f hp =>
    obtain ⟨⟨r, w⟩, ha, rfl⟩ := Option.map_eq_some_iff.mp hs
    have hc : onTimeCall s.stage c = true := by
      have hall : s.call.all _ = true := htime
      rwa [hnow, Option.all_some, hp] at hall
    rw [hp] at hwp
    have hnext := hwp.2 r (pathsBy now.pushed c r)
      ⟨answeredInTime_of_answered hq hwp.1.1 hc ha, rfl⟩
    refine ⟨h.vars, fun now' hnow' => ?_, h.returned⟩
    obtain rfl := Option.some.inj hnow'
    exact ⟨hnext, hready⟩

/-- The call returns. -/
theorem Startup.InTime.finish (h : s.InTime self) (hnow : s.call = some now)
    (hs : s.finish now = some s') :
    s'.InTime self ∧ s'.call = none ∧
      ∃ r, s'.returned = s.returned ++ [r] ∧ r.fd = now.fd ∧ r.Good self := by
  obtain ⟨hwp, -⟩ := h.call now hnow
  unfold Startup.finish at hs
  split at hs
  case h_1 => exact absurd hs.symm (Option.some_ne_none _)
  case h_2 ret vars hp =>
    obtain rfl := Option.some.inj hs
    rw [hp] at hwp
    obtain ⟨hret, hpushed, hvars⟩ := hwp
    refine ⟨⟨hvars, fun now' hnow' => absurd hnow'.symm (Option.some_ne_none now'), fun r hr => ?_⟩,
      rfl, ⟨now.fd, now.afterStart, ret, now.pushed⟩, rfl, rfl, hret, hpushed⟩
    rcases List.mem_append.mp hr with hr | hr
    · exact h.returned r hr
    · obtain rfl := List.mem_singleton.mp hr
      exact ⟨hret, hpushed⟩

/-- **Every step that comes in time keeps it.** -/
theorem step_inTime {l : StartLabel} (hq : q.TakesPaths) (h : s.InTime self) (hl : OnTime s l)
    (hs : s.step q self l = some s') : s'.InTime self := by
  cases l with
  | daemon =>
    obtain ⟨stage, hnext, rfl⟩ := Option.map_eq_some_iff.mp hs
    refine ⟨h.vars, fun now hnow => ⟨(h.call now hnow).1, fun hafter => ?_⟩, h.returned⟩
    rw [(h.call now hnow).2 hafter] at hnext
    exact absurd hnext.symm (Option.some_ne_none _)
  | others requests =>
    obtain rfl := Option.some.inj hs
    exact ⟨h.vars, h.call, h.returned⟩
  | call fd stale =>
    obtain ⟨-, heq⟩ := Option.ite_none_left_eq_some.mp hs
    obtain rfl := Option.some.inj heq
    refine ⟨h.vars, fun now hnow => ?_, h.returned⟩
    obtain rfl := Option.some.inj hnow
    exact ⟨wp_scheduleDownload_found h.vars, of_decide_eq_true⟩
  | answer ch =>
    obtain ⟨now, hnow, hs⟩ := Option.bind_eq_some_iff.mp hs
    exact h.answer hq hnow hl hs
  | ret =>
    obtain ⟨now, hnow, hs⟩ := Option.bind_eq_some_iff.mp hs
    exact (h.finish hnow hs).1

/-! ## A call returns -/

/-- When the queue is ready and has room, the system calls of `schedule_download` are answered. -/
theorem exists_answered {w : World} {c : Call} (hq : q.TakesPaths) (hc : isScheduleCall c = true)
    (hroom : w.requests.length < w.maxRequests) : ∃ a, answered q .ready w .ok c = some a := by
  cases c with
  | queuePush data => exact ⟨_, (if_pos hq).trans (if_pos hroom)⟩
  | getpid self => exact ⟨_, rfl⟩
  | shmOpen => exact ⟨_, rfl⟩
  | shmStat => exact ⟨_, rfl⟩
  | shmMap len => exact ⟨_, rfl⟩
  | _ => exact absurd hc Bool.false_ne_true

theorem onTimeCall_ready (c : Call) : onTimeCall .ready c = true := by
  cases c <;> rfl

/-- Only a push takes room. -/
theorem room_of_answered {w : World} {c : Call} {a : Rep c × World} (hq : q.TakesPaths)
    (hc : isScheduleCall c = true) (h : answered q .ready w .ok c = some a)
    (hpaths : pathsBy [] c a.1 = [])
    (hroom : w.requests.length < w.maxRequests) : a.2.requests.length < a.2.maxRequests := by
  cases c with
  | queuePush data =>
    have hexec : exec w .ok (.queuePush data) = some a := (if_pos hq).symm.trans h
    obtain ⟨-, heq⟩ := Option.ite_none_right_eq_some.mp hexec
    obtain rfl := Option.some.inj heq
    exact absurd hpaths (by simp [pathsBy])
  | getpid self | shmOpen | shmStat | shmMap len =>
    obtain rfl := Option.some.inj h
    exact hroom
  | _ => exact absurd hc Bool.false_ne_true

/-- **A call returns**, by induction on what is left of its program. -/
theorem exists_returns (hq : q.TakesPaths) (prog : Sys (Except Errno Unit × Vars)) :
    ∀ (s : Startup) (now : Scheduling), s.InTime self → s.stage = .ready → s.call = some now →
      now.prog = prog → (now.pushed = [] → s.world.requests.length < s.world.maxRequests) →
      ∃ ls s', (∀ l ∈ ls, StartLabel.isOwn l = true) ∧ run (Startup.step q self) s ls = some s' ∧
        ∃ r, s'.returned = s.returned ++ [r] ∧ r.fd = now.fd ∧ r.Good self := by
  induction prog with
  | ret a =>
    intro s now h _ hnow hp _
    obtain ⟨ret, vars⟩ := a
    have hfinish : ∃ s', s.finish now = some s' := by
      unfold Startup.finish
      rw [hp]
      exact ⟨_, rfl⟩
    obtain ⟨s', hs'⟩ := hfinish
    have hstep : Startup.step q self s .ret = some s' := by
      show s.call.bind _ = _
      rw [hnow]
      exact hs'
    refine ⟨[.ret], s', fun l hl => ?_, ?_, (h.finish hnow hs').2.2⟩
    · obtain rfl := List.mem_singleton.mp hl
      rfl
    · rw [run_cons, hstep]
      rfl
  | call c f ih =>
    intro s now h hready hnow hp hroom
    have hwp := (h.call now hnow).1
    rw [hp] at hwp
    obtain ⟨⟨hc, hpushed⟩, -⟩ := hwp
    obtain ⟨a, ha⟩ := exists_answered hq hc (hroom hpushed)
    have hanswer : s.answer q now .ok = some { s with
        world := a.2
        call := some { now with prog := f a.1, pushed := pathsBy now.pushed c a.1 } } := by
      unfold Startup.answer
      rw [hp, hready]
      dsimp only
      rw [ha]
      rfl
    have htime : s.onTime (.answer .ok) = true := by
      show s.call.all _ = true
      rw [hnow, Option.all_some, hp]
      dsimp only
      rw [hready]
      exact onTimeCall_ready c
    obtain ⟨ls, s', hown, hrun, hret⟩ := ih a.1 _ _ (h.answer hq hnow htime hanswer) hready rfl rfl
      fun hnone => by
        rw [hpushed] at hnone
        exact room_of_answered hq hc ha hnone (hroom hpushed)
    refine ⟨.answer .ok :: ls, s', ?_, ?_, hret⟩
    · intro l hl
      rcases List.mem_cons.mp hl with rfl | hl
      · rfl
      · exact hown l hl
    · have hstep : Startup.step q self s (.answer .ok) = s.answer q now .ok := by
        show s.call.bind _ = _
        rw [hnow]
        rfl
      rw [run_cons, hstep, hanswer]
      exact hrun

theorem Startup.InTime.served (hq : q.TakesPaths) (h : s.InTime self) : s.Served q self :=
  ⟨fun r hr _ => h.returned r hr, fun now hnow hafter hroom =>
    exists_returns hq now.prog s now h ((h.call now hnow).2 hafter) hnow rfl fun _ => hroom⟩

end

/-! ## Runs -/

/-- An empty queue with room for one request. -/
def emptyQueue : World where
  inode _ := {}
  names _ := none
  store _ := none
  maxRequests := 1

/-- A queue for one path of at most `4096` bytes. -/
def pathQueue : QueueObject where
  pageSize := 4096
  maxSize := 1
  dataMaxSize := 4096
  fits := by decide

/-- The daemon starts. -/
def daemonStarts : List StartLabel := [.daemon, .daemon, .daemon]

/-- The process has got a descriptor, and its calls are answered. -/
def answeredCall : List StartLabel :=
  [.call ⟨0, 3⟩ [], .answer .ok, .answer .ok, .answer .ok, .answer .ok, .answer .ok, .ret]

/-- The process finds no shared memory, before the daemon has started. -/
def earlyCall : List StartLabel := [.call ⟨0, 3⟩ [], .answer .ok, .answer .ok, .ret]

end Client

end CloudTiering
