import CloudTiering.Client.Open
import CloudTiering.Foundations.Transition

/-!
# Processes that fork

`fork` copies the variables of the library.  A child of a process in which `init_vars_once` has run
finds the once-control used, and with it the `pid` of somebody else.

* `Process`, `Family`, `step`: processes that open files through the wrapped `open`, one call at a
  time, and fork.  Everything else in the system may change the world between any two calls.
* `Request`, `Request.Own`: a path that has been pushed, and what it should say.
* `requestCalls`: the reading of the calls that follows the descriptor a process was given.
* `Known`, `step_known`: the invariant.
* `reach_own_iff`, `reach_own`: which requests name the requester's own descriptor.
-/

namespace CloudTiering

open Foundations

namespace Client

/-! ## The processes -/

/-- A process: what is left of its call of the wrapped `open` together with the variables of the
library, the descriptor that the C library's `open` gave it last, and whether it was forked from a
process in which the once-control had been used. -/
structure Process where
  prog : Sys (Opening × Vars)
  given : Option Fd
  inherited : Bool

/-- A path that `schedule_download` has pushed: the process that made the call, the descriptor that
it was given, and the buffer. -/
structure Request where
  pid : ℕ
  given : Option Fd
  inherited : Bool
  data : Bytes

/-- The request names the requester's own descriptor. -/
def Request.Own (r : Request) : Prop :=
  ∃ fd, r.given = some fd ∧ cString r.data = procPidFdFdPath r.pid fd.num

/-- The world, the processes by their pids, and what they have pushed. -/
structure Family where
  world : World
  process : ℕ → Option Process
  pushed : List Request

/-- The labels of the steps. -/
inductive FamilyLabel
  | fork (parent child : ℕ)
  /-- A process calls the wrapped `open`; `stale` is in the buffer of `schedule_download`. -/
  | openFile (pid : ℕ) (stale path : Bytes) (flags : ℕ)
  /-- A process goes on with the loop of `poll_file_location`. -/
  | poll (pid : ℕ)
  /-- A call of a process is answered. -/
  | answer (pid : ℕ) (ch : Choice)
  /-- Everything else in the system. -/
  | env (w : World)

/-- The descriptor that a process was given last, after an answer. -/
def givenBy (given : Option Fd) : (c : Call) → Rep c → Option Fd
  | .libcOpen .., r => match r with
    | .ok fd => some fd
    | .error _ => given
  | _, _ => given

/-- What an answer adds to the pushed paths. -/
def pushedBy (pid : ℕ) (pr : Process) : (c : Call) → Rep c → List Request
  | .queuePush data, r => match r with
    | .ok _ => [⟨pid, pr.given, pr.inherited, data⟩]
    | .error _ => []
  | _, _ => []

/-- Process `pid` in another state. -/
def Family.set (s : Family) (pid : ℕ) (pr : Process) : Family :=
  { s with process := Function.update s.process pid (some pr) }

/-- The child of a process: it has the variables of its parent, and is not in a call of `open`. -/
def forked (pr : Process) : Option Process :=
  match pr.prog with
  | .ret (.done ret, vars) => some ⟨.ret (.done ret, vars), pr.given, vars.once⟩
  | _ => none

/-- A process that is not in a call of `open` makes one. -/
def Process.openFile (pr : Process) (pid : ℕ) (stale path : Bytes) (flags : ℕ) : Option Process :=
  match pr.prog with
  | .ret (.done _, vars) => some { pr with prog := Client.openFile pid stale vars path flags }
  | _ => none

/-- A process in `poll_file_location` asks again. -/
def Process.poll (pr : Process) : Option Process :=
  match pr.prog with
  | .ret (.polling fd flags, vars) =>
      some { pr with prog := pollFileLocation fd flags >>= fun opening => pure (opening, vars) }
  | _ => none

/-- A call of a process is answered. -/
def Family.answer (s : Family) (pid : ℕ) (pr : Process) (ch : Choice) : Option Family :=
  match pr.prog with
  | .ret _ => none
  | .call c f => (exec s.world ch c).map fun a =>
      { world := a.2
        process := Function.update s.process pid
          (some { pr with prog := f a.1, given := givenBy pr.given c a.1 })
        pushed := s.pushed ++ pushedBy pid pr c a.1 }

/-- A step of the family. -/
def Family.step (s : Family) : FamilyLabel → Option Family
  | .fork parent child =>
      if (s.process child).isSome then none
      else (s.process parent).bind fun pr => (forked pr).map fun pr' => s.set child pr'
  | .openFile pid stale path flags =>
      (s.process pid).bind fun pr => (pr.openFile pid stale path flags).map fun pr' => s.set pid pr'
  | .poll pid => (s.process pid).bind fun pr => pr.poll.map fun pr' => s.set pid pr'
  | .answer pid ch => (s.process pid).bind fun pr => s.answer pid pr ch
  | .env w => some { s with world := w }

/-- The first process, which has not called `open` yet. -/
def Family.initial (root : ℕ) (w : World) : Family :=
  { world := w
    process := Function.update (fun _ => none) root
      (some ⟨.ret (.done (.error .eio), {}), none, false⟩)
    pushed := [] }

/-- The process is about to push a request. -/
def Process.pushes (pr : Process) : Bool :=
  match pr.prog with
  | .call (.queuePush _) _ => true
  | _ => false

/-- In the step, a process that was forked from one in which the once-control had been used pushes a
request. -/
def FamilyLabel.inheritedPush (s : Family) : FamilyLabel → Bool
  | .answer pid _ => (s.process pid).any fun pr => pr.pushes && pr.inherited
  | _ => false

/-- The condition on a step. -/
def NoInheritedPush (s : Family) (l : FamilyLabel) : Prop := l.inheritedPush s = false

/-! ## The calls of an open -/

/-- The pid is the one that was asked for. -/
def pidAnswered : (c : Call) → Rep c → Prop
  | .getpid self, r => r = self
  | _, _ => True

/-- The reading of the calls for a process whose requests name `pid`: the state is the descriptor
that it was given. -/
def requestCalls (pid : ℕ) : Calls Call Rep (Option Fd) where
  pre given c := ∀ data, c = .queuePush data →
    ∃ fd stale, given = some fd ∧ data = downloadRequest pid fd.num stale
  post given c r given' := pidAnswered c r ∧ given' = givenBy given c r

/-- What is known of the variables of a process whose requests name `pid`. -/
def Cached (pid : ℕ) (inherited : Bool) (vars : Vars) : Prop :=
  (vars.once = true → vars.pid = some pid) ∧ (inherited = true → vars.once = true)

section

variable {pid self : ℕ} {given : Option Fd} {inherited : Bool} {vars : Vars} {fd : Fd} {flags : ℕ}

/-- A call that neither opens nor pushes. -/
def isQuiet : Call → Bool
  | .libcOpen .. | .queuePush _ => false
  | _ => true

theorem givenBy_quiet {c : Call} (hc : isQuiet c = true) (r : Rep c) :
    givenBy given c r = given := by
  cases c <;> first | rfl | exact absurd hc Bool.false_ne_true

theorem pre_quiet {c : Call} (hc : isQuiet c = true) : (requestCalls pid).pre given c := by
  rintro data rfl
  exact absurd hc Bool.false_ne_true

/-- A program of such calls. -/
theorem wp_quiet {α : Type} {p : Sys α} {Q : α → Option Fd → Prop}
    (hp : p.AllCalls fun c => isQuiet c = true) (hQ : ∀ a, Q a given) :
    p.wp (requestCalls pid) Q given :=
  Prog.wp_of_allCalls hp (fun _ hc => pre_quiet hc)
    (fun _ r _ hc h => h.2.trans (givenBy_quiet hc r)) hQ

theorem isLocalFile_quiet : (isLocalFile fd flags).AllCalls fun c => isQuiet c = true := by
  unfold isLocalFile
  split
  all_goals
    refine ⟨rfl, fun r => ?_⟩
    cases r with
    | ok v => trivial
    | error e =>
      show Prog.AllCalls _ (if _ then _ else if _ then _ else _)
      split
      · trivial
      · split
        · refine ⟨rfl, fun r => ?_⟩
          cases r with
          | ok v => trivial
          | error e =>
            show Prog.AllCalls _ (if _ then _ else _)
            split <;> trivial
        · trivial

theorem clearXattrs_quiet : (clearXattrs fd).AllCalls fun c => isQuiet c = true := by
  refine ⟨rfl, fun r => ?_⟩
  rcases r with e | u
  · show Prog.AllCalls _ (if e ≠ .enoattr then _ else _)
    split
    all_goals
      refine ⟨rfl, fun r => ?_⟩
      rcases r with e' | u'
      · show Prog.AllCalls _ (if e' ≠ .enoattr then _ else _)
        split <;> trivial
      · trivial
  · refine ⟨rfl, fun r => ?_⟩
    rcases r with e' | u'
    · show Prog.AllCalls _ (if e' ≠ .enoattr then _ else _)
      split <;> trivial
    · trivial

/-- A program that begins with such a call. -/
theorem wp_quiet_call {α : Type} {c : Call} {f : Rep c → Sys α} {Q : α → Option Fd → Prop}
    (hc : isQuiet c = true) (hf : ∀ r, pidAnswered c r → (f r).wp (requestCalls pid) Q given) :
    (sys c >>= f).wp (requestCalls pid) Q given := by
  refine Prog.wp_bind.mpr ⟨pre_quiet hc, ?_⟩
  rintro r given' ⟨hr, rfl⟩
  rw [givenBy_quiet hc]
  exact hf r hr

/-- The variables after `init_vars_once`. -/
theorem wp_initVarsOnce_self :
    (initVarsOnce self vars).wp (requestCalls pid)
      (fun vars' given' => (vars'.once = true ∧ vars'.pid = some self) ∧ given' = given) given := by
  refine wp_quiet_call rfl fun r hr => ?_
  have hpid : some r = some self := congrArg some hr
  show Prog.wp (requestCalls pid) (if vars.queue = true then _ else _) _ _
  split
  · exact ⟨⟨rfl, hpid⟩, rfl⟩
  · refine wp_quiet_call rfl fun r _ => ?_
    cases r with
    | error e => exact ⟨⟨rfl, hpid⟩, rfl⟩
    | ok u =>
    refine wp_quiet_call rfl fun r _ => ?_
    cases r with
    | error e => exact ⟨⟨rfl, hpid⟩, rfl⟩
    | ok u =>
    refine wp_quiet_call rfl fun r _ => ?_
    cases r <;> exact ⟨⟨rfl, hpid⟩, rfl⟩

/-- A request is pushed with the pid that the library remembers. -/
theorem wp_scheduleDownload_given {stale : Bytes} (hvars : Cached pid inherited vars)
    (hself : inherited = false → pid = self) :
    (scheduleDownload self stale vars fd).wp (requestCalls pid)
      (fun a _ => Cached pid inherited a.2) (some fd) := by
  have hunused : ¬ vars.once = true → pid = self := fun hnot =>
    hself (Bool.eq_false_iff.mpr fun hi => hnot (hvars.2 hi))
  unfold scheduleDownload
  split <;> refine Prog.wp_bind.mpr (Prog.wp_mono
    (Q := fun vars' given' => (vars'.once = true ∧ vars'.pid = some pid) ∧ given' = some fd) ?_ ?_)
  · exact ⟨⟨‹_›, hvars.1 ‹_›⟩, rfl⟩
  on_goal 2 =>
    rw [hunused ‹_›]
    exact wp_initVarsOnce_self
  -- the push is the same whether the variables had been set before or not
  all_goals
    rintro vars' given' ⟨⟨honce, hpid⟩, rfl⟩
    have hcached : Cached pid inherited vars' := ⟨fun _ => hpid, fun _ => honce⟩
    have hget : vars'.pid.getD 0 = pid := by rw [hpid]; rfl
    dsimp only
    split
    · refine Prog.wp_bind.mpr ⟨?_, ?_⟩
      · intro data hdata
        exact ⟨fd, stale, rfl, by rw [← Call.queuePush.inj hdata, hget]⟩
      · rintro r given' -
        cases r <;> exact hcached
    · exact hcached

theorem wp_finishOpenCommon_given {stale : Bytes} (hvars : Cached pid inherited vars)
    (hself : inherited = false → pid = self) :
    (finishOpenCommon self stale vars fd flags).wp (requestCalls pid)
      (fun a _ => Cached pid inherited a.2) (some fd) := by
  refine Prog.wp_bind.mpr (wp_quiet isLocalFile_quiet fun r => ?_)
  cases r with
  | error e => exact hvars
  | ok ret =>
    show Prog.wp (requestCalls pid)
      (if ret ≠ 0 then _ else if flags &&& oTrunc = oTrunc then _ else _) _ _
    split
    · exact hvars
    · split
      · refine Prog.wp_bind.mpr (wp_quiet clearXattrs_quiet fun r => ?_)
        show Prog.wp (requestCalls pid) (if r = -1 then _ else _) _ _
        split
        · exact wp_quiet_call rfl fun _ _ => hvars
        · exact hvars
      · refine Prog.wp_bind.mpr (Prog.wp_mono (wp_scheduleDownload_given hvars hself) ?_)
        rintro ⟨r, vars'⟩ given' hvars'
        cases r <;> exact hvars'

/-- Every request of a wrapped `open` names the descriptor that the C library's `open` has given. -/
theorem wp_openFile_given {stale path : Bytes} (hvars : Cached pid inherited vars)
    (hself : inherited = false → pid = self) :
    (openFile self stale vars path flags).wp (requestCalls pid)
      (fun a _ => Cached pid inherited a.2) given := by
  refine Prog.wp_bind.mpr ⟨fun data hdata => absurd hdata (by simp), ?_⟩
  rintro r given' ⟨-, rfl⟩
  cases r with
  | error e => exact hvars
  | ok fd => exact wp_finishOpenCommon_given hvars hself

theorem wp_pollFileLocation_given (hvars : Cached pid inherited vars) :
    (pollFileLocation fd flags >>= fun opening => pure (opening, vars)).wp (requestCalls pid)
      (fun a _ => Cached pid inherited a.2) given := by
  refine Prog.wp_bind.mpr (Prog.wp_bind.mpr (wp_quiet isLocalFile_quiet fun r => ?_))
  cases r with
  | error e => exact hvars
  | ok ret =>
    show Prog.wp (requestCalls pid) (if ret = 0 then _ else _) _ _
    split <;> exact hvars

end

/-! ## The invariant -/

/-- What is known of process `self`: its requests name the process `pid`, which is there; that is
another process exactly if the process inherited the once-control. -/
def Process.Known (s : Family) (self : ℕ) (pr : Process) : Prop :=
  ∃ pid, (s.process pid).isSome ∧ (pr.inherited = false ↔ pid = self) ∧
    pr.prog.wp (requestCalls pid) (fun a _ => Cached pid pr.inherited a.2) pr.given

/-- What is known of every process, and of every request. -/
structure Family.Known (s : Family) : Prop where
  process : ∀ self pr, s.process self = some pr → pr.Known s self
  pushed : ∀ r ∈ s.pushed, r.Own ↔ r.inherited = false

section

variable {s s' : Family} {self : ℕ} {pr pr' : Process}

/-- Processes only become more. -/
theorem Process.Known.set {q : ℕ} {pr₀ : Process} (h : pr.Known s self) :
    pr.Known (s.set q pr₀) self := by
  obtain ⟨pid, hpid, hself, hwp⟩ := h
  refine ⟨pid, ?_, hself, hwp⟩
  show (Function.update s.process q (some pr₀) pid).isSome
  by_cases hq : pid = q
  · rw [hq, Function.update_self]
    rfl
  · rw [Function.update_of_ne hq]
    exact hpid

/-- A process gets on. -/
theorem Family.Known.set (h : s.Known) (hpr : pr.Known (s.set self pr) self) :
    (s.set self pr).Known := by
  refine ⟨fun q pr' hq => ?_, h.pushed⟩
  by_cases heq : q = self
  · subst heq
    obtain rfl : pr = pr' := by
      have hq' : Function.update s.process q (some pr) q = some pr' := hq
      rw [Function.update_self] at hq'
      exact Option.some.inj hq'
    exact hpr
  · have hq' : Function.update s.process self (some pr) q = some pr' := hq
    rw [Function.update_of_ne heq] at hq'
    exact (h.process q pr' hq').set

theorem forked_eq_some (h : forked pr = some pr') :
    ∃ ret vars, pr.prog = .ret (.done ret, vars) ∧
      pr' = ⟨.ret (.done ret, vars), pr.given, vars.once⟩ := by
  unfold forked at h
  split at h
  case h_1 ret vars hp => exact ⟨ret, vars, hp, (Option.some.inj h).symm⟩
  case h_2 => exact absurd h.symm (Option.some_ne_none _)

/-- The child of a fork. -/
theorem Family.Known.forked {child : ℕ} (h : s.Known) (hpr : s.process self = some pr)
    (hfresh : s.process child = none) (hfork : forked pr = some pr') : (s.set child pr').Known := by
  obtain ⟨ret, vars, hp, rfl⟩ := forked_eq_some hfork
  obtain ⟨pid, hpid, -, hwp⟩ := h.process self pr hpr
  rw [hp] at hwp
  have hcached : Cached pid pr.inherited vars := hwp
  have hchild : (Function.update s.process child
      (some ⟨.ret (.done ret, vars), pr.given, vars.once⟩) child).isSome := by
    rw [Function.update_self]
    rfl
  refine h.set ?_
  by_cases honce : vars.once = true
  · -- the pid that the child remembers is the one of a process that was there before it
    have hne : pid ≠ child := by
      rintro rfl
      rw [hfresh] at hpid
      exact Bool.false_ne_true hpid
    refine ⟨pid, ?_, ?_, hcached.1, fun _ => honce⟩
    · show (Function.update s.process child _ pid).isSome
      rw [Function.update_of_ne hne]
      exact hpid
    · rw [honce]
      exact ⟨fun hf => absurd hf.symm Bool.false_ne_true, fun heq => absurd heq hne⟩
  · refine ⟨child, hchild, ?_, fun ho => absurd ho honce, fun hi => hi⟩
    exact ⟨fun _ => rfl, fun _ => Bool.eq_false_iff.mpr honce⟩

theorem Family.Known.openFile {stale path : Bytes} {flags : ℕ} (h : s.Known)
    (hpr : s.process self = some pr) (hopen : pr.openFile self stale path flags = some pr') :
    (s.set self pr').Known := by
  unfold Process.openFile at hopen
  split at hopen
  case h_1 ret vars hp =>
    obtain rfl := Option.some.inj hopen
    obtain ⟨pid, hpid, hself, hwp⟩ := h.process self pr hpr
    rw [hp] at hwp
    refine h.set (Process.Known.set ⟨pid, hpid, hself, ?_⟩)
    exact wp_openFile_given hwp hself.mp
  case h_2 => exact absurd hopen.symm (Option.some_ne_none _)

theorem Family.Known.poll (h : s.Known) (hpr : s.process self = some pr)
    (hpoll : pr.poll = some pr') :
    (s.set self pr').Known := by
  unfold Process.poll at hpoll
  split at hpoll
  case h_1 fd flags vars hp =>
    obtain rfl := Option.some.inj hpoll
    obtain ⟨pid, hpid, hself, hwp⟩ := h.process self pr hpr
    rw [hp] at hwp
    exact h.set (Process.Known.set ⟨pid, hpid, hself, wp_pollFileLocation_given hwp⟩)
  case h_2 => exact absurd hpoll.symm (Option.some_ne_none _)

theorem exec_pidAnswered {w w' : World} {ch : Choice} {c : Call} {r : Rep c}
    (h : exec w ch c = some (r, w')) : pidAnswered c r := by
  cases c with
  | getpid self =>
    obtain ⟨-, heq⟩ := Option.ite_none_right_eq_some.mp h
    exact (Prod.mk.inj (Option.some.inj heq)).1.symm
  | _ => trivial

/-- A request names the requester exactly if the process did not inherit the once-control. -/
theorem own_pushedBy {pid : ℕ} {c : Call} {r : Rep c} {q : Request}
    (hself : pr.inherited = false ↔ pid = self) (hpre : (requestCalls pid).pre pr.given c)
    (hq : q ∈ pushedBy self pr c r) : q.Own ↔ q.inherited = false := by
  cases c with
  | queuePush data =>
    cases r with
    | error e => exact absurd hq (by simp [pushedBy])
    | ok u =>
      obtain rfl := List.mem_singleton.mp hq
      obtain ⟨fd, stale, hgiven, hdata⟩ := hpre data rfl
      rw [hself, Request.Own, hdata, cString_downloadRequest]
      constructor
      · rintro ⟨fd', hfd', hpath⟩
        obtain rfl := Option.some.inj (hgiven.symm.trans hfd')
        exact procPidFdFdPath_inj hpath
      · rintro rfl
        exact ⟨fd, hgiven, rfl⟩
  | _ => exact absurd hq (by simp [pushedBy])

theorem Family.Known.answer {ch : Choice} (h : s.Known) (hpr : s.process self = some pr)
    (hanswer : s.answer self pr ch = some s') : s'.Known := by
  unfold Family.answer at hanswer
  split at hanswer
  case h_1 => exact absurd hanswer.symm (Option.some_ne_none _)
  case h_2 c f hp =>
    obtain ⟨⟨r, w⟩, he, rfl⟩ := Option.map_eq_some_iff.mp hanswer
    obtain ⟨pid, hpid, hself, hwp⟩ := h.process self pr hpr
    rw [hp] at hwp
    have hnext := hwp.2 r (givenBy pr.given c r) ⟨exec_pidAnswered he, rfl⟩
    have hset : (s.set self { pr with prog := f r, given := givenBy pr.given c r }).Known :=
      h.set (Process.Known.set ⟨pid, hpid, hself, hnext⟩)
    refine ⟨hset.process, fun q hq => ?_⟩
    rcases List.mem_append.mp hq with hq | hq
    · exact h.pushed q hq
    · exact own_pushedBy hself hwp.1 hq

/-- **Every step keeps it.** -/
theorem step_known {l : FamilyLabel} (h : s.Known) (hs : s.step l = some s') : s'.Known := by
  cases l with
  | fork parent child =>
    obtain ⟨hfresh, hs⟩ := Option.ite_none_left_eq_some.mp hs
    obtain ⟨pr, hpr, hs⟩ := Option.bind_eq_some_iff.mp hs
    obtain ⟨pr', hfork, rfl⟩ := Option.map_eq_some_iff.mp hs
    exact h.forked hpr (by simpa using hfresh) hfork
  | openFile pid stale path flags =>
    obtain ⟨pr, hpr, hs⟩ := Option.bind_eq_some_iff.mp hs
    obtain ⟨pr', hopen, rfl⟩ := Option.map_eq_some_iff.mp hs
    exact h.openFile hpr hopen
  | poll pid =>
    obtain ⟨pr, hpr, hs⟩ := Option.bind_eq_some_iff.mp hs
    obtain ⟨pr', hpoll, rfl⟩ := Option.map_eq_some_iff.mp hs
    exact h.poll hpr hpoll
  | answer pid ch =>
    obtain ⟨pr, hpr, hs⟩ := Option.bind_eq_some_iff.mp hs
    exact h.answer hpr hs
  | env w =>
    obtain rfl := Option.some.inj hs
    exact ⟨h.process, h.pushed⟩

theorem known_initial (root : ℕ) (w : World) : (Family.initial root w).Known := by
  refine ⟨fun self pr hpr => ?_, fun r hr => absurd hr List.not_mem_nil⟩
  by_cases hself : self = root
  · subst hself
    have hpr' : Function.update (fun _ => none) self _ self = some pr := hpr
    rw [Function.update_self] at hpr'
    obtain rfl := Option.some.inj hpr'
    refine ⟨self, ?_, ⟨fun _ => rfl, fun _ => rfl⟩, fun ho => ?_, fun hi => hi⟩
    · rw [hpr]
      rfl
    · exact absurd ho Bool.false_ne_true
  · have hpr' : Function.update (fun _ => none) root _ self = some pr := hpr
    rw [Function.update_of_ne hself] at hpr'
    exact absurd hpr'.symm (Option.some_ne_none pr)

end

/-! ## The requests of every run -/

section

variable {root : ℕ} {w : World} {s s' : Family}

/-- **Which requests name the requester's own descriptor**: those of the processes that did not
inherit a once-control that had been used. -/
theorem reach_own_iff (h : Reach Family.step (fun _ _ => True) (Family.initial root w) s) :
    ∀ r ∈ s.pushed, r.Own ↔ r.inherited = false :=
  (h.invariant (I := Family.Known) (known_initial root w) fun _ _ _ hs _ hl =>
    step_known hs hl).pushed

/-- A step that meets the condition adds no request of a process that inherited the once-control. -/
theorem step_notInherited {l : FamilyLabel} (h : ∀ r ∈ s.pushed, r.inherited = false)
    (hl : NoInheritedPush s l) (hs : s.step l = some s') :
    ∀ r ∈ s'.pushed, r.inherited = false := by
  cases l with
  | fork parent child =>
    obtain ⟨-, hs⟩ := Option.ite_none_left_eq_some.mp hs
    obtain ⟨pr, -, hs⟩ := Option.bind_eq_some_iff.mp hs
    obtain ⟨pr', -, rfl⟩ := Option.map_eq_some_iff.mp hs
    exact h
  | openFile pid stale path flags =>
    obtain ⟨pr, -, hs⟩ := Option.bind_eq_some_iff.mp hs
    obtain ⟨pr', -, rfl⟩ := Option.map_eq_some_iff.mp hs
    exact h
  | poll pid =>
    obtain ⟨pr, -, hs⟩ := Option.bind_eq_some_iff.mp hs
    obtain ⟨pr', -, rfl⟩ := Option.map_eq_some_iff.mp hs
    exact h
  | env w =>
    obtain rfl := Option.some.inj hs
    exact h
  | answer pid ch =>
    obtain ⟨pr, hpr, hs⟩ := Option.bind_eq_some_iff.mp hs
    have hcond : (pr.pushes && pr.inherited) = false := by
      have hany : (s.process pid).any (fun pr => pr.pushes && pr.inherited) = false := hl
      rwa [hpr, Option.any_some] at hany
    unfold Family.answer at hs
    split at hs
    case h_1 => exact absurd hs.symm (Option.some_ne_none _)
    case h_2 c f hp =>
      obtain ⟨⟨r, w⟩, -, rfl⟩ := Option.map_eq_some_iff.mp hs
      intro q hq
      rcases List.mem_append.mp hq with hq | hq
      · exact h q hq
      · cases c with
        | queuePush data =>
          cases r with
          | error e => exact absurd hq (by simp [pushedBy])
          | ok u =>
            obtain rfl := List.mem_singleton.mp hq
            have hpush : pr.pushes = true := by rw [Process.pushes, hp]
            rwa [hpush, Bool.true_and] at hcond
        | _ => exact absurd hq (by simp [pushedBy])

/-- **Every request names the requester's own descriptor** as long as no process that inherited a
used once-control pushes one. -/
theorem reach_own (h : Reach Family.step NoInheritedPush (Family.initial root w) s) :
    ∀ r ∈ s.pushed, r.Own := by
  have hnone : ∀ r ∈ s.pushed, r.inherited = false :=
    h.invariant (I := fun s => ∀ r ∈ s.pushed, r.inherited = false)
      (fun r hr => absurd hr List.not_mem_nil) fun _ _ _ hs hl hstep =>
        step_notInherited hs hl hstep
  intro r hr
  exact (reach_own_iff (h.mono fun _ _ _ => trivial) r hr).mpr (hnone r hr)

end

/-! ## Runs -/

/-- Two remote files and room for two requests. -/
def remoteFiles : World where
  inode _ := { stub := some [] }
  names path := if path = [102] then some 0 else if path = [103] then some 1 else none
  store _ := none
  maxRequests := 2

/-- Process `pid` opens a file as descriptor `num`, for the first time. -/
def firstOpen (pid num : ℕ) (path : Bytes) : List FamilyLabel :=
  [.openFile pid [] path oRdwr, .answer pid (.size num), .answer pid .ok, .answer pid .ok,
    .answer pid .ok,
    .answer pid .ok, .answer pid .ok, .answer pid .ok]

/-- The first file has been downloaded. -/
def firstLocal : World :=
  { remoteFiles with inode := fun i => if i = 0 then {} else { stub := some [] } }

/-- The file has been downloaded: the process forks, and its child opens another file. -/
def childOpen : List FamilyLabel :=
  [.env firstLocal, .poll 1, .answer 1 .ok, .fork 1 2, .openFile 2 [] [103] oRdwr,
    .answer 2 (.size 4),
    .answer 2 .ok, .answer 2 .ok]

/-- The only process opens a file. -/
theorem own_single :
    ∃ s, Reach Family.step NoInheritedPush (Family.initial 1 remoteFiles) s ∧ s.pushed.length = 1 ∧
      ∀ r ∈ s.pushed, r.Own := by
  have hrun : ((run (guardedBy (fun s l => !FamilyLabel.inheritedPush s l) Family.step)
      (Family.initial 1 remoteFiles) (firstOpen 1 3 [102])).any fun s =>
        s.pushed.length == 1) = true := by decide
  obtain ⟨s, hs, hp⟩ := Reach.exists_of_guarded (P := NoInheritedPush)
    (fun s l hl => (Bool.not_eq_true' _).mp hl) hrun
  exact ⟨s, hs, eq_of_beq hp, reach_own hs⟩

/-- A process opens a file, forks, and its child opens another one. -/
theorem not_own_forked :
    ¬ ∀ s, Reach Family.step (fun _ _ => True) (Family.initial 1 remoteFiles) s →
      ∀ r ∈ s.pushed, r.Own := by
  intro hall
  have hrun : ((run Family.step (Family.initial 1 remoteFiles)
      (firstOpen 1 3 [102] ++ childOpen)).any fun s => s.pushed.any fun r => r.inherited) =
          true := by
    decide
  obtain ⟨s, hs, hp⟩ := Reach.exists_of_run (fun _ _ _ => trivial) hrun
  obtain ⟨r, hr, hi⟩ := List.any_eq_true.mp hp
  exact Bool.false_ne_true (((reach_own_iff hs r hr).mp (hall s hs r hr)).symm.trans hi)

end Client

end CloudTiering
