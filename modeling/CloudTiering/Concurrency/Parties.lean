import CloudTiering.Concurrency.Phases
import CloudTiering.Foundations.Threads

/-!
# The daemon's threads and the clients

A thread runs one piece of work after the other: an iteration of a transfer thread of the daemon, a
call of the wrapped `open`, or one more iteration of `poll_file_location` for a call of `open` that
is not over.

* `Work`, `Outcome`, `Work.program`: what a thread may run, and how a piece of work ends.
* `partySystem`: the threads against one world.
* `Parties.reach_inv`: the proof rule for threads, with the programs checked against their phases
  once and for all.
-/

namespace CloudTiering

open Foundations App

namespace Concurrency

/-- A piece of work. -/
inductive Work
  /-- An iteration of the upload thread, with its id buffer and what the secondary queue yields. -/
  | uploadRoutine (buf : Bytes) (secondary : Option Bytes)
  /-- An iteration of the download thread. -/
  | downloadRoutine (secondary : Option Bytes)
  /-- A call of `open` in process `self`, whose library has the variables `vars`. -/
  | openFile (self : ℕ) (stale : Bytes) (vars : Client.Vars) (path : Bytes) (flags : ℕ)
  /-- Another iteration of `poll_file_location`. -/
  | poll

/-- How a piece of work has ended. -/
inductive Outcome
  | transferred (ret : Option Int)
  | opened (opening : Client.Opening) (vars : Client.Vars)

/-- The call of `open` is not over. -/
def Outcome.waiting : Outcome → Bool
  | .opened (.polling ..) _ => true
  | _ => false

/-- Where a thread stands whose work has ended. -/
def Outcome.At : Outcome → Phase → Prop
  | .transferred _, p => p = .outside
  | .opened opening _, p => ∃ pid, OpenedAt pid opening p

/-- The program of a piece of work after the outcome `a`, and the phase in which it starts. -/
def Work.program (ops : Ops) (a : Outcome) (p : Phase) : Work → Option (Sys Outcome × Phase)
  | .uploadRoutine buf secondary =>
      if a.waiting then none
      else some (do return .transferred (← Daemon.uploadFileRoutine ops buf secondary),
        uploadStart secondary)
  | .downloadRoutine secondary =>
      if a.waiting then none
      else some (do return .transferred (← Daemon.downloadFileRoutine ops secondary),
        .popping secondary)
  | .openFile self stale vars path flags =>
      if a.waiting then none
      else some (do
          let (opening, vars) ← Client.openFile self stale vars path flags
          return .opened opening vars,
        .entering self (requestPid self vars) path flags)
  | .poll =>
      match a with
      | .opened (.polling fd flags) vars =>
          some (do return .opened (← Client.pollFileLocation fd flags) vars, p)
      | _ => none

/-- A piece of work other than another iteration of the polling starts afresh. -/
def Work.start (p : Phase) : Work → Phase
  | .uploadRoutine _ secondary => uploadStart secondary
  | .downloadRoutine secondary => .popping secondary
  | .openFile self _ vars path flags => .entering self (requestPid self vars) path flags
  | .poll => p

/-- **A piece of work keeps to its phases.** -/
theorem wp_program {retries : Int} {a : Outcome} {p p' : Phase} {work : Work} {prog : Sys Outcome}
    (ha : a.At p) (h : work.program (s3Ops retries) a p = some (prog, p')) :
    prog.wp phaseCalls Outcome.At p' ∧ p' = work.start p := by
  cases work with
  | uploadRoutine buf secondary =>
    obtain ⟨-, hx⟩ := Option.ite_none_left_eq_some.mp h
    obtain ⟨rfl, rfl⟩ := Prod.mk.inj (Option.some.inj hx)
    exact ⟨Prog.wp_bind.mpr
      (Prog.wp_mono (wp_uploadFileRoutine retries buf secondary) fun _ _ hp => hp), rfl⟩
  | downloadRoutine secondary =>
    obtain ⟨-, hx⟩ := Option.ite_none_left_eq_some.mp h
    obtain ⟨rfl, rfl⟩ := Prod.mk.inj (Option.some.inj hx)
    exact ⟨Prog.wp_bind.mpr
      (Prog.wp_mono (wp_downloadFileRoutine retries secondary) fun _ _ hp => hp), rfl⟩
  | openFile self stale vars path flags =>
    obtain ⟨-, hx⟩ := Option.ite_none_left_eq_some.mp h
    obtain ⟨rfl, rfl⟩ := Prod.mk.inj (Option.some.inj hx)
    exact ⟨Prog.wp_bind.mpr (Prog.wp_mono (wp_openFile vars stale path) fun _ _ hp => ⟨_, hp⟩), rfl⟩
  | poll =>
    cases a with
    | transferred ret => exact absurd h.symm (Option.some_ne_none _)
    | opened opening vars =>
      cases opening with
      | done ret => exact absurd h.symm (Option.some_ne_none _)
      | polling fd flags =>
        obtain ⟨rfl, rfl⟩ := Prod.mk.inj (Option.some.inj h)
        obtain ⟨pid, hp⟩ := ha
        obtain rfl : p = .polling pid fd flags := hp
        refine ⟨Prog.wp_bind.mpr (Prog.wp_mono wp_pollFileLocation ?_), rfl⟩
        intro opening p' hp'
        cases opening with
        | done ret => exact ⟨pid, .inl hp'⟩
        | polling fd flags => exact ⟨pid, hp'⟩

/-! ## The system -/

/-- The threads `T`.  `answer` says how calls are answered, `allowed` which work is whose. -/
def partySystem (T : Type) (answer : World → Choice → (c : Call) → Option (Rep c × World))
    (allowed : T → Work → Bool) (retries : Int) :
    ThreadSystem Call Rep Outcome T World Choice Phase Work Empty where
  exec _ := answer
  observe _ p c r := p.next c r
  next t _ a p work := if allowed t work then work.program (s3Ops retries) a p else none
  env e _ := e.elim

/-- The world and the threads. -/
abbrev PartyState (T : Type) := ThreadSystem.State Call Rep Outcome T World Phase

/-- All threads are about to start their first work. -/
def partiesAtRest (T : Type) (w : World) : PartyState T :=
  ⟨w, fun _ => ⟨.ret (.transferred none), .outside⟩⟩

namespace Parties

variable {T : Type} [DecidableEq T] {answer : World → Choice → (c : Call) → Option (Rep c × World)}
  {allowed : T → Work → Bool} {retries : Int}

/-- **The proof rule.**  An invariant of the world and the phases has to be kept by every answer to
a call that the phase of a thread expects, and by the start of new work. -/
theorem reach_inv {I : World → (T → Phase) → Prop}
    {P : PartyState T → ThreadSystem.Label T Choice Work Empty → Prop} {w₀ : World}
    {s : PartyState T}
    (hsucceeds : ∀ w k c r w', answer w k c = some (r, w') → succeeds c r = true)
    (h : Reach (partySystem T answer allowed retries).step P (partiesAtRest T w₀) s)
    (h₀ : I w₀ fun _ => .outside)
    (hanswer : ∀ (s : PartyState T) (t : T) (k : Choice) (c : Call)
      (f : Rep c → Sys Outcome) (r : Rep c)
      (w : World), I s.world s.mons → P s (.answer t k) → (s.thread t).prog = .call c f →
      (s.mons t).expects c → answer s.world k c = some (r, w) →
      I w (Function.update s.mons t ((s.mons t).next c r)))
    (hstart : ∀ (s : PartyState T) (t : T) (work : Work) (a : Outcome), I s.world s.mons →
      P s (.start t work) → allowed t work = true → a.At (s.mons t) →
      I s.world (Function.update s.mons t (work.start (s.mons t)))) :
    I s.world s.mons ∧ ThreadSystem.Checked phaseCalls Outcome.At s := by
  refine ThreadSystem.reach_inv h h₀ (fun _ => rfl) ?_ ?_ ?_
  · intro s t k c f r w hI hP hp hpre he
    exact ⟨⟨hsucceeds _ k c r w he, rfl⟩, hanswer s t k c f r w hI hP hp hpre he⟩
  · intro s t work a p m hI hP hp ha hn
    obtain ⟨hallowed, hprog⟩ := Option.ite_none_right_eq_some.mp hn
    obtain ⟨hwp, rfl⟩ := wp_program ha hprog
    exact ⟨hwp, hstart s t work a hI hP hallowed ha⟩
  · intro s e
    exact e.elim

end Parties

end Concurrency

end CloudTiering
