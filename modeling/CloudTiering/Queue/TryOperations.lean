import CloudTiering.Queue.Exclusion
import Mathlib.Data.Fintype.Basic

/-!
# The try operations and the threads that sleep

A thread that waits in `pthread_cond_wait` has released `size_mutex`, but it still holds the mutex
of its end of the queue: a waiting push keeps `tail_mutex`, a waiting pop `head_mutex`.  A try
operation begins by taking the same mutex, so that it waits as long as the sleeper does.

* `Machine.awaited`: the owner of the mutex that a thread is about to take.
* `Machine.TriesGoOn`: no try operation waits for a thread that sleeps.
* `Apart`: the same, said of the positions at one end of the queue.
* `KeepsApart`: no try operation begins while a thread sleeps at its end, and none falls asleep
  while one has begun.
* `step_triesGoOn_iff`, `reach_triesGoOn`: exactly these steps keep it, and so it holds in every run
  of them.
-/

namespace CloudTiering

open Foundations

namespace Queue

/-! ## Waiting for a mutex -/

/-- The thread is in `queue_try_push` or `queue_try_pop`. -/
def Pc.inTry : Pc → Bool
  | .outside _ => false
  | .pushStart a | .push _ a _ => !a.shouldWait
  | .popStart a | .pop _ a _ => !a.shouldWait

/-- The owner of the mutex that a thread at this position takes next; `none` if it is free, or if
the next step takes none. -/
def Machine.awaited {T : Type} (s : Machine T) : Pc → Option T
  | .pushStart _ => s.tailMutex
  | .popStart _ => s.headMutex
  | .push _ _ .test | .push _ _ .count => s.sizeMutex
  | .pop _ _ .test | .pop _ _ (.count _) => s.sizeMutex
  | _ => none

/-- No thread in a try operation is blocked on a mutex whose owner is asleep. -/
def Machine.TriesGoOn {T : Type} (s : Machine T) : Prop :=
  ∀ t u, (s.pc t).inTry = true → s.awaited (s.pc t) = some u → (s.pc u).sleeps = false

/-! ## One end of the queue -/

/-- A try operation at this end is about to take the mutex. -/
def Pc.tries : End → Pc → Bool
  | .tail, .pushStart a => !a.shouldWait
  | .head, .popStart a => !a.shouldWait
  | _, _ => false

/-- An operation at this end is about to fall asleep. -/
def Pc.dozes : End → Pc → Bool
  | .tail, .push _ _ .wait => true
  | .head, .pop _ _ .wait => true
  | _, _ => false

/-- A thread that sleeps and a try operation that has begun are never at the same end. -/
def Apart {T : Type} (pc : T → Pc) : Prop :=
  ∀ e t u, (pc t).tries e = true → (pc u).sleepsAt e = false

theorem tries_of_not_starts {p : Pc} (h : p.starts = false) (e : End) : p.tries e = false := by
  cases p with
  | pushStart | popStart => exact absurd h.symm Bool.false_ne_true
  | outside | push | pop => cases e <;> rfl

theorem sleepsAt_of_not_sleeps {p : Pc} (h : p.sleeps = false) (e : End) :
    p.sleepsAt e = false := by
  rcases p with _ | _ | ⟨_, _, _ | _⟩ | _ | ⟨_, _, _ | _⟩
  all_goals first
    | exact absurd h.symm Bool.false_ne_true
    | cases e <;> rfl

/-- A thread that sleeps holds the mutex of its end, and nothing else. -/
theorem holds_of_sleeps {p : Pc} (h : p.sleeps = true) :
    p.holdsSize = false ∧ ∀ e, p.holdsEnd e = true → p.sleepsAt e = true := by
  rcases p with _ | _ | ⟨_, _, _ | _⟩ | _ | ⟨_, _, _ | _⟩
  all_goals first
    | exact absurd h Bool.false_ne_true
    | refine ⟨rfl, fun e hold => ?_⟩
      cases e <;> exact hold

theorem holds_of_sleepsAt {p : Pc} {e : End} (h : p.sleepsAt e = true) :
    p.sleeps = true ∧ p.holdsEnd e = true := by
  cases e <;> rcases p with _ | _ | ⟨_, _, _ | _⟩ | _ | ⟨_, _, _ | _⟩
  all_goals first
    | exact absurd h Bool.false_ne_true
    | exact ⟨rfl, rfl⟩

/-- What a try operation awaits: the mutex of its end when it begins, and later `size_mutex`. -/
theorem awaited_of_tries {T : Type} {s : Machine T} {p : Pc} {e : End} (h : p.tries e = true) :
    p.inTry = true ∧ s.awaited p = s.endMutex e := by
  cases e <;> cases p
  all_goals first
    | exact absurd h Bool.false_ne_true
    | exact ⟨h, rfl⟩

theorem awaited_cases {T : Type} {s : Machine T} {p : Pc} {u : T} (htry : p.inTry = true)
    (h : s.awaited p = some u) :
    (∃ e, p.tries e = true ∧ s.endMutex e = some u) ∨ s.sizeMutex = some u := by
  rcases p with _ | _ | ⟨_, _, _ | _⟩ | _ | ⟨_, _, _ | _⟩
  all_goals first
    | exact absurd h.symm (Option.some_ne_none u)
    | exact .inl ⟨.tail, htry, h⟩
    | exact .inl ⟨.head, htry, h⟩
    | exact .inr h

/-- **The positions say it all.** -/
theorem Machine.Guarded.triesGoOn_iff {T : Type} {s : Machine T} (hg : s.Guarded) :
    s.TriesGoOn ↔ Apart s.pc := by
  constructor
  · intro h e t u htries
    refine Bool.eq_false_iff.mpr fun hat => ?_
    obtain ⟨hsleeps, hold⟩ := holds_of_sleepsAt hat
    obtain ⟨htry, hawaits⟩ := awaited_of_tries (s := s) htries
    have hawake := h t u htry (hawaits.trans ((hg.endOwned e u).mpr hold))
    exact absurd (hawake.symm.trans hsleeps) Bool.false_ne_true
  · intro h t u htry hawaits
    refine Bool.eq_false_iff.mpr fun hsleeps => ?_
    obtain ⟨hsize, hend⟩ := holds_of_sleeps hsleeps
    obtain ⟨e, htries, hmutex⟩ | hmutex := awaited_cases htry hawaits
    · have hat := hend e ((hg.endOwned e u).mp hmutex)
      exact absurd ((h e t u htries).symm.trans hat) Bool.false_ne_true
    · exact absurd (hsize.symm.trans ((hg.size u).mp hmutex)) Bool.false_ne_true

/-! ## Steps -/

section

variable {T : Type} [DecidableEq T] {s s' : Machine T} {pc : T → Pc} {t : T} {p : Pc}

/-- A thread goes to a position where it is neither asleep nor about to take the mutex of its
end. -/
theorem Apart.update (h : Apart pc) (htries : ∀ e u, p.tries e = true → (pc u).sleepsAt e = false)
    (hsleeps : ∀ e u, p.sleepsAt e = true → (pc u).tries e = false)
    (hself : ∀ e, p.tries e = true → p.sleepsAt e = false) : Apart (Function.update pc t p) := by
  intro e u v hu
  by_cases hut : u = t
  · rw [hut, Function.update_self] at hu
    by_cases hvt : v = t
    · rw [hvt, Function.update_self]
      exact hself e hu
    · rw [Function.update_of_ne hvt]
      exact htries e v hu
  · rw [Function.update_of_ne hut] at hu
    by_cases hvt : v = t
    · rw [hvt, Function.update_self]
      refine Bool.eq_false_iff.mpr fun hp => ?_
      exact absurd ((hsleeps e u hp).symm.trans hu) Bool.false_ne_true
    · rw [Function.update_of_ne hvt]
      exact h e u v hu

theorem wakeless_tries (e : End) : Wakeless (Pc.tries e) := by
  cases e <;> exact ⟨fun _ _ => rfl, fun _ _ => rfl⟩

omit [DecidableEq T] in
/-- A broadcast puts nobody to sleep. -/
theorem sleepsAt_of_woken {e e' : End} {u : T} (h : (s.woken e u).sleepsAt e' = true) :
    (s.pc u).sleepsAt e' = true := by
  have hpush : ∀ pc : Pc, pc.wakePush.sleepsAt e' = true → pc.sleepsAt e' = true := by
    intro pc hpc
    rcases pc with _ | _ | ⟨k, a, _ | _ | _⟩ | _ | _
    case push.sleep => cases e' <;> exact absurd hpc Bool.false_ne_true
    all_goals exact hpc
  have hpop : ∀ pc : Pc, pc.wakePop.sleepsAt e' = true → pc.sleepsAt e' = true := by
    intro pc hpc
    rcases pc with _ | _ | _ | _ | ⟨k, a, _ | _ | _⟩
    case pop.sleep => cases e' <;> exact absurd hpc Bool.false_ne_true
    all_goals exact hpc
  cases e with
  | tail =>
    replace h : (s.pushWoken u).sleepsAt e' = true := h
    unfold Machine.pushWoken at h
    split at h
    · exact hpop _ h
    · exact h
  | head =>
    replace h : (s.popWoken u).sleepsAt e' = true := h
    unfold Machine.popWoken at h
    split at h
    · exact hpush _ h
    · exact h

omit [DecidableEq T] in
/-- Waking threads up leaves fewer of them asleep. -/
theorem Apart.woken (h : Apart s.pc) (e : End) : Apart (s.woken e) := by
  intro e' u v hu
  rw [(wakeless_tries e').woken] at hu
  refine Bool.eq_false_iff.mpr fun hv => ?_
  exact absurd ((h e' u v hu).symm.trans (sleepsAt_of_woken hv)) Bool.false_ne_true

/-- A thread goes on, neither to sleep nor to the beginning of an operation. -/
theorem Apart.awake (h : Apart pc) (hstarts : p.starts = false) (hsleeps : p.sleeps = false) :
    Apart (Function.update pc t p) := by
  refine h.update (fun e u hp => ?_) (fun e u hp => ?_) fun e hp => ?_
  · exact absurd ((tries_of_not_starts hstarts e).symm.trans hp) Bool.false_ne_true
  · exact absurd ((sleepsAt_of_not_sleeps hsleeps e).symm.trans hp) Bool.false_ne_true
  · exact sleepsAt_of_not_sleeps hsleeps e

/-- A thread begins an operation. -/
theorem apart_start_iff (h : Apart pc) (hp : p.sleeps = false) (ht : (pc t).sleeps = false) :
    Apart (Function.update pc t p) ↔ ∀ e u, p.tries e = true → (pc u).sleepsAt e = false := by
  constructor
  · intro h' e u htries
    by_cases hu : u = t
    · rw [hu]
      exact sleepsAt_of_not_sleeps ht e
    · have hsleeps := h' e t u (by rw [Function.update_self]; exact htries)
      rwa [Function.update_of_ne hu] at hsleeps
  · intro hstart
    refine h.update hstart (fun e u hsleeps => ?_) fun e _ => sleepsAt_of_not_sleeps hp e
    exact absurd ((sleepsAt_of_not_sleeps hp e).symm.trans hsleeps) Bool.false_ne_true

/-- A thread falls asleep. -/
theorem apart_sleep_iff (h : Apart pc) (hp : p.starts = false) (ht : (pc t).starts = false)
    (hsleeps : ∀ e', p.sleepsAt e' = true ↔ (pc t).dozes e' = true) :
    Apart (Function.update pc t p) ↔ ∀ e u, (pc t).dozes e = true → (pc u).tries e = false := by
  constructor
  · intro h' e u hdozes
    by_cases hu : u = t
    · rw [hu]
      exact tries_of_not_starts ht e
    · refine Bool.eq_false_iff.mpr fun htries => ?_
      have hawake := h' e u t (by rw [Function.update_of_ne hu]; exact htries)
      rw [Function.update_self] at hawake
      exact absurd (hawake.symm.trans ((hsleeps e).mpr hdozes)) Bool.false_ne_true
  · intro hsleep
    refine h.update (fun e u htries => ?_) (fun e u hs => hsleep e u ((hsleeps e).mp hs))
      fun e htries => ?_
    · exact absurd ((tries_of_not_starts hp e).symm.trans htries) Bool.false_ne_true
    · exact absurd ((tries_of_not_starts hp e).symm.trans htries) Bool.false_ne_true

/-- No try operation begins at an end where a thread sleeps, and no thread falls asleep at an end
where a try operation has begun. -/
def KeepsApart (s : Machine T) : Label T → Prop
  | .call _ op => ∀ e u, (op.start s.q).tries e = true → (s.pc u).sleepsAt e = false
  | .go t => ∀ e u, (s.pc t).dozes e = true → (s.pc u).tries e = false
  | .spurious _ => True

instance [Fintype T] (s : Machine T) (l : Label T) : Decidable (KeepsApart s l) :=
  match l with
  | .call _ op => inferInstanceAs
      (Decidable (∀ e u, (op.start s.q).tries e = true → (s.pc u).sleepsAt e = false))
  | .go t => inferInstanceAs (Decidable (∀ e u, (s.pc t).dozes e = true → (s.pc u).tries e = false))
  | .spurious _ => inferInstanceAs (Decidable True)

omit [DecidableEq T] in
theorem keepsApart_go (h : ∀ e, (s.pc t).dozes e = false) : KeepsApart s (.go t) :=
  fun e _ hdozes => absurd ((h e).symm.trans hdozes) Bool.false_ne_true

/-- A thread goes on that is not about to fall asleep. -/
theorem apart_go_iff {f : T → Pc} (hf : Apart f) (hpc : s'.pc = Function.update f t p)
    (hstarts : p.starts = false) (hsleeps : p.sleeps = false)
    (hdozes : ∀ e, (s.pc t).dozes e = false) :
    Apart s'.pc ↔ KeepsApart s (.go t) := by
  refine iff_of_true ?_ (keepsApart_go hdozes)
  rw [hpc]
  exact hf.awake hstarts hsleeps

theorem start_sleeps (q : QueueT) (op : Op) : (op.start q).sleeps = false := by
  unfold Op.start
  split
  · split <;> rfl
  · rfl

/-- **One step.** -/
theorem step_apart_iff {l : Label T} (h : Apart s.pc) (hs : step s l = some s') :
    Apart s'.pc ↔ KeepsApart s l := by
  cases l with
  | call t op =>
    obtain ⟨ret, hpc, rfl⟩ := step_call hs
    exact apart_start_iff h (start_sleeps s.q op) (by rw [hpc]; rfl)
  | go t =>
    obtain ⟨a, hpc, -, rfl⟩ | ⟨k, a, at', hpc, hs⟩ | ⟨a, hpc, -, rfl⟩ |
      ⟨k, a, at', hpc, hs⟩ := step_go hs
    · refine apart_go_iff h rfl rfl rfl fun e => ?_
      rw [hpc]
      cases e <;> rfl
    · obtain ⟨p, hstarts, hsleeps, hp⟩ := pushStep_pc hs
      cases at' with
      | wait =>
        obtain rfl := Option.some.inj hs
        refine apart_sleep_iff h rfl (by rw [hpc]; rfl) fun e => ?_
        rw [hpc]
        cases e <;> exact Iff.rfl
      | _ =>
        have hdozes : ∀ e, (s.pc t).dozes e = false := fun e => by rw [hpc]; cases e <;> rfl
        have hawake : p.sleeps = false := Bool.eq_false_iff.mpr fun h => by cases hsleeps h
        rcases hp with hp | hp
        · exact apart_go_iff h hp hstarts hawake hdozes
        · exact apart_go_iff (h.woken .tail) hp hstarts hawake hdozes
    · refine apart_go_iff h rfl rfl rfl fun e => ?_
      rw [hpc]
      cases e <;> rfl
    · obtain ⟨p, hstarts, hsleeps, hp⟩ := popStep_pc hs
      cases at' with
      | wait =>
        obtain rfl := Option.some.inj hs
        refine apart_sleep_iff h rfl (by rw [hpc]; rfl) fun e => ?_
        rw [hpc]
        cases e <;> exact Iff.rfl
      | _ =>
        have hdozes : ∀ e, (s.pc t).dozes e = false := fun e => by rw [hpc]; cases e <;> rfl
        have hawake : p.sleeps = false := Bool.eq_false_iff.mpr fun h => by cases hsleeps h
        rcases hp with hp | hp
        · exact apart_go_iff h hp hstarts hawake hdozes
        · exact apart_go_iff (h.woken .head) hp hstarts hawake hdozes
  | spurious t =>
    obtain ⟨k, a, hpc, rfl⟩ | ⟨k, a, hpc, rfl⟩ := step_spurious hs
    · exact iff_of_true (h.awake rfl rfl) trivial
    · exact iff_of_true (h.awake rfl rfl) trivial

/-- **One step, and the try operations.** -/
theorem step_triesGoOn_iff {l : Label T} (hg : s.Guarded) (h : s.TriesGoOn)
    (hs : step s l = some s') :
    s'.TriesGoOn ↔ KeepsApart s l := by
  rw [(step_guarded hg hs).triesGoOn_iff]
  exact step_apart_iff (hg.triesGoOn_iff.mp h) hs

/-! ## Runs -/

/-- **The try operations do not wait for a thread that sleeps**, in any run in which none of them
begins at an end where a thread sleeps, and no thread falls asleep at an end where one has begun. -/
theorem reach_triesGoOn {q : QueueT} (h : Reach step KeepsApart (initial T q) s) : s.TriesGoOn := by
  have hinv : s.Guarded ∧ Apart s.pc := by
    refine h.invariant (I := fun s => s.Guarded ∧ Apart s.pc) ?_ ?_
    · exact ⟨guarded_initial q, fun e t u _ => by cases e <;> rfl⟩
    · rintro s l s' ⟨hg, hapart⟩ hl hs
      exact ⟨step_guarded hg hs, (step_apart_iff hapart hs).mpr hl⟩
  exact hinv.1.triesGoOn_iff.mpr hinv.2

end

/-- While a pop sleeps on the empty queue, a try push goes on. -/
theorem triesGoOn_push :
    ∃ s : Machine Bool, Reach step KeepsApart (initial Bool (queueInit 4096 1 1 fun _ => 0)) s ∧
      (s.pc false).sleeps = true ∧ s.tailMutex = some true ∧ s.TriesGoOn := by
  have hrun : ((run (guardedBy (fun s l => decide (KeepsApart s l)) step)
      (initial Bool (queueInit 4096 1 1 fun _ => 0))
      [.call false (.pop ⟨1, true⟩), .go false, .go false, .go false,
        .call true (.push ⟨[7], false⟩), .go true]).any fun s =>
        (s.pc false).sleeps && s.tailMutex == some true) = true := by decide
  obtain ⟨s, hs, hp⟩ := Reach.exists_of_guarded (fun _ _ => of_decide_eq_true) hrun
  obtain ⟨hsleeps, htail⟩ := Bool.and_eq_true_iff.mp hp
  exact ⟨s, hs, hsleeps, eq_of_beq htail, reach_triesGoOn hs⟩

/-- While a pop sleeps on the empty queue, a try pop waits for it. -/
theorem not_triesGoOn_pop :
    ¬ ∀ s : Machine Bool, Reach step (fun _ _ => True)
      (initial Bool (queueInit 4096 1 1 fun _ => 0)) s →
      s.TriesGoOn := by
  intro hall
  have hrun : ((run step (initial Bool (queueInit 4096 1 1 fun _ => 0))
      [.call false (.pop ⟨1, true⟩), .go false, .go false, .go false,
        .call true (.pop ⟨1, false⟩)]).any fun s =>
        (s.pc true).inTry && (s.awaited (s.pc true) == some false && (s.pc false).sleeps)) =
            true := by
    decide
  obtain ⟨s, hs, hp⟩ := Reach.exists_of_run (fun _ _ _ => trivial) hrun
  obtain ⟨htry, hp⟩ := Bool.and_eq_true_iff.mp hp
  obtain ⟨hawaits, hsleeps⟩ := Bool.and_eq_true_iff.mp hp
  have hawake := hall s hs true false htry (eq_of_beq hawaits)
  exact absurd (hawake.symm.trans hsleeps) Bool.false_ne_true

end Queue

end CloudTiering
