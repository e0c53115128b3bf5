import CloudTiering.Foundations.Mutex
import CloudTiering.Queue.Machine
import Mathlib.Data.Fintype.Basic

/-!
# The three mutexes of the queue

A thread holds the mutexes that its position says, and nobody else does, in every reachable state.

* `End`: the two ends of the queue, each with its mutex.
* `Wakeless`: what a broadcast does not change about a thread.
* `Mutexes`, `Machine.Guarded`: the invariant.
* `Mutexes.stay`, `Mutexes.lockSize` and the others: what taking or releasing one mutex does to it.
* `step_guarded`: every step keeps it.
-/

namespace CloudTiering

open Foundations

namespace Queue

variable {T : Type}

/-! ## The ends of the queue -/

/-- The ends of the queue, each with its mutex: elements are pushed at the tail and popped at the
head. -/
inductive End
  | tail | head
  deriving DecidableEq

instance : Fintype End := ⟨{.tail, .head}, fun e => by cases e <;> decide⟩

/-- The mutex of an end. -/
def Machine.endMutex (s : Machine T) : End → Option T
  | .tail => s.tailMutex
  | .head => s.headMutex

/-- The thread holds the mutex of an end. -/
def Pc.holdsEnd : End → Pc → Bool
  | .tail => Pc.holdsTail
  | .head => Pc.holdsHead

/-- An operation at this end is asleep. -/
def Pc.sleepsAt : End → Pc → Bool
  | .tail, .push _ _ .sleep => true
  | .head, .pop _ _ .sleep => true
  | _, _ => false

/-- The threads after an operation at this end has counted. -/
def Machine.woken (s : Machine T) : End → T → Pc
  | .tail => s.pushWoken
  | .head => s.popWoken

/-! ## Broadcasts -/

/-- A function of the position that does not tell a thread that sleeps from one that has been
woken. -/
structure Wakeless {α : Type} (f : Pc → α) : Prop where
  push : ∀ k a, f (.push k a .test) = f (.push k a .sleep)
  pop : ∀ k a, f (.pop k a .test) = f (.pop k a .sleep)

section

variable {α : Type} {f : Pc → α} {s : Machine T} {t u : T} {e : End}

theorem Wakeless.wakePush (h : Wakeless f) (pc : Pc) : f pc.wakePush = f pc := by
  rcases pc with _ | _ | ⟨k, a, _ | _ | _⟩ | _ | _
  case push.sleep => exact h.push k a
  all_goals rfl

theorem Wakeless.wakePop (h : Wakeless f) (pc : Pc) : f pc.wakePop = f pc := by
  rcases pc with _ | _ | _ | _ | ⟨k, a, _ | _ | _⟩
  case pop.sleep => exact h.pop k a
  all_goals rfl

/-- A broadcast does not change it. -/
theorem Wakeless.woken (h : Wakeless f) (s : Machine T) (e : End) (u : T) :
    f (s.woken e u) = f (s.pc u) := by
  cases e with
  | tail =>
    show f (s.pushWoken u) = _
    unfold Machine.pushWoken
    split
    · exact h.wakePop _
    · rfl
  | head =>
    show f (s.popWoken u) = _
    unfold Machine.popWoken
    split
    · exact h.wakePush _
    · rfl

theorem wakePop_of_holdsTail {pc : Pc} (h : pc.holdsTail = true) : pc.wakePop = pc := by
  cases pc with
  | push k a at' => rfl
  | _ => exact absurd h Bool.false_ne_true

theorem wakePush_of_holdsHead {pc : Pc} (h : pc.holdsHead = true) : pc.wakePush = pc := by
  cases pc with
  | pop k a at' => rfl
  | _ => exact absurd h Bool.false_ne_true

/-- An operation wakes nobody at its own end. -/
theorem woken_of_holdsEnd (h : (s.pc t).holdsEnd e = true) : s.woken e t = s.pc t := by
  cases e with
  | tail =>
    show s.pushWoken t = _
    unfold Machine.pushWoken
    split
    · exact wakePop_of_holdsTail h
    · rfl
  | head =>
    show s.popWoken t = _
    unfold Machine.popWoken
    split
    · exact wakePush_of_holdsHead h
    · rfl

theorem wakeless_holdsTail : Wakeless Pc.holdsTail := ⟨fun _ _ => rfl, fun _ _ => rfl⟩

theorem wakeless_holdsHead : Wakeless Pc.holdsHead := ⟨fun _ _ => rfl, fun _ _ => rfl⟩

theorem wakeless_holdsSize : Wakeless Pc.holdsSize := ⟨fun _ _ => rfl, fun _ _ => rfl⟩

end

/-! ## The mutexes -/

/-- A thread holds the mutexes that its position says. -/
structure Mutexes (tailMutex headMutex sizeMutex : Option T) (pc : T → Pc) : Prop where
  tail : Owned tailMutex Pc.holdsTail pc
  head : Owned headMutex Pc.holdsHead pc
  size : Owned sizeMutex Pc.holdsSize pc

namespace Mutexes

variable {tail head size : Option T} {pc : T → Pc} {t : T} {p : Pc}

/-- A broadcast neither gives nor takes a mutex. -/
theorem woken {s : Machine T} (h : Mutexes tail head size s.pc) (e : End) :
    Mutexes tail head size (s.woken e) :=
  ⟨fun t => by rw [wakeless_holdsTail.woken]; exact h.tail t,
    fun t => by rw [wakeless_holdsHead.woken]; exact h.head t,
    fun t => by rw [wakeless_holdsSize.woken]; exact h.size t⟩

variable [DecidableEq T] {p₀ : Pc}

/-- A step that takes and releases nothing. -/
theorem stay (h : Mutexes tail head size pc) (hpc : pc t = p₀) (ht : p.holdsTail = p₀.holdsTail)
    (hh : p.holdsHead = p₀.holdsHead) (hs : p.holdsSize = p₀.holdsSize) :
    Mutexes tail head size (Function.update pc t p) := by
  subst hpc
  exact ⟨h.tail.stay ht, h.head.stay hh, h.size.stay hs⟩

theorem lockSize (h : Mutexes tail head none pc) (hpc : pc t = p₀)
    (ht : p.holdsTail = p₀.holdsTail) (hh : p.holdsHead = p₀.holdsHead) (hs : p.holdsSize = true) :
    Mutexes tail head (some t) (Function.update pc t p) := by
  subst hpc
  exact ⟨h.tail.stay ht, h.head.stay hh, h.size.lock hs⟩

theorem unlockSize (h : Mutexes tail head size pc) (hpc : pc t = p₀)
    (ht : p.holdsTail = p₀.holdsTail) (hh : p.holdsHead = p₀.holdsHead)
    (hold : p₀.holdsSize = true) (hs : p.holdsSize = false) :
    Mutexes tail head none (Function.update pc t p) := by
  subst hpc
  exact ⟨h.tail.stay ht, h.head.stay hh, h.size.unlock hold hs⟩

theorem lockTail (h : Mutexes none head size pc) (hpc : pc t = p₀) (ht : p.holdsTail = true)
    (hh : p.holdsHead = p₀.holdsHead) (hs : p.holdsSize = p₀.holdsSize) :
    Mutexes (some t) head size (Function.update pc t p) := by
  subst hpc
  exact ⟨h.tail.lock ht, h.head.stay hh, h.size.stay hs⟩

theorem unlockTail (h : Mutexes tail head size pc) (hpc : pc t = p₀) (hold : p₀.holdsTail = true)
    (ht : p.holdsTail = false) (hh : p.holdsHead = p₀.holdsHead)
    (hs : p.holdsSize = p₀.holdsSize) : Mutexes none head size (Function.update pc t p) := by
  subst hpc
  exact ⟨h.tail.unlock hold ht, h.head.stay hh, h.size.stay hs⟩

theorem lockHead (h : Mutexes tail none size pc) (hpc : pc t = p₀)
    (ht : p.holdsTail = p₀.holdsTail) (hh : p.holdsHead = true)
    (hs : p.holdsSize = p₀.holdsSize) : Mutexes tail (some t) size (Function.update pc t p) := by
  subst hpc
  exact ⟨h.tail.stay ht, h.head.lock hh, h.size.stay hs⟩

theorem unlockHead (h : Mutexes tail head size pc) (hpc : pc t = p₀)
    (ht : p.holdsTail = p₀.holdsTail) (hold : p₀.holdsHead = true) (hh : p.holdsHead = false)
    (hs : p.holdsSize = p₀.holdsSize) : Mutexes tail none size (Function.update pc t p) := by
  subst hpc
  exact ⟨h.tail.stay ht, h.head.unlock hold hh, h.size.stay hs⟩

end Mutexes

/-- The mutexes of a machine. -/
def Machine.Guarded (s : Machine T) : Prop := Mutexes s.tailMutex s.headMutex s.sizeMutex s.pc

theorem Machine.Guarded.endOwned {s : Machine T} (hg : s.Guarded) (e : End) :
    Owned (s.endMutex e) (Pc.holdsEnd e) s.pc := by
  cases e with
  | tail => exact hg.tail
  | head => exact hg.head

/-- Nobody holds anything at first. -/
theorem guarded_initial (q : QueueT) : (initial T q).Guarded := by
  refine ⟨fun t => ?_, fun t => ?_, fun t => ?_⟩ <;>
    exact ⟨fun h => absurd h.symm (Option.some_ne_none t), fun h => absurd h Bool.false_ne_true⟩

/-- A free mutex, as the step functions test it. -/
theorem eq_none_of_isSome {o : Option T} (h : ¬ o.isSome = true) : o = none := by
  simpa using h

theorem pushTested_holds (q : QueueT) (k : ℕ) (a : Push) :
    (Pc.push k a (pushTested q a)).holdsSize = true := by
  unfold pushTested
  split
  · split <;> rfl
  · rfl

theorem popTested_holds (q : QueueT) (k : ℕ) (a : Pop) :
    (Pc.pop k a (popTested q a)).holdsSize = true := by
  unfold popTested
  split
  · split <;> rfl
  · rfl

theorem pushTested_sleeps (q : QueueT) (k : ℕ) (a : Push) :
    (Pc.push k a (pushTested q a)).sleeps = false := by
  unfold pushTested
  split
  · split <;> rfl
  · rfl

theorem popTested_sleeps (q : QueueT) (k : ℕ) (a : Pop) :
    (Pc.pop k a (popTested q a)).sleeps = false := by
  unfold popTested
  split
  · split <;> rfl
  · rfl

section

variable [DecidableEq T] {s s' : Machine T} {t : T}

theorem pushStep_guarded {k : ℕ} {a : Push} {at' : PushAt} (h : s.Guarded)
    (hpc : s.pc t = .push k a at') (hs : pushStep s t k a at' = some s') : s'.Guarded := by
  cases at' with
  | test =>
    obtain ⟨hfree, heq⟩ := Option.ite_none_left_eq_some.mp hs
    obtain rfl := Option.some.inj heq
    rw [Machine.Guarded, eq_none_of_isSome hfree] at h
    exact h.lockSize hpc rfl rfl (pushTested_holds _ _ _)
  | sleep => exact absurd hs (by simp [pushStep])
  | wait | refuse | room | leave =>
    obtain rfl := Option.some.inj hs
    exact h.unlockSize hpc rfl rfl rfl rfl
  | refuseTail | leaveTail =>
    obtain rfl := Option.some.inj hs
    exact h.unlockTail hpc rfl rfl rfl rfl
  | copy ptr i =>
    unfold pushStep at hs
    dsimp only at hs
    split at hs
    all_goals
      obtain rfl := Option.some.inj hs
      exact h.stay hpc rfl rfl rfl
  | count =>
    obtain ⟨hfree, heq⟩ := Option.ite_none_left_eq_some.mp hs
    obtain rfl := Option.some.inj heq
    rw [Machine.Guarded, eq_none_of_isSome hfree] at h
    have hself : (s.pc t).holdsEnd .tail = true := by rw [hpc]; rfl
    exact (h.woken .tail).lockSize ((woken_of_holdsEnd hself).trans hpc) rfl rfl rfl

theorem popStep_guarded {k : ℕ} {a : Pop} {at' : PopAt} (h : s.Guarded)
    (hpc : s.pc t = .pop k a at') (hs : popStep s t k a at' = some s') : s'.Guarded := by
  cases at' with
  | test =>
    obtain ⟨hfree, heq⟩ := Option.ite_none_left_eq_some.mp hs
    obtain rfl := Option.some.inj heq
    rw [Machine.Guarded, eq_none_of_isSome hfree] at h
    exact h.lockSize hpc rfl rfl (popTested_holds _ _ _)
  | sleep => exact absurd hs (by simp [popStep])
  | wait | refuse | element | leave =>
    obtain rfl := Option.some.inj hs
    exact h.unlockSize hpc rfl rfl rfl rfl
  | refuseHead | leaveHead | small =>
    obtain rfl := Option.some.inj hs
    exact h.unlockHead hpc rfl rfl rfl rfl
  | readSize ptr acc =>
    unfold popStep at hs
    dsimp only at hs
    split at hs
    · obtain rfl := Option.some.inj hs
      exact h.stay hpc rfl rfl rfl
    · split at hs
      all_goals
        obtain rfl := Option.some.inj hs
        exact h.stay hpc rfl rfl rfl
  | copy ptr elemSz acc =>
    unfold popStep at hs
    dsimp only at hs
    split at hs
    all_goals
      obtain rfl := Option.some.inj hs
      exact h.stay hpc rfl rfl rfl
  | count bytes =>
    obtain ⟨hfree, heq⟩ := Option.ite_none_left_eq_some.mp hs
    obtain rfl := Option.some.inj heq
    rw [Machine.Guarded, eq_none_of_isSome hfree] at h
    have hself : (s.pc t).holdsEnd .head = true := by rw [hpc]; rfl
    exact (h.woken .head).lockSize ((woken_of_holdsEnd hself).trans hpc) rfl rfl rfl

omit [DecidableEq T] in
/-- The thread is not asleep afterwards. -/
theorem exists_awake {I : Pc → Prop} {φ : Prop} {p : Pc} (hp : I p) (hstarts : p.starts = false)
    (hsleeps : p.sleeps = false) : ∃ p, p.starts = false ∧ (p.sleeps = true → φ) ∧ I p :=
  ⟨p, hstarts, fun h => absurd (hsleeps.symm.trans h) Bool.false_ne_true, hp⟩

/-- A step in `queue_push_common` moves its thread, and wakes others at most; the thread falls
asleep where it waits. -/
theorem pushStep_pc {k : ℕ} {a : Push} {at' : PushAt} (h : pushStep s t k a at' = some s') :
    ∃ p, p.starts = false ∧ (p.sleeps = true → at' = .wait) ∧
      (s'.pc = Function.update s.pc t p ∨ s'.pc = Function.update (s.woken .tail) t p) := by
  cases at' with
  | test =>
    obtain rfl := Option.some.inj (Option.ite_none_left_eq_some.mp h).2
    exact exists_awake (.inl rfl) rfl (pushTested_sleeps _ _ _)
  | count =>
    obtain rfl := Option.some.inj (Option.ite_none_left_eq_some.mp h).2
    exact exists_awake (.inr rfl) rfl rfl
  | sleep => exact absurd h (by simp [pushStep])
  | copy ptr i =>
    unfold pushStep at h
    dsimp only at h
    split at h
    all_goals
      obtain rfl := Option.some.inj h
      exact exists_awake (.inl rfl) rfl rfl
  | wait =>
    obtain rfl := Option.some.inj h
    exact ⟨.push k a .sleep, rfl, fun _ => rfl, .inl rfl⟩
  | refuse | refuseTail | room | leave | leaveTail =>
    obtain rfl := Option.some.inj h
    exact exists_awake (.inl rfl) rfl rfl

theorem popStep_pc {k : ℕ} {a : Pop} {at' : PopAt} (h : popStep s t k a at' = some s') :
    ∃ p, p.starts = false ∧ (p.sleeps = true → at' = .wait) ∧
      (s'.pc = Function.update s.pc t p ∨ s'.pc = Function.update (s.woken .head) t p) := by
  cases at' with
  | test =>
    obtain rfl := Option.some.inj (Option.ite_none_left_eq_some.mp h).2
    exact exists_awake (.inl rfl) rfl (popTested_sleeps _ _ _)
  | count bytes =>
    obtain rfl := Option.some.inj (Option.ite_none_left_eq_some.mp h).2
    exact exists_awake (.inr rfl) rfl rfl
  | sleep => exact absurd h (by simp [popStep])
  | readSize ptr acc =>
    unfold popStep at h
    dsimp only at h
    split at h
    · obtain rfl := Option.some.inj h
      exact exists_awake (.inl rfl) rfl rfl
    · split at h
      all_goals
        obtain rfl := Option.some.inj h
        exact exists_awake (.inl rfl) rfl rfl
  | copy ptr elemSz acc =>
    unfold popStep at h
    dsimp only at h
    split at h
    all_goals
      obtain rfl := Option.some.inj h
      exact exists_awake (.inl rfl) rfl rfl
  | wait =>
    obtain rfl := Option.some.inj h
    exact ⟨.pop k a .sleep, rfl, fun _ => rfl, .inl rfl⟩
  | refuse | refuseHead | element | small | leave | leaveHead =>
    obtain rfl := Option.some.inj h
    exact exists_awake (.inl rfl) rfl rfl

/-- **Mutual exclusion is kept by every step.** -/
theorem step_guarded {l : Label T} (h : s.Guarded) (hs : step s l = some s') : s'.Guarded := by
  cases l with
  | call t op =>
    obtain ⟨ret, hpc, rfl⟩ := step_call hs
    cases op with
    | push a =>
      unfold Op.start
      dsimp only
      split <;> exact h.stay hpc rfl rfl rfl
    | pop a => exact h.stay hpc rfl rfl rfl
  | go t =>
    obtain ⟨a, hpc, hfree, rfl⟩ | ⟨k, a, at', hpc, hs⟩ | ⟨a, hpc, hfree, rfl⟩ |
      ⟨k, a, at', hpc, hs⟩ := step_go hs
    · rw [Machine.Guarded, hfree] at h
      exact h.lockTail hpc rfl rfl rfl
    · exact pushStep_guarded h hpc hs
    · rw [Machine.Guarded, hfree] at h
      exact h.lockHead hpc rfl rfl rfl
    · exact popStep_guarded h hpc hs
  | spurious t =>
    obtain ⟨k, a, hpc, rfl⟩ | ⟨k, a, hpc, rfl⟩ := step_spurious hs <;> exact h.stay hpc rfl rfl rfl

end

end Queue

end CloudTiering
