import CloudTiering.Queue.Fifo

/-!
# The queue under deferred cancellation

`queue.h` promises that the queue is safe in code that supports deferred thread cancellation,
because its functions have no cancellation points inside.  They have one: `pthread_cond_wait`.  A
thread that is cancelled there takes `size_mutex` again and ends, with `tail_mutex` or `head_mutex`
still locked.

* `Cancellable`, `cancelStep`: the machine of `Queue.Machine`, with threads that end.
* `Cancellable.Safe`: what the promise amounts to.
* `cancelStep_stored`: cancellation never harms the elements.
* `reach_safe`: the promise holds as long as nobody is cancelled in `pthread_cond_wait`, and the
  sizes fit.
* `cancelled_waiting`, `not_safe_of_cancelled_waiting`: what happens otherwise.
-/

namespace CloudTiering

open Foundations

namespace Queue

/-! ## Threads that end -/

/-- A machine, and which of its threads have ended. -/
structure Cancellable (T : Type) where
  machine : Machine T
  ended : T → Bool

/-- The labels of the steps: a thread that has not ended takes a step, or acts on a cancellation
request. -/
inductive CancelLabel (T : Type)
  | step (l : Label T)
  | cancel (t : T)

/-- The thread that takes a step. -/
def Label.thread {T : Type} : Label T → T
  | .call t _ | .go t | .spurious t => t

/-- The position is one in `pthread_cond_wait`. -/
def Pc.waits : Pc → Bool
  | .push _ _ .wait | .push _ _ .sleep => true
  | .pop _ _ .wait | .pop _ _ .sleep => true
  | _ => false

variable {T : Type} [DecidableEq T]

/-- Thread `t` acts on a cancellation request.  Outside of the operations it just ends.  In
`pthread_cond_wait` it first takes `size_mutex` again, if it has released it already.  The other
positions are no cancellation points. -/
def endThread (s : Machine T) (t : T) : Pc → Option (Machine T)
  | .outside _ => some s
  | .push _ _ .wait | .pop _ _ .wait => some s
  | .push k a .sleep =>
      if s.sizeMutex.isSome then none
      else some ({ s with sizeMutex := some t }.goto t (.push k a .wait))
  | .pop k a .sleep =>
      if s.sizeMutex.isSome then none
      else some ({ s with sizeMutex := some t }.goto t (.pop k a .wait))
  | _ => none

/-- A step under deferred cancellation. -/
def cancelStep (s : Cancellable T) : CancelLabel T → Option (Cancellable T)
  | .step l => if s.ended l.thread then none else (step s.machine l).map fun m => ⟨m, s.ended⟩
  | .cancel t =>
      if s.ended t then none
      else (endThread s.machine t (s.machine.pc t)).map fun m =>
        ⟨m, Function.update s.ended t true⟩

/-- No thread has ended with a mutex, and the elements in the queue are those of the completed
pushes less those of the completed pops. -/
def Cancellable.Safe (n d b : ℕ) (s : Cancellable T) : Prop :=
  (∀ t, s.ended t = true → s.machine.headMutex ≠ some t ∧ s.machine.tailMutex ≠ some t ∧
      s.machine.sizeMutex ≠ some t) ∧
    ∃ els, s.machine.pushed = s.machine.popped ++ els ∧
      Ring n d b s.machine.q s.machine.popped.length els

/-- The condition on a step: nobody is cancelled in `pthread_cond_wait`. -/
def NotWaiting (s : Cancellable T) : CancelLabel T → Prop
  | .step _ => True
  | .cancel t => (s.machine.pc t).waits = false

/-! ## What a step does -/

variable {n d b : ℕ} {s s' : Cancellable T} {m m' : Machine T} {t u : T}

theorem cancelStep_step {l : Label T} (h : cancelStep s (.step l) = some s') :
    s.ended l.thread = false ∧ ∃ m, step s.machine l = some m ∧ s' = ⟨m, s.ended⟩ := by
  obtain ⟨hlive, hs⟩ := Option.ite_none_left_eq_some.mp h
  obtain ⟨m, hm, rfl⟩ := Option.map_eq_some_iff.mp hs
  exact ⟨Bool.eq_false_iff.mpr hlive, m, hm, rfl⟩

theorem cancelStep_cancel (h : cancelStep s (.cancel t) = some s') :
    s.ended t = false ∧ ∃ m, endThread s.machine t (s.machine.pc t) = some m ∧
      s' = ⟨m, Function.update s.ended t true⟩ := by
  obtain ⟨hlive, hs⟩ := Option.ite_none_left_eq_some.mp h
  obtain ⟨m, hm, rfl⟩ := Option.map_eq_some_iff.mp hs
  exact ⟨Bool.eq_false_iff.mpr hlive, m, hm, rfl⟩

/-- Where a thread ends: outside, where it changes nothing, or in `pthread_cond_wait` with
`size_mutex`. -/
theorem endThread_cases (h : endThread m t (m.pc t) = some m') :
    ((∃ ret, m.pc t = .outside ret) ∧ m' = m) ∨
    ((m.pc t).waits = true ∧ (m.pc t).holdsSize = true ∧ m' = m) ∨
    (∃ k a, m.pc t = .push k a .sleep ∧ m.sizeMutex = none ∧
      m' = { m with sizeMutex := some t }.goto t (.push k a .wait)) ∨
    ∃ k a, m.pc t = .pop k a .sleep ∧ m.sizeMutex = none ∧
      m' = { m with sizeMutex := some t }.goto t (.pop k a .wait) := by
  rcases hpc : m.pc t with ret | _ | ⟨k, a, _ | _ | _⟩ | _ | ⟨k, a, _ | _ | _⟩
  case outside =>
    rw [hpc] at h
    exact .inl ⟨⟨ret, rfl⟩, (Option.some.inj h).symm⟩
  case push.wait | pop.wait =>
    rw [hpc] at h
    exact .inr (.inl ⟨rfl, rfl, (Option.some.inj h).symm⟩)
  case push.sleep =>
    rw [hpc] at h
    obtain ⟨hfree, heq⟩ := Option.ite_none_left_eq_some.mp h
    exact .inr (.inr (.inl ⟨k, a, rfl, eq_none_of_isSome hfree, (Option.some.inj heq).symm⟩))
  case pop.sleep =>
    rw [hpc] at h
    obtain ⟨hfree, heq⟩ := Option.ite_none_left_eq_some.mp h
    exact .inr (.inr (.inr ⟨k, a, rfl, eq_none_of_isSome hfree, (Option.some.inj heq).symm⟩))
  all_goals
    rw [hpc] at h
    exact absurd h.symm (Option.some_ne_none m')

/-! ## The elements -/

theorem endThread_guarded (hg : m.Guarded) (h : endThread m t (m.pc t) = some m') : m'.Guarded := by
  obtain ⟨-, rfl⟩ | ⟨-, -, rfl⟩ | ⟨k, a, hpc, hfree, rfl⟩ | ⟨k, a, hpc, hfree, rfl⟩ :=
    endThread_cases h
  · exact hg
  · exact hg
  · rw [Machine.Guarded, hfree] at hg
    exact hg.lockSize hpc rfl rfl rfl
  · rw [Machine.Guarded, hfree] at hg
    exact hg.lockSize hpc rfl rfl rfl

theorem endThread_data {els : List Bytes} (hd : Data n d b m els)
    (h : endThread m t (m.pc t) = some m') : Data n d b m' els := by
  obtain ⟨-, rfl⟩ | ⟨-, -, rfl⟩ | ⟨k, a, hpc, -, rfl⟩ | ⟨k, a, hpc, -, rfl⟩ := endThread_cases h
  · exact hd
  · exact hd
  · have hok := hd.threads t
    rw [hpc] at hok
    exact hd.move (some t) (.push k a .wait) hok
  · have hok := hd.threads t
    rw [hpc] at hok
    exact hd.move (some t) (.pop k a .wait) hok

/-- What every step keeps, whoever is cancelled wherever. -/
def Cancellable.Stored (n d b : ℕ) (s : Cancellable T) : Prop :=
  s.machine.Guarded ∧ ∃ els, Data n d b s.machine els

theorem cancelStep_stored {l : CancelLabel T} (h : s.Stored n d b) (hs : cancelStep s l = some s') :
    s'.Stored n d b := by
  obtain ⟨hg, els, hd⟩ := h
  cases l with
  | step l =>
    obtain ⟨-, m, hm, rfl⟩ := cancelStep_step hs
    exact ⟨step_guarded hg hm, step_data hd hg hm⟩
  | cancel t =>
    obtain ⟨-, m, hm, rfl⟩ := cancelStep_cancel hs
    exact ⟨endThread_guarded hg hm, els, endThread_data hd hm⟩

/-! ## The mutexes -/

omit [DecidableEq T] in
/-- A broadcast does not move a thread that is outside. -/
theorem woken_outside {ret : Option Int} (h : m.pc u = .outside ret) (e : End) :
    m.woken e u = .outside ret := by
  have hwake : Wakeless fun pc => pc = Pc.outside ret :=
    ⟨fun _ _ => by simp, fun _ _ => by simp⟩
  exact (hwake.woken m e u).mpr h

/-- A thread that is outside stays there while others take steps. -/
theorem step_outside {l : Label T} {ret : Option Int} (h : step m l = some m') (hu : u ≠ l.thread)
    (hpc : m.pc u = .outside ret) : m'.pc u = .outside ret := by
  cases l with
  | call t op =>
    obtain ⟨-, -, rfl⟩ := step_call h
    exact (Function.update_of_ne hu _ _).trans hpc
  | go t =>
    obtain ⟨a, -, -, rfl⟩ | ⟨k, a, at', -, hs⟩ | ⟨a, -, -, rfl⟩ | ⟨k, a, at', -, hs⟩ := step_go h
    · exact (Function.update_of_ne hu _ _).trans hpc
    · obtain ⟨p, -, -, hp | hp⟩ := pushStep_pc hs
      · rw [hp]
        exact (Function.update_of_ne hu _ _).trans hpc
      · rw [hp]
        exact (Function.update_of_ne hu _ _).trans (woken_outside hpc .tail)
    · exact (Function.update_of_ne hu _ _).trans hpc
    · obtain ⟨p, -, -, hp | hp⟩ := popStep_pc hs
      · rw [hp]
        exact (Function.update_of_ne hu _ _).trans hpc
      · rw [hp]
        exact (Function.update_of_ne hu _ _).trans (woken_outside hpc .head)
  | spurious t =>
    obtain ⟨k, a, -, rfl⟩ | ⟨k, a, -, rfl⟩ := step_spurious h
    all_goals exact (Function.update_of_ne hu _ _).trans hpc

/-- The threads that have ended are outside. -/
def Cancellable.EndedOutside (s : Cancellable T) : Prop :=
  ∀ t, s.ended t = true → ∃ ret, s.machine.pc t = .outside ret

theorem cancelStep_endedOutside {l : CancelLabel T} (h : s.EndedOutside) (hl : NotWaiting s l)
    (hs : cancelStep s l = some s') : s'.EndedOutside := by
  cases l with
  | step l =>
    obtain ⟨hlive, m, hm, rfl⟩ := cancelStep_step hs
    intro u hu
    obtain ⟨ret, hpc⟩ := h u hu
    refine ⟨ret, step_outside hm ?_ hpc⟩
    rintro rfl
    exact Bool.false_ne_true (hlive.symm.trans hu)
  | cancel t =>
    obtain ⟨-, m, hm, rfl⟩ := cancelStep_cancel hs
    obtain ⟨⟨ret, hpc⟩, rfl⟩ | ⟨hwait, -⟩ | ⟨k, a, hpc, -⟩ | ⟨k, a, hpc, -⟩ := endThread_cases hm
    · intro u hu
      by_cases heq : u = t
      · rw [heq]
        exact ⟨ret, hpc⟩
      · exact h u ((Function.update_of_ne heq _ _).symm.trans hu)
    · exact absurd (hl.symm.trans hwait) Bool.false_ne_true
    all_goals
      have hwait : (s.machine.pc t).waits = false := hl
      rw [hpc] at hwait
      exact absurd hwait.symm Bool.false_ne_true

/-- **The queue is safe while nobody is cancelled in `pthread_cond_wait`**, where its total size
does not need reduction. -/
theorem reach_safe {pageSize : ℕ} {mem : ℕ → UInt8} (hsize : unreduced pageSize n d < sizeTMod)
    (h : Reach cancelStep NotWaiting ⟨initial T (queueInit pageSize n d mem), fun _ => false⟩ s) :
    s.Safe n d (sizeofQueueT + sizeofQueueT % pageSize) := by
  have hfits := (totalSizeAligned_of_unreduced hsize).1
  obtain ⟨⟨hg, els, hd⟩, hended⟩ := h.invariant
    (I := fun s => s.Stored n d (sizeofQueueT + sizeofQueueT % pageSize) ∧ s.EndedOutside)
    ⟨⟨guarded_initial _, [], data_initial hfits⟩, fun t ht => absurd ht Bool.false_ne_true⟩
    fun s l s' hI hl hs => ⟨cancelStep_stored hI.1 hs, cancelStep_endedOutside hI.2 hl hs⟩
  refine ⟨fun t ht => ?_, els, hd.history, hd.ring⟩
  obtain ⟨ret, hpc⟩ := hended t ht
  have hout : ∀ holds : Pc → Bool, holds (.outside ret) = false → ∀ owner : Option T,
      Owned owner holds s.machine.pc → owner ≠ some t := by
    intro holds hnone owner hown heq
    have hold := (hown t).mp heq
    rw [hpc, hnone] at hold
    exact Bool.false_ne_true hold
  exact ⟨hout _ rfl _ hg.head, hout _ rfl _ hg.tail, hout _ rfl _ hg.size⟩

/-- The condition on a step, as a test. -/
def Cancellable.notWaiting (s : Cancellable T) : CancelLabel T → Bool
  | .step _ => true
  | .cancel t => !(s.machine.pc t).waits

/-- The supplier is cancelled after it has pushed an element, while the consumer copies it out. -/
theorem safe_pair :
    ∃ s : Cancellable Bool, Reach cancelStep NotWaiting
        ⟨initial Bool (queueInit 4096 1 1 fun _ => 0), fun _ => false⟩ s ∧ s.ended true = true ∧
      s.machine.pushed = [[7]] ∧ (s.machine.pc false).reads.isSome = true ∧
      s.Safe 1 1 (sizeofQueueT + sizeofQueueT % 4096) := by
  have hrun : ((run (guardedBy Cancellable.notWaiting cancelStep)
      (⟨initial Bool (queueInit 4096 1 1 fun _ => 0), fun _ => false⟩ : Cancellable Bool)
      (.step (.call true (.push ⟨[7], true⟩)) :: List.replicate 16 (.step (.go true)) ++
        .step (.call false (.pop ⟨1, true⟩)) :: List.replicate 6 (.step (.go false)) ++
        [.cancel true, .step (.go false)])).any fun s => s.ended true &&
          (s.machine.pushed == [[7]] && (s.machine.pc false).reads.isSome)) = true := by decide
  have hallows : ∀ (s : Cancellable Bool) (l : CancelLabel Bool), s.notWaiting l = true →
      NotWaiting s l := by
    intro s l hl
    cases l with
    | step l => trivial
    | cancel t => simpa [Cancellable.notWaiting, NotWaiting] using hl
  obtain ⟨s, hs, hp⟩ := Reach.exists_of_guarded (P := NotWaiting) hallows hrun
  obtain ⟨hended, hrest⟩ := Bool.and_eq_true_iff.mp hp
  obtain ⟨hpushed, hreads⟩ := Bool.and_eq_true_iff.mp hrest
  exact ⟨s, hs, hended, eq_of_beq hpushed, hreads, reach_safe (by decide) hs⟩

/-! ## Who is cancelled in the wait -/

/-- A thread that is cancelled in `pthread_cond_wait` ends with `size_mutex`. -/
theorem cancelled_waiting (hg : s.machine.Guarded) (hwait : (s.machine.pc t).waits = true)
    (hs : cancelStep s (.cancel t) = some s') :
    s'.ended t = true ∧ s'.machine.sizeMutex = some t := by
  obtain ⟨-, m, hm, rfl⟩ := cancelStep_cancel hs
  refine ⟨Function.update_self .., ?_⟩
  obtain ⟨⟨ret, hpc⟩, -⟩ | ⟨-, hsize, rfl⟩ | ⟨k, a, -, -, rfl⟩ | ⟨k, a, -, -, rfl⟩ :=
    endThread_cases hm
  · rw [hpc] at hwait
    exact absurd hwait Bool.false_ne_true
  · exact (hg.size t).mpr hsize
  · rfl
  · rfl

/-- **The promise of `queue.h` fails** whenever a thread is cancelled in `pthread_cond_wait`. -/
theorem not_safe_of_cancelled_waiting (hg : s.machine.Guarded)
    (hwait : (s.machine.pc t).waits = true)
    (hs : cancelStep s (.cancel t) = some s') : ¬ s'.Safe n d b := by
  obtain ⟨hended, hsize⟩ := cancelled_waiting hg hwait hs
  intro hsafe
  exact (hsafe.1 t hended).2.2 hsize

/-- A consumer goes to sleep on the empty queue and is cancelled. -/
theorem not_safe_sleeping_consumer :
    ¬ ∀ s : Cancellable Bool, Reach cancelStep (fun _ _ => True)
        ⟨initial Bool (queueInit 4096 1 1 fun _ => 0), fun _ => false⟩ s →
      s.Safe 1 1 (sizeofQueueT + sizeofQueueT % 4096) := by
  intro hall
  have hrun : ((run cancelStep
      (⟨initial Bool (queueInit 4096 1 1 fun _ => 0), fun _ => false⟩ : Cancellable Bool)
      [.step (.call false (.pop ⟨1, true⟩)), .step (.go false), .step (.go false),
        .step (.go false),
        .cancel false]).any fun s => s.ended false && s.machine.headMutex == some false) =
            true := by
    decide
  obtain ⟨s, hs, hp⟩ := Reach.exists_of_run (fun _ _ _ => trivial) hrun
  obtain ⟨hended, hhead⟩ := Bool.and_eq_true_iff.mp hp
  exact ((hall s hs).1 false hended).1 (eq_of_beq hhead)

end Queue

end CloudTiering
