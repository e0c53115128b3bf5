import CloudTiering.Foundations.Transition
import CloudTiering.Queue.Layout
import Mathlib.Data.List.ReduceOption

/-!
# `queue.c`: the operations, run by any number of threads

One step is the code from one lock, unlock or wait operation to the next; the copies into and out of
a slot go byte by byte, so that steps of other threads come between any two bytes.

* `PushAt`, `PopAt`, `Pc`: the positions of a thread in the operations.
* `Machine`: the queue, the three mutexes, the threads, and a record of the calls that have taken
  `tail_mutex` and `head_mutex`.
* `step`: a thread calls an operation, goes on, or wakes up for no reason.
-/

namespace CloudTiering

open Foundations

namespace Queue

/-! ## The positions of a thread -/

/-- The arguments of `queue_push_common`. -/
structure Push where
  bytes : Bytes
  shouldWait : Bool

/-- The arguments of `queue_pop_common`; `dataSize` is the value behind `data_size`. -/
structure Pop where
  dataSize : ℕ
  shouldWait : Bool

/-- The positions in `queue_push_common` after `tail_mutex` has been taken. -/
inductive PushAt
  /-- About to take `size_mutex` and to test for room; also where a waiting thread goes on. -/
  | test
  /-- There is no room: about to wait on `fullness_cond`. -/
  | wait
  /-- Asleep on `fullness_cond`. -/
  | sleep
  /-- There is no room: about to release `size_mutex` and `tail_mutex`, and to return `-1`. -/
  | refuse
  | refuseTail
  /-- There is room: about to release `size_mutex`. -/
  | room
  /-- Filling the slot at `ptr`, of which `i` bytes have been written. -/
  | copy (ptr i : ℕ)
  /-- About to take `size_mutex` and to count the element. -/
  | count
  /-- About to release `size_mutex` and `tail_mutex`, and to return `0`. -/
  | leave
  | leaveTail

/-- The positions in `queue_pop_common` after `head_mutex` has been taken. -/
inductive PopAt
  /-- About to take `size_mutex` and to test for an element; also where a waiting thread goes on. -/
  | test
  /-- There is no element: about to wait on `emptiness_cond`. -/
  | wait
  /-- Asleep on `emptiness_cond`. -/
  | sleep
  /-- There is no element: about to release `size_mutex` and `head_mutex`, and to return `-1`. -/
  | refuse
  | refuseHead
  /-- There is an element: about to release `size_mutex`. -/
  | element
  /-- Reading the size of the element in the slot at `ptr`. -/
  | readSize (ptr : ℕ) (acc : Bytes)
  /-- The buffer is too small: about to release `head_mutex` and to return `-1`. -/
  | small
  /-- Reading the `elemSz` bytes of the element in the slot at `ptr`. -/
  | copy (ptr elemSz : ℕ) (acc : Bytes)
  /-- About to take `size_mutex` and to count the element out. -/
  | count (bytes : Bytes)
  /-- About to release `size_mutex` and `head_mutex`, and to return `0`. -/
  | leave
  | leaveHead

/-- The position of a thread.  A call that has taken its mutex carries its number in the order in
which calls have taken it. -/
inductive Pc
  /-- Outside, with what the last call returned. -/
  | outside (ret : Option Int)
  /-- About to take `tail_mutex`. -/
  | pushStart (a : Push)
  | push (k : ℕ) (a : Push) (at' : PushAt)
  /-- About to take `head_mutex`. -/
  | popStart (a : Pop)
  | pop (k : ℕ) (a : Pop) (at' : PopAt)

/-- The thread holds `size_mutex`. -/
def Pc.holdsSize : Pc → Bool
  | .push _ _ .wait | .push _ _ .refuse | .push _ _ .room | .push _ _ .leave => true
  | .pop _ _ .wait | .pop _ _ .refuse | .pop _ _ .element | .pop _ _ .leave => true
  | _ => false

/-- The thread holds `tail_mutex`. -/
def Pc.holdsTail : Pc → Bool
  | .push _ _ _ => true
  | _ => false

/-- The thread holds `head_mutex`. -/
def Pc.holdsHead : Pc → Bool
  | .pop _ _ _ => true
  | _ => false

/-- A thread in `queue_push`. -/
def Pc.inPush : Pc → Prop
  | .pushStart _ | .push _ _ _ => True
  | _ => False

/-- A thread in `queue_pop`. -/
def Pc.inPop : Pc → Prop
  | .popStart _ | .pop _ _ _ => True
  | _ => False

/-- The thread is about to take the mutex of its operation. -/
def Pc.starts : Pc → Bool
  | .pushStart _ | .popStart _ => true
  | _ => false

/-- The thread is asleep in `pthread_cond_wait`. -/
def Pc.sleeps : Pc → Bool
  | .push _ _ .sleep | .pop _ _ .sleep => true
  | _ => false

/-- The position after `pthread_cond_broadcast(&queue->fullness_cond)`. -/
def Pc.wakePush : Pc → Pc
  | .push k a .sleep => .push k a .test
  | pc => pc

/-- The position after `pthread_cond_broadcast(&queue->emptiness_cond)`. -/
def Pc.wakePop : Pc → Pc
  | .pop k a .sleep => .pop k a .test
  | pc => pc

/-! ## The machine -/

/-- The queue, its mutexes with their owners, and the threads.  `tailLog` has one entry for each
time `tail_mutex` has been taken, in this order, with the element once the push has counted it;
`headLog` likewise for `head_mutex`, with the bytes that the pop yields. -/
structure Machine (T : Type) where
  q : QueueT
  tailMutex : Option T
  headMutex : Option T
  sizeMutex : Option T
  pc : T → Pc
  tailLog : List (Option Bytes)
  headLog : List (Option Bytes)

/-- The elements of the successful pushes, in the order in which these took `tail_mutex`. -/
def Machine.pushed {T : Type} (s : Machine T) : List Bytes := s.tailLog.reduceOption

/-- The elements of the successful pops, in the order in which these took `head_mutex`. -/
def Machine.popped {T : Type} (s : Machine T) : List Bytes := s.headLog.reduceOption

/-- The state after `queue_init`. -/
def initial (T : Type) (q : QueueT) : Machine T :=
  { q := q, tailMutex := none, headMutex := none, sizeMutex := none, pc := fun _ => .outside none,
    tailLog := [], headLog := [] }

/-- A call. -/
inductive Op
  | push (a : Push)
  | pop (a : Pop)

/-- Where a call is after its arguments have been checked.  The pointers are not `NULL`. -/
def Op.start (q : QueueT) : Op → Pc
  | .push a =>
      if a.bytes.length = 0 ∨ a.bytes.length > q.dataMaxSize then .outside (some (-1))
      else .pushStart a
  | .pop a => .popStart a

/-- The labels of the steps. -/
inductive Label (T : Type)
  | call (t : T) (op : Op)
  | go (t : T)
  | spurious (t : T)

variable {T : Type} [DecidableEq T]

/-- Thread `t` at another position. -/
def Machine.goto (s : Machine T) (t : T) (pc : Pc) : Machine T :=
  { s with pc := Function.update s.pc t pc }

omit [DecidableEq T] in
/-- The threads after `queue_push_common` has counted an element: a first one wakes those that wait
for an element. -/
def Machine.pushWoken (s : Machine T) : T → Pc :=
  if s.q.curSize = 0 then fun u => (s.pc u).wakePop else s.pc

omit [DecidableEq T] in
/-- The threads after `queue_pop_common` has counted an element out: if the queue was full, those
that wait for room wake up. -/
def Machine.popWoken (s : Machine T) : T → Pc :=
  if s.q.curSize = s.q.maxSize then fun u => (s.pc u).wakePush else s.pc

/-- The code behind a test of `queue->cur_size`. -/
def pushTested (q : QueueT) (a : Push) : PushAt :=
  if q.curSize = q.maxSize then if a.shouldWait then .wait else .refuse else .room

/-- A step of `queue_push_common` in thread `t`. -/
def pushStep (s : Machine T) (t : T) (k : ℕ) (a : Push) : PushAt → Option (Machine T)
  | .test =>
      if s.sizeMutex.isSome then none
      else some ({ s with sizeMutex := some t }.goto t (.push k a (pushTested s.q a)))
  | .wait => some ({ s with sizeMutex := none }.goto t (.push k a .sleep))
  | .sleep => none
  | .refuse => some ({ s with sizeMutex := none }.goto t (.push k a .refuseTail))
  | .refuseTail => some ({ s with tailMutex := none }.goto t (.outside (some (-1))))
  | .room =>
      let q := { s.q with tailOffset := normalizedTail s.q }
      some ({ s with sizeMutex := none, q := q }.goto t (.push k a (.copy (queueTail q) 0)))
  | .copy ptr i =>
      match (image a.bytes)[i]? with
      | some byte =>
          let q := { s.q with mem := poke sizeTMod s.q.mem (ptr + i) [byte] }
          some ({ s with q := q }.goto t (.push k a (.copy ptr (i + 1))))
      | none =>
          let q := { s.q with tailOffset := advancedTail s.q }
          some ({ s with q := q }.goto t (.push k a .count))
  | .count =>
      if s.sizeMutex.isSome then none
      else
        let q := { s.q with curSize := countedIn s.q }
        some ({ s with sizeMutex := some t, q := q, pc := s.pushWoken,
                       tailLog := s.tailLog.set k (some a.bytes) }.goto t (.push k a .leave))
  | .leave => some ({ s with sizeMutex := none }.goto t (.push k a .leaveTail))
  | .leaveTail => some ({ s with tailMutex := none }.goto t (.outside (some 0)))

/-- The code behind a test of `queue->cur_size`. -/
def popTested (q : QueueT) (a : Pop) : PopAt :=
  if q.curSize = 0 then if a.shouldWait then .wait else .refuse else .element

/-- A step of `queue_pop_common` in thread `t`. -/
def popStep (s : Machine T) (t : T) (k : ℕ) (a : Pop) : PopAt → Option (Machine T)
  | .test =>
      if s.sizeMutex.isSome then none
      else some ({ s with sizeMutex := some t }.goto t (.pop k a (popTested s.q a)))
  | .wait => some ({ s with sizeMutex := none }.goto t (.pop k a .sleep))
  | .sleep => none
  | .refuse => some ({ s with sizeMutex := none }.goto t (.pop k a .refuseHead))
  | .refuseHead => some ({ s with headMutex := none }.goto t (.outside (some (-1))))
  | .element =>
      some ({ s with sizeMutex := none }.goto t (.pop k a (.readSize (queueHead s.q) [])))
  | .readSize ptr acc =>
      if acc.length < sizeofSizeT then
        let acc := acc ++ peek sizeTMod s.q.mem (ptr + acc.length) 1
        some (s.goto t (.pop k a (.readSize ptr acc)))
      else if a.dataSize < decodeLE acc then some (s.goto t (.pop k a .small))
      else some (s.goto t (.pop k a (.copy ptr (decodeLE acc) [])))
  | .small => some ({ s with headMutex := none }.goto t (.outside (some (-1))))
  | .copy ptr elemSz acc =>
      if acc.length < elemSz then
        let acc := acc ++ peek sizeTMod s.q.mem (queueElemData ptr + acc.length) 1
        some (s.goto t (.pop k a (.copy ptr elemSz acc)))
      else
        let q := { s.q with headOffset := advancedHead s.q }
        some ({ s with q := q }.goto t (.pop k a (.count acc)))
  | .count bytes =>
      if s.sizeMutex.isSome then none
      else
        let q := { s.q with curSize := countedOut s.q }
        some ({ s with sizeMutex := some t, q := q, pc := s.popWoken,
                       headLog := s.headLog.set k (some bytes) }.goto t (.pop k a .leave))
  | .leave => some ({ s with sizeMutex := none }.goto t (.pop k a .leaveHead))
  | .leaveHead => some ({ s with headMutex := none }.goto t (.outside (some 0)))

/-- A step of the machine. -/
def step (s : Machine T) : Label T → Option (Machine T)
  | .call t op =>
      match s.pc t with
      | .outside _ => some (s.goto t (op.start s.q))
      | _ => none
  | .go t =>
      match s.pc t with
      | .outside _ => none
      | .pushStart a =>
          if s.tailMutex.isSome then none
          else some ({ s with tailMutex := some t, tailLog := s.tailLog ++ [none] }.goto t
            (.push s.tailLog.length a .test))
      | .push k a at' => pushStep s t k a at'
      | .popStart a =>
          if s.headMutex.isSome then none
          else some ({ s with headMutex := some t, headLog := s.headLog ++ [none] }.goto t
            (.pop s.headLog.length a .test))
      | .pop k a at' => popStep s t k a at'
  | .spurious t =>
      match s.pc t with
      | .push k a .sleep => some (s.goto t (.push k a .test))
      | .pop k a .sleep => some (s.goto t (.pop k a .test))
      | _ => none

/-! ## What a step does -/

variable {s s' : Machine T} {t : T}

theorem step_call {op : Op} (h : step s (.call t op) = some s') :
    ∃ ret, s.pc t = .outside ret ∧ s' = s.goto t (op.start s.q) := by
  unfold step at h
  dsimp only at h
  cases hpc : s.pc t with
  | outside ret =>
    rw [hpc] at h
    exact ⟨ret, rfl, (Option.some.inj h).symm⟩
  | pushStart | push | popStart | pop =>
    rw [hpc] at h
    exact absurd h (by simp)

theorem step_spurious (h : step s (.spurious t) = some s') :
    (∃ k a, s.pc t = .push k a .sleep ∧ s' = s.goto t (.push k a .test)) ∨
      ∃ k a, s.pc t = .pop k a .sleep ∧ s' = s.goto t (.pop k a .test) := by
  unfold step at h
  dsimp only at h
  split at h
  case h_1 k a hpc => exact .inl ⟨k, a, hpc, (Option.some.inj h).symm⟩
  case h_2 k a hpc => exact .inr ⟨k, a, hpc, (Option.some.inj h).symm⟩
  case h_3 => exact absurd h (by simp)

theorem step_go (h : step s (.go t) = some s') :
    (∃ a, s.pc t = .pushStart a ∧ s.tailMutex = none ∧
      s' = { s with tailMutex := some t, tailLog := s.tailLog ++ [none] }.goto t
        (.push s.tailLog.length a .test)) ∨
    (∃ k a at', s.pc t = .push k a at' ∧ pushStep s t k a at' = some s') ∨
    (∃ a, s.pc t = .popStart a ∧ s.headMutex = none ∧
      s' = { s with headMutex := some t, headLog := s.headLog ++ [none] }.goto t
        (.pop s.headLog.length a .test)) ∨
    ∃ k a at', s.pc t = .pop k a at' ∧ popStep s t k a at' = some s' := by
  unfold step at h
  dsimp only at h
  cases hpc : s.pc t with
  | outside ret =>
    rw [hpc] at h
    exact absurd h (by simp)
  | pushStart a =>
    rw [hpc] at h
    obtain ⟨hfree, heq⟩ := Option.ite_none_left_eq_some.mp h
    exact .inl ⟨a, rfl, by simpa using hfree, (Option.some.inj heq).symm⟩
  | push k a at' =>
    rw [hpc] at h
    exact .inr (.inl ⟨k, a, at', rfl, h⟩)
  | popStart a =>
    rw [hpc] at h
    obtain ⟨hfree, heq⟩ := Option.ite_none_left_eq_some.mp h
    exact .inr (.inr (.inl ⟨a, rfl, by simpa using hfree, (Option.some.inj heq).symm⟩))
  | pop k a at' =>
    rw [hpc] at h
    exact .inr (.inr (.inr ⟨k, a, at', rfl, h⟩))

end Queue

end CloudTiering
