import CloudTiering.Queue.Fifo
import Mathlib.Algebra.Order.BigOperators.Group.Finset

/-!
# No lost wake-up and no deadlock

Suppliers, which only call `queue_push`, and consumers, which only call `queue_pop`, work off the
calls that each of them has to make.  A thread sleeps while it holds the mutex of its end of the
queue, and is woken only when the count leaves `0` or `max_size`.

* `Crew`, `work`: the threads with the calls they still have to make.
* `Crew.Progress`: whoever sleeps does so for a reason, and an unfinished crew can go on.
* `Pc.Supplies`, `Pc.Consumes`, `Role`: what a thread that works at one end can be doing.
* `Pc.owesPush`, `Pc.owesPop`: the calls that have not been counted yet.
* `Moves`, `pushStep_moves`, `popStep_moves`: what a step does to the counts.
* `Working`, `work_working`: the invariant.
* `reach_progress`: the result.
-/

namespace CloudTiering

open Foundations

namespace Queue

/-! ## The crew -/

/-- A machine, and the calls that its threads still have to make. -/
structure Crew (T : Type) where
  machine : Machine T
  todo : T → List Op

/-- The moves: a thread makes its next call, goes on, or wakes up for no reason. -/
inductive Move (T : Type)
  | call (t : T)
  | go (t : T)
  | spurious (t : T)

/-- A step of the crew. -/
def work {T : Type} [DecidableEq T] (s : Crew T) : Move T → Option (Crew T)
  | .call t =>
      match s.todo t with
      | [] => none
      | op :: rest =>
          (step s.machine (.call t op)).map fun m => ⟨m, Function.update s.todo t rest⟩
  | .go t => (step s.machine (.go t)).map fun m => ⟨m, s.todo⟩
  | .spurious t => (step s.machine (.spurious t)).map fun m => ⟨m, s.todo⟩

/-- The end at which an operation works. -/
def Op.side : Op → End
  | .push _ => .tail
  | .pop _ => .head

/-- A call of `queue_push` or `queue_pop` with valid arguments, in a queue for elements of at most
`d` bytes: no element has more than `m` bytes, and no buffer has fewer. -/
def Op.Valid (d m : ℕ) : Op → Prop
  | .push a => a.shouldWait = true ∧ a.bytes.length ≠ 0 ∧ a.bytes.length ≤ d ∧ a.bytes.length ≤ m
  | .pop a => a.shouldWait = true ∧ m ≤ a.dataSize

/-- The calls are valid and work at one end. -/
def Serves (d m : ℕ) (e : End) (ops : List Op) : Prop := ∀ op ∈ ops, op.side = e ∧ op.Valid d m

/-- The number of calls that work at one end. -/
def calls (e : End) (ops : List Op) : ℕ := ops.countP fun op => op.side = e

/-- The thread is in the operation of an end. -/
def Pc.inside : End → Pc → Prop
  | .tail => Pc.inPush
  | .head => Pc.inPop

/-- A thread has calls to make or to finish. -/
def Crew.Unfinished {T : Type} (s : Crew T) (t : T) : Prop :=
  s.todo t ≠ [] ∨ ∃ e, (s.machine.pc t).inside e

/-- The crew can go on. -/
def Crew.CanGo {T : Type} [DecidableEq T] (s : Crew T) : Prop :=
  ∃ t s', work s (.call t) = some s' ∨ work s (.go t) = some s'

/-- Whoever sleeps on `emptiness_cond` does so with an empty queue, whoever sleeps on
`fullness_cond` with a full one, and as long as a call is unfinished some thread can go on. -/
structure Crew.Progress {T : Type} [DecidableEq T] (s : Crew T) : Prop where
  empty : ∀ t, (s.machine.pc t).sleepsAt .head = true → s.machine.q.curSize = 0
  full : ∀ t, (s.machine.pc t).sleepsAt .tail = true → s.machine.q.curSize = s.machine.q.maxSize
  canGo : (∃ t, s.Unfinished t) → s.CanGo

/-! ## The positions -/

/-- A pusher waits only while the queue is full, a popper only while it is empty. -/
def Asleep (q : QueueT) : Pc → Prop
  | .push _ _ .wait | .push _ _ .sleep => q.curSize = q.maxSize
  | .pop _ _ .wait | .pop _ _ .sleep => q.curSize = 0
  | _ => True

/-- What a supplier can be doing: its pushes are valid, and a push that waits is not refused. -/
def Pc.Supplies (m : ℕ) : Pc → Prop
  | .outside _ => True
  | .pushStart a => a.shouldWait = true ∧ a.bytes.length ≤ m
  | .push _ _ .refuse | .push _ _ .refuseTail => False
  | .push _ a _ => a.shouldWait = true ∧ a.bytes.length ≤ m
  | _ => False

/-- What a consumer can be doing: a pop that waits and has a large buffer is not refused. -/
def Pc.Consumes (m : ℕ) : Pc → Prop
  | .outside _ => True
  | .popStart a => a.shouldWait = true ∧ m ≤ a.dataSize
  | .pop _ _ .refuse | .pop _ _ .refuseHead | .pop _ _ .small => False
  | .pop _ a _ => a.shouldWait = true ∧ m ≤ a.dataSize
  | _ => False

/-- What a thread that works at one end can be doing. -/
def Pc.Serves (m : ℕ) : End → Pc → Prop
  | .tail => Pc.Supplies m
  | .head => Pc.Consumes m

/-- A push that has not been counted yet. -/
def Pc.owesPush : Pc → ℕ
  | .pushStart _ => 1
  | .push _ _ .leave | .push _ _ .leaveTail => 0
  | .push _ _ _ => 1
  | _ => 0

/-- A pop that has not been counted yet. -/
def Pc.owesPop : Pc → ℕ
  | .popStart _ => 1
  | .pop _ _ .leave | .pop _ _ .leaveHead => 0
  | .pop _ _ _ => 1
  | _ => 0

/-- A call at this end that has not been counted yet. -/
def Pc.owes : End → Pc → ℕ
  | .tail => Pc.owesPush
  | .head => Pc.owesPop

theorem wakeless_serves (m : ℕ) (e : End) : Wakeless (Pc.Serves m e) := by
  cases e <;> exact ⟨fun _ _ => rfl, fun _ _ => rfl⟩

theorem wakeless_owes (e : End) : Wakeless (Pc.owes e) := by
  cases e <;> exact ⟨fun _ _ => rfl, fun _ _ => rfl⟩

/-- Who is in an operation serves at its end. -/
theorem Pc.Serves.unique {m : ℕ} {e e' : End} {pc : Pc} (h : pc.Serves m e) (hin : pc.inside e') :
    e = e' := by
  cases e <;> cases e' <;> cases pc
  all_goals first
    | rfl
    | exact h.elim
    | exact hin.elim

/-- Who is in no operation of an end owes it no call. -/
theorem owes_of_not_inside {e : End} {pc : Pc} (h : ¬ pc.inside e) : pc.owes e = 0 := by
  cases e <;> cases pc
  all_goals first
    | rfl
    | exact absurd trivial h

/-- The thread works at one end only. -/
def Role (d m : ℕ) (pc : Pc) (ops : List Op) : Prop := ∃ e, pc.Serves m e ∧ Serves d m e ops

theorem Role.of_inside {d m : ℕ} {e : End} {pc : Pc} {ops : List Op} (h : Role d m pc ops)
    (hin : pc.inside e) : pc.Serves m e ∧ Serves d m e ops := by
  obtain ⟨e', hpc, hops⟩ := h
  obtain rfl := hpc.unique hin
  exact ⟨hpc, hops⟩

/-- Calls at one end are none at the other. -/
theorem Serves.calls_eq_zero {d m : ℕ} {e e' : End} {ops : List Op} (h : Serves d m e ops)
    (hne : e ≠ e') : calls e' ops = 0 :=
  List.countP_eq_zero.mpr fun op hop heq => hne ((h op hop).1.symm.trans (of_decide_eq_true heq))

/-- A thread that has nothing to do with an end owes it nothing. -/
theorem Role.owes_nothing {d m : ℕ} {e : End} {pc : Pc} {ops : List Op} (h : Role d m pc ops)
    (hpc : ¬ pc.inside e) (hidle : ops ≠ [] → ∃ e', pc.inside e') :
    calls e ops + pc.owes e = 0 := by
  rw [owes_of_not_inside hpc, Nat.add_zero]
  by_cases hnil : ops = []
  · rw [hnil]
    rfl
  · obtain ⟨e', hin⟩ := hidle hnil
    refine (h.of_inside hin).2.calls_eq_zero ?_
    rintro rfl
    exact hpc hin

/-- The elements that have been counted at an end. -/
def Machine.counted {T : Type} (s : Machine T) : End → List Bytes
  | .tail => s.pushed
  | .head => s.popped

/-! ## What a step counts -/

section

variable {T : Type} [DecidableEq T] {n d m b : ℕ} {s s' : Machine T} {els : List Bytes} {t u : T}
  {k : ℕ} {e : End} {p₀ p : Pc}

/-- Thread `t` moves from `p₀` to `p`.  What it counts it owes no longer, what it pushes has at most
`m` bytes, the others are woken at most, and whoever waits has a reason. -/
structure Moves (m : ℕ) (s : Machine T) (t : T) (p₀ p : Pc) (s' : Machine T) : Prop where
  old : s.pc t = p₀
  new : s'.pc t = p
  others : ∀ {α : Type} (f : Pc → α), Wakeless f → ∀ u, u ≠ t → f (s'.pc u) = f (s.pc u)
  balance : ∀ e, p.owes e + (s'.counted e).length = p₀.owes e + (s.counted e).length
  small : (∀ x ∈ s.pushed, x.length ≤ m) → ∀ x ∈ s'.pushed, x.length ≤ m
  asleep : (∀ u, Asleep s.q (s.pc u)) → ∀ u, Asleep s'.q (s'.pc u)

/-- Thread `t` moves from `p₀` to `p`, and nothing is counted. -/
structure Quiet (s : Machine T) (t : T) (p₀ p : Pc) (s' : Machine T) : Prop where
  old : s.pc t = p₀
  new : s'.pc = Function.update s.pc t p
  curSize : s'.q.curSize = s.q.curSize
  maxSize : s'.q.maxSize = s.q.maxSize
  pushed : s'.pushed = s.pushed
  popped : s'.popped = s.popped
  asleep : Asleep s.q p₀ → Asleep s.q p
  owesPush : p.owesPush = p₀.owesPush
  owesPop : p.owesPop = p₀.owesPop

/-- Thread `t` moves from `p₀` to `p` and counts the element `x` at an end. -/
structure Counts (m : ℕ) (e : End) (x : Bytes) (s : Machine T) (t : T) (p₀ p : Pc)
    (s' : Machine T) : Prop where
  old : s.pc t = p₀
  new : s'.pc = Function.update (s.woken e) t p
  counted : ∀ e', s'.counted e' = if e' = e then s.counted e' ++ [x] else s.counted e'
  owed : ∀ e', p₀.owes e' = if e' = e then p.owes e' + 1 else p.owes e'
  small : e = .tail → x.length ≤ m
  holds : p₀.holdsEnd e = true
  free : s.sizeMutex = none
  awake : ∀ q, Asleep q p

/-- Whether somebody waits for a reason depends on the two sizes alone. -/
theorem asleep_of_sizes {q q' : QueueT} {pc : Pc} (h : Asleep q pc) (hcur : q'.curSize = q.curSize)
    (hmax : q'.maxSize = q.maxSize) : Asleep q' pc := by
  rcases pc with _ | _ | ⟨_, _, _ | _ | _⟩ | _ | ⟨_, _, _ | _ | _⟩
  case push.wait | push.sleep => exact hcur.trans (h.trans hmax.symm)
  case pop.wait | pop.sleep => exact hcur.trans h
  all_goals trivial

theorem Quiet.moves (h : Quiet s t p₀ p s') : Moves m s t p₀ p s' := by
  refine ⟨h.old, ?_, fun f _ u hu => ?_, fun e => ?_, fun hsmall => ?_, fun hasleep u => ?_⟩
  · rw [h.new, Function.update_self]
  · rw [h.new, Function.update_of_ne hu]
  · cases e with
    | tail =>
      show p.owesPush + s'.pushed.length = p₀.owesPush + s.pushed.length
      rw [h.owesPush, h.pushed]
    | head =>
      show p.owesPop + s'.popped.length = p₀.owesPop + s.popped.length
      rw [h.owesPop, h.popped]
  · rw [h.pushed]
    exact hsmall
  · refine asleep_of_sizes ?_ h.curSize h.maxSize
    rw [h.new]
    by_cases hu : u = t
    · rw [hu, Function.update_self]
      exact h.asleep (h.old ▸ hasleep t)
    · rw [Function.update_of_ne hu]
      exact hasleep u

omit [DecidableEq T] in
/-- While `size_mutex` is free nobody holds it. -/
theorem holdsSize_of_free (hg : s.Guarded) (hfree : s.sizeMutex = none) (u : T) :
    (s.pc u).holdsSize = false := by
  have hsize := hg.size
  rw [hfree] at hsize
  exact hsize.eq_false u

omit [DecidableEq T] in
/-- After the first element has been counted nobody waits for one: those that slept have been woken,
and nobody else holds `size_mutex`. -/
theorem asleep_pushWoken (htail : (s.pc u).holdsTail = false) (hsize : (s.pc u).holdsSize = false)
    (h : Asleep s.q (s.pc u)) (q : QueueT) : Asleep q (s.pushWoken u) := by
  unfold Machine.pushWoken
  by_cases hempty : s.q.curSize = 0
  · rw [if_pos hempty]
    rcases hpc : s.pc u with _ | _ | _ | _ | ⟨_, _, _ | _ | _⟩
    case pop.wait =>
      rw [hpc] at hsize
      exact absurd hsize (by simp [Pc.holdsSize])
    case push =>
      rw [hpc] at htail
      exact absurd htail (by simp [Pc.holdsTail])
    all_goals trivial
  · rw [if_neg hempty]
    rcases hpc : s.pc u with _ | _ | _ | _ | ⟨_, _, _ | _ | _⟩
    case pop.wait | pop.sleep =>
      rw [hpc] at h
      exact absurd h hempty
    case push =>
      rw [hpc] at htail
      exact absurd htail (by simp [Pc.holdsTail])
    all_goals trivial

omit [DecidableEq T] in
/-- After an element has been taken from a full queue nobody waits for room. -/
theorem asleep_popWoken (hhead : (s.pc u).holdsHead = false) (hsize : (s.pc u).holdsSize = false)
    (h : Asleep s.q (s.pc u)) (q : QueueT) : Asleep q (s.popWoken u) := by
  unfold Machine.popWoken
  by_cases hfull : s.q.curSize = s.q.maxSize
  · rw [if_pos hfull]
    rcases hpc : s.pc u with _ | _ | ⟨_, _, _ | _ | _⟩ | _ | _
    case push.wait =>
      rw [hpc] at hsize
      exact absurd hsize (by simp [Pc.holdsSize])
    case pop =>
      rw [hpc] at hhead
      exact absurd hhead (by simp [Pc.holdsHead])
    all_goals trivial
  · rw [if_neg hfull]
    rcases hpc : s.pc u with _ | _ | ⟨_, _, _ | _ | _⟩ | _ | _
    case push.wait | push.sleep =>
      rw [hpc] at h
      exact absurd h hfull
    case pop =>
      rw [hpc] at hhead
      exact absurd hhead (by simp [Pc.holdsHead])
    all_goals trivial

/-- After an operation has counted nobody waits without a reason. -/
theorem Counts.moves {x : Bytes} (h : Counts m e x s t p₀ p s') (hg : s.Guarded) :
    Moves m s t p₀ p s' := by
  have hself : (s.pc t).holdsEnd e = true := h.old ▸ h.holds
  refine ⟨h.old, ?_, fun f hf u hu => ?_, fun e' => ?_, fun hsmall y hy => ?_, fun hasleep u => ?_⟩
  · rw [h.new, Function.update_self]
  · rw [h.new, Function.update_of_ne hu, hf.woken]
  · rw [h.counted, h.owed]
    by_cases he : e' = e
    · rw [if_pos he, if_pos he, List.length_append, List.length_singleton]
      omega
    · rw [if_neg he, if_neg he]
  · have hpushed : s'.pushed = if End.tail = e then s.pushed ++ [x] else s.pushed := h.counted .tail
    rw [hpushed] at hy
    split at hy
    · rcases List.mem_append.mp hy with hy | hy
      · exact hsmall y hy
      · rw [List.mem_singleton.mp hy]
        exact h.small (Eq.symm ‹_›)
    · exact hsmall y hy
  · rw [h.new]
    by_cases hu : u = t
    · rw [hu, Function.update_self]
      exact h.awake _
    · rw [Function.update_of_ne hu]
      have hother : (s.pc u).holdsEnd e = false :=
        Bool.eq_false_iff.mpr fun hold => hu ((hg.endOwned e).unique hold hself)
      have hsize := holdsSize_of_free hg h.free u
      cases e with
      | tail => exact asleep_pushWoken hother hsize (hasleep u) _
      | head => exact asleep_popWoken hother hsize (hasleep u) _

/-- What a test for room leads a waiting pusher to. -/
theorem quiet_pushTested {a : Push} (hpc : s.pc t = .push k a .test)
    (hsup : (Pc.push k a .test).Serves m .tail) (o : Option T) :
    Quiet s t (.push k a .test) (.push k a (pushTested s.q a))
        ({ s with sizeMutex := o }.goto t (.push k a (pushTested s.q a))) ∧
      (Pc.push k a (pushTested s.q a)).Serves m .tail := by
  have hwait : a.shouldWait = true := hsup.1
  unfold pushTested
  by_cases hfull : s.q.curSize = s.q.maxSize
  · rw [if_pos hfull, if_pos hwait]
    exact ⟨⟨hpc, rfl, rfl, rfl, rfl, rfl, fun _ => hfull, rfl, rfl⟩, hsup⟩
  · rw [if_neg hfull]
    exact ⟨⟨hpc, rfl, rfl, rfl, rfl, rfl, fun _ => trivial, rfl, rfl⟩, hsup⟩

/-- What a test for an element leads a waiting popper to. -/
theorem quiet_popTested {a : Pop} (hpc : s.pc t = .pop k a .test)
    (hcon : (Pc.pop k a .test).Serves m .head) (o : Option T) :
    Quiet s t (.pop k a .test) (.pop k a (popTested s.q a))
        ({ s with sizeMutex := o }.goto t (.pop k a (popTested s.q a))) ∧
      (Pc.pop k a (popTested s.q a)).Serves m .head := by
  have hwait : a.shouldWait = true := hcon.1
  unfold popTested
  by_cases hempty : s.q.curSize = 0
  · rw [if_pos hempty, if_pos hwait]
    exact ⟨⟨hpc, rfl, rfl, rfl, rfl, rfl, fun _ => hempty, rfl, rfl⟩, hcon⟩
  · rw [if_neg hempty]
    exact ⟨⟨hpc, rfl, rfl, rfl, rfl, rfl, fun _ => trivial, rfl, rfl⟩, hcon⟩

/-- A step of a supplier in `queue_push_common`. -/
theorem pushStep_moves {a : Push} {at' : PushAt} (h : Data n d b s els) (hg : s.Guarded)
    (hpc : s.pc t = .push k a at') (hsup : (Pc.push k a at').Serves m .tail)
    (hs : pushStep s t k a at' = some s') :
    ∃ p, Moves m s t (.push k a at') p s' ∧ p.Serves m .tail := by
  cases at' with
  | test =>
    obtain rfl := Option.some.inj (Option.ite_none_left_eq_some.mp hs).2
    obtain ⟨hquiet, hserves⟩ := quiet_pushTested hpc hsup (some t)
    exact ⟨_, hquiet.moves, hserves⟩
  | sleep => exact absurd hs (by simp [pushStep])
  | refuse | refuseTail => exact hsup.elim
  | wait =>
    obtain rfl := Option.some.inj hs
    exact ⟨.push k a .sleep,
      Quiet.moves ⟨hpc, rfl, rfl, rfl, rfl, rfl, fun hfull => hfull, rfl, rfl⟩, hsup⟩
  | room | leave =>
    obtain rfl := Option.some.inj hs
    exact ⟨_, Quiet.moves ⟨hpc, rfl, rfl, rfl, rfl, rfl, fun _ => trivial, rfl, rfl⟩, hsup⟩
  | leaveTail =>
    obtain rfl := Option.some.inj hs
    exact ⟨_, Quiet.moves ⟨hpc, rfl, rfl, rfl, rfl, rfl, fun _ => trivial, rfl, rfl⟩, trivial⟩
  | copy ptr i =>
    unfold pushStep at hs
    dsimp only at hs
    cases hbyte : (image a.bytes)[i]? with
    | some byte =>
      rw [hbyte] at hs
      obtain rfl := Option.some.inj hs
      exact ⟨.push k a (.copy ptr (i + 1)),
        Quiet.moves ⟨hpc, rfl, rfl, rfl, rfl, rfl, fun _ => trivial, rfl, rfl⟩, hsup⟩
    | none =>
      rw [hbyte] at hs
      obtain rfl := Option.some.inj hs
      exact ⟨.push k a .count,
        Quiet.moves ⟨hpc, rfl, rfl, rfl, rfl, rfl, fun _ => trivial, rfl, rfl⟩, hsup⟩
  | count =>
    obtain ⟨hfree, heq⟩ := Option.ite_none_left_eq_some.mp hs
    obtain rfl := Option.some.inj heq
    have hok := h.threads t
    rw [hpc] at hok
    obtain ⟨-, hpend, -⟩ := hok
    have hcounts : Counts m .tail a.bytes s t (.push k a .count) (.push k a .leave)
        ({ s with sizeMutex := some t, q := { s.q with curSize := countedIn s.q },
                  pc := s.pushWoken, tailLog := s.tailLog.set k (some a.bytes) }.goto t
          (.push k a .leave)) := by
      refine ⟨hpc, rfl, fun e => ?_, fun e => ?_, fun _ => hsup.2, rfl, eq_none_of_isSome hfree,
        fun _ => trivial⟩
      · cases e with
        | tail => exact hpend.reduceOption_set a.bytes
        | head => rfl
      · cases e <;> rfl
    exact ⟨_, hcounts.moves hg, hsup⟩

omit [DecidableEq T] in
/-- The size that a popper has read is one of an element. -/
theorem Data.size_read {a : Pop} {ptr : ℕ} {acc : Bytes} (h : Data n d b s els)
    (hsmall : ∀ x ∈ s.pushed, x.length ≤ m) (hpc : s.pc t = .pop k a (.readSize ptr acc))
    (hend : ¬ acc.length < sizeofSizeT) : decodeLE acc ≤ m := by
  have hok := h.threads t
  rw [hpc] at hok
  obtain ⟨-, -, -, x, hx, hle, hacc⟩ := hok
  obtain ⟨rest, rfl⟩ := List.head?_eq_some_iff.mp hx
  have hpushed : x ∈ s.pushed := by
    rw [h.history]
    exact List.mem_append_right _ List.mem_cons_self
  rw [hacc, Nat.le_antisymm hle (Nat.le_of_not_lt hend),
    decodeLE_take_image (h.ring.size_lt h.ring.pos (h.ring.size_le x List.mem_cons_self))]
  exact hsmall x hpushed

/-- A step of a consumer in `queue_pop_common`. -/
theorem popStep_moves {a : Pop} {at' : PopAt} (h : Data n d b s els) (hg : s.Guarded)
    (hsmall : ∀ x ∈ s.pushed, x.length ≤ m) (hpc : s.pc t = .pop k a at')
    (hcon : (Pc.pop k a at').Serves m .head) (hs : popStep s t k a at' = some s') :
    ∃ p, Moves m s t (.pop k a at') p s' ∧ p.Serves m .head := by
  cases at' with
  | test =>
    obtain rfl := Option.some.inj (Option.ite_none_left_eq_some.mp hs).2
    obtain ⟨hquiet, hserves⟩ := quiet_popTested hpc hcon (some t)
    exact ⟨_, hquiet.moves, hserves⟩
  | sleep => exact absurd hs (by simp [popStep])
  | refuse | refuseHead | small => exact hcon.elim
  | wait =>
    obtain rfl := Option.some.inj hs
    exact ⟨.pop k a .sleep,
      Quiet.moves ⟨hpc, rfl, rfl, rfl, rfl, rfl, fun hempty => hempty, rfl, rfl⟩, hcon⟩
  | element | leave =>
    obtain rfl := Option.some.inj hs
    exact ⟨_, Quiet.moves ⟨hpc, rfl, rfl, rfl, rfl, rfl, fun _ => trivial, rfl, rfl⟩, hcon⟩
  | leaveHead =>
    obtain rfl := Option.some.inj hs
    exact ⟨_, Quiet.moves ⟨hpc, rfl, rfl, rfl, rfl, rfl, fun _ => trivial, rfl, rfl⟩, trivial⟩
  | readSize ptr acc =>
    unfold popStep at hs
    dsimp only at hs
    split at hs
    case isTrue =>
      obtain rfl := Option.some.inj hs
      exact ⟨.pop k a (.readSize ptr _),
        Quiet.moves ⟨hpc, rfl, rfl, rfl, rfl, rfl, fun _ => trivial, rfl, rfl⟩, hcon⟩
    case isFalse hend =>
      -- The buffer of a consumer is large enough for every element.
      have hlarge : ¬ a.dataSize < decodeLE acc :=
        Nat.not_lt.mpr ((h.size_read hsmall hpc hend).trans hcon.2)
      rw [if_neg hlarge] at hs
      obtain rfl := Option.some.inj hs
      exact ⟨.pop k a (.copy ptr _ []),
        Quiet.moves ⟨hpc, rfl, rfl, rfl, rfl, rfl, fun _ => trivial, rfl, rfl⟩, hcon⟩
  | copy ptr elemSz acc =>
    unfold popStep at hs
    dsimp only at hs
    split at hs
    case isTrue =>
      obtain rfl := Option.some.inj hs
      exact ⟨.pop k a (.copy ptr elemSz _),
        Quiet.moves ⟨hpc, rfl, rfl, rfl, rfl, rfl, fun _ => trivial, rfl, rfl⟩, hcon⟩
    case isFalse =>
      obtain rfl := Option.some.inj hs
      exact ⟨.pop k a (.count acc),
        Quiet.moves ⟨hpc, rfl, rfl, rfl, rfl, rfl, fun _ => trivial, rfl, rfl⟩, hcon⟩
  | count bytes =>
    obtain ⟨hfree, heq⟩ := Option.ite_none_left_eq_some.mp hs
    obtain rfl := Option.some.inj heq
    have hok := h.threads t
    rw [hpc] at hok
    have hcounts : Counts m .head bytes s t (.pop k a (.count bytes)) (.pop k a .leave)
        ({ s with sizeMutex := some t, q := { s.q with curSize := countedOut s.q },
                  pc := s.popWoken, headLog := s.headLog.set k (some bytes) }.goto t
          (.pop k a .leave)) := by
      refine ⟨hpc, rfl, fun e => ?_, fun e => ?_, fun he => absurd he (by decide), rfl,
        eq_none_of_isSome hfree, fun _ => trivial⟩
      · cases e with
        | tail => rfl
        | head => exact hok.1.reduceOption_set bytes
      · cases e <;> rfl
    exact ⟨_, hcounts.moves hg, hcon⟩

/-- Taking `tail_mutex` counts nothing. -/
theorem quiet_lockTail {a : Push} (hpc : s.pc t = .pushStart a) :
    Quiet s t (.pushStart a) (.push s.tailLog.length a .test)
      ({ s with tailMutex := some t, tailLog := s.tailLog ++ [none] }.goto t
        (.push s.tailLog.length a .test)) :=
  ⟨hpc, rfl, rfl, rfl, reduceOption_append_none, rfl, fun _ => trivial, rfl, rfl⟩

/-- Taking `head_mutex` counts nothing. -/
theorem quiet_lockHead {a : Pop} (hpc : s.pc t = .popStart a) :
    Quiet s t (.popStart a) (.pop s.headLog.length a .test)
      ({ s with headMutex := some t, headLog := s.headLog ++ [none] }.goto t
        (.pop s.headLog.length a .test)) :=
  ⟨hpc, rfl, rfl, rfl, rfl, reduceOption_append_none, fun _ => trivial, rfl, rfl⟩

/-- Waking up for no reason counts nothing. -/
theorem quiet_spurious (h : step s (.spurious t) = some s') :
    ∃ e p, Quiet s t (s.pc t) p s' ∧ (s.pc t).inside e ∧
      ∀ m, (s.pc t).Serves m e → p.Serves m e := by
  obtain ⟨k, a, hpc, rfl⟩ | ⟨k, a, hpc, rfl⟩ := step_spurious h
  · rw [hpc]
    exact ⟨.tail, .push k a .test, ⟨hpc, rfl, rfl, rfl, rfl, rfl, fun _ => trivial, rfl, rfl⟩,
      trivial, fun _ => id⟩
  · rw [hpc]
    exact ⟨.head, .pop k a .test, ⟨hpc, rfl, rfl, rfl, rfl, rfl, fun _ => trivial, rfl, rfl⟩,
      trivial, fun _ => id⟩

omit [DecidableEq T] in
/-- A call with valid arguments gets past the checks. -/
theorem start_serves {op : Op} (h : Data n d b s els) (hop : op.side = e ∧ op.Valid d m) :
    (op.start s.q).Serves m e ∧ (∀ e', (op.start s.q).owes e' = calls e' [op]) ∧
      Asleep s.q (op.start s.q) := by
  obtain ⟨rfl, hvalid⟩ := hop
  cases op with
  | push a =>
    obtain ⟨hwait, hsome, hfit, hsmall⟩ := hvalid
    have hstart : Op.start s.q (.push a) = .pushStart a := by
      refine if_neg ?_
      rw [h.ring.layout.dataMaxSize]
      rintro (hzero | hlarge)
      · exact hsome hzero
      · exact Nat.not_lt.mpr hfit hlarge
    rw [hstart]
    exact ⟨⟨hwait, hsmall⟩, fun e' => by cases e' <;> rfl, trivial⟩
  | pop a => exact ⟨hvalid, fun e' => by cases e' <;> rfl, trivial⟩

end

/-! ## The invariant -/

/-- What holds while the crew works: `N` pushes and `N` pops are called for in all, and each of them
is still to be made, is under way, or has been counted. -/
structure Working {T : Type} [Fintype T] (n d m b N : ℕ) (s : Crew T) : Prop where
  guarded : s.machine.Guarded
  data : ∃ els, Data n d b s.machine els
  small : ∀ x ∈ s.machine.pushed, x.length ≤ m
  asleep : ∀ t, Asleep s.machine.q (s.machine.pc t)
  role : ∀ t, Role d m (s.machine.pc t) (s.todo t)
  left : ∀ e, ∑ t, (calls e (s.todo t) + (s.machine.pc t).owes e) +
    (s.machine.counted e).length = N

section

variable {T : Type} [Fintype T] [DecidableEq T] {n d m b N : ℕ} {s s' : Crew T} {s₁ : Machine T}
  {t : T} {p₀ p : Pc}

/-- A step that makes no call. -/
theorem Working.moves (h : Working n d m b N s) (hm : Moves m s.machine t p₀ p s₁)
    (hg : s₁.Guarded) (hd : ∃ els, Data n d b s₁ els) (hr : Role d m p (s.todo t)) :
    Working n d m b N ⟨s₁, s.todo⟩ := by
  refine ⟨hg, hd, hm.small h.small, hm.asleep h.asleep, fun u => ?_, fun e => ?_⟩
  · show Role d m (s₁.pc u) (s.todo u)
    by_cases hu : u = t
    · rw [hu, hm.new]
      exact hr
    · obtain ⟨e, hserves, hops⟩ := h.role u
      exact ⟨e, (hm.others _ (wakeless_serves m e) u hu).mpr hserves, hops⟩
  · have hothers : ∀ u, u ≠ t → calls e (s.todo u) + (s₁.pc u).owes e =
        calls e (s.todo u) + (s.machine.pc u).owes e := fun u hu =>
      congrArg _ (hm.others _ (wakeless_owes e) u hu)
    have hsum := sum_step hothers
    have hbalance := hm.balance e
    have hleft := h.left e
    rw [hm.new, hm.old] at hsum
    show ∑ u, (calls e (s.todo u) + (s₁.pc u).owes e) + (s₁.counted e).length = N
    omega

theorem calls_cons (e : End) (op : Op) (ops : List Op) :
    calls e (op :: ops) = calls e [op] + calls e ops := by
  rw [← List.singleton_append, calls, List.countP_append, calls, calls]

/-- A thread makes its next call. -/
theorem Working.call {op : Op} {ops : List Op} {ret : Option Int} (h : Working n d m b N s)
    (hpc : s.machine.pc t = .outside ret) (htodo : s.todo t = op :: ops)
    (hs : step s.machine (.call t op) = some (s.machine.goto t (op.start s.machine.q))) :
    Working n d m b N
      ⟨s.machine.goto t (op.start s.machine.q), Function.update s.todo t ops⟩ := by
  obtain ⟨els, hdata⟩ := h.data
  obtain ⟨e₀, -, hops⟩ := h.role t
  rw [htodo] at hops
  obtain ⟨hserves, howes, hasleep⟩ := start_serves hdata (hops op List.mem_cons_self)
  refine ⟨step_guarded h.guarded hs, step_data hdata h.guarded hs, h.small, fun u => ?_,
    fun u => ?_, fun e => ?_⟩
  · exact (Function.forall_update_iff _ fun _ pc => Asleep s.machine.q pc).mpr
      ⟨hasleep, fun u _ => h.asleep u⟩ u
  · show Role d m (Function.update s.machine.pc t _ u) (Function.update s.todo t ops u)
    by_cases hu : u = t
    · rw [hu, Function.update_self, Function.update_self]
      exact ⟨e₀, hserves, fun o ho => hops o (List.mem_cons_of_mem op ho)⟩
    · rw [Function.update_of_ne hu, Function.update_of_ne hu]
      exact h.role u
  · have hsum := sum_step (t := t)
      (f := fun u => calls e (s.todo u) + (s.machine.pc u).owes e)
      (g := fun u => calls e (Function.update s.todo t ops u) +
        (Function.update s.machine.pc t (op.start s.machine.q) u).owes e)
      fun u hu => by simp only [Function.update_of_ne hu]
    simp only [Function.update_self, htodo, hpc, howes, calls_cons e op ops] at hsum
    have hleft := h.left e
    have hzero : (Pc.outside ret).owes e = 0 := by cases e <;> rfl
    show ∑ u, (calls e (Function.update s.todo t ops u) +
      (Function.update s.machine.pc t (op.start s.machine.q) u).owes e) +
        (s.machine.counted e).length = N
    omega

/-- **Every step of the crew keeps the invariant.** -/
theorem work_working {mv : Move T} (h : Working n d m b N s) (hs : work s mv = some s') :
    Working n d m b N s' := by
  obtain ⟨els, hdata⟩ := h.data
  cases mv with
  | call t =>
    unfold work at hs
    dsimp only at hs
    cases htodo : s.todo t with
    | nil =>
      rw [htodo] at hs
      exact absurd hs (by simp)
    | cons op ops =>
      rw [htodo] at hs
      obtain ⟨s₁, hs₁, rfl⟩ := Option.map_eq_some_iff.mp hs
      obtain ⟨ret, hpc, rfl⟩ := step_call hs₁
      exact h.call hpc htodo hs₁
  | go t =>
    obtain ⟨s₁, hs₁, rfl⟩ := Option.map_eq_some_iff.mp hs
    have hg := step_guarded h.guarded hs₁
    have hd := step_data hdata h.guarded hs₁
    have hrole := h.role t
    obtain ⟨a, hpc, -, rfl⟩ | ⟨k, a, at', hpc, hstep⟩ | ⟨a, hpc, -, rfl⟩ |
      ⟨k, a, at', hpc, hstep⟩ := step_go hs₁
    · rw [hpc] at hrole
      obtain ⟨hserves, hops⟩ := hrole.of_inside (e := .tail) trivial
      exact h.moves (quiet_lockTail hpc).moves hg hd ⟨.tail, hserves, hops⟩
    · rw [hpc] at hrole
      obtain ⟨hserves, hops⟩ := hrole.of_inside (e := .tail) trivial
      obtain ⟨p, hmoves, hp⟩ := pushStep_moves hdata h.guarded hpc hserves hstep
      exact h.moves hmoves hg hd ⟨.tail, hp, hops⟩
    · rw [hpc] at hrole
      obtain ⟨hserves, hops⟩ := hrole.of_inside (e := .head) trivial
      exact h.moves (quiet_lockHead hpc).moves hg hd ⟨.head, hserves, hops⟩
    · rw [hpc] at hrole
      obtain ⟨hserves, hops⟩ := hrole.of_inside (e := .head) trivial
      obtain ⟨p, hmoves, hp⟩ := popStep_moves hdata h.guarded h.small hpc hserves hstep
      exact h.moves hmoves hg hd ⟨.head, hp, hops⟩
  | spurious t =>
    obtain ⟨s₁, hs₁, rfl⟩ := Option.map_eq_some_iff.mp hs
    obtain ⟨e, p, hquiet, hin, hkeeps⟩ := quiet_spurious hs₁
    obtain ⟨hserves, hops⟩ := (h.role t).of_inside hin
    exact h.moves hquiet.moves (step_guarded h.guarded hs₁) (step_data hdata h.guarded hs₁)
      ⟨e, hkeeps m hserves, hops⟩

/-! ## Somebody can go on -/

omit [Fintype T] in
/-- A thread that holds `size_mutex` goes on. -/
theorem step_of_holdsSize {s : Machine T} (h : (s.pc t).holdsSize = true) :
    ∃ s', step s (.go t) = some s' := by
  unfold step
  dsimp only
  rcases hpc : s.pc t with _ | _ | ⟨k, a, _ | _ | _⟩ | _ | ⟨k, a, _ | _ | _⟩
  case push.wait | push.refuse | push.room | push.leave => exact ⟨_, rfl⟩
  case pop.wait | pop.refuse | pop.element | pop.leave => exact ⟨_, rfl⟩
  all_goals
    rw [hpc] at h
    exact absurd h Bool.false_ne_true

omit [Fintype T] in
/-- While `size_mutex` is free, a thread in `queue_push_common` can go on unless it sleeps. -/
theorem pushStep_enabled {s : Machine T} {k : ℕ} {a : Push} {at' : PushAt}
    (hfree : s.sizeMutex = none) (hstuck : pushStep s t k a at' = none) :
    (Pc.push k a at').sleepsAt .tail = true := by
  cases at' with
  | sleep => rfl
  | test | count => exact absurd hstuck (by simp [pushStep, hfree])
  | copy ptr i =>
    unfold pushStep at hstuck
    dsimp only at hstuck
    split at hstuck <;> exact absurd hstuck (Option.some_ne_none _)
  | wait | refuse | refuseTail | room | leave | leaveTail =>
    exact absurd hstuck (Option.some_ne_none _)

omit [Fintype T] in
theorem popStep_enabled {s : Machine T} {k : ℕ} {a : Pop} {at' : PopAt}
    (hfree : s.sizeMutex = none) (hstuck : popStep s t k a at' = none) :
    (Pc.pop k a at').sleepsAt .head = true := by
  cases at' with
  | sleep => rfl
  | test | count => exact absurd hstuck (by simp [popStep, hfree])
  | readSize ptr acc =>
    unfold popStep at hstuck
    dsimp only at hstuck
    split at hstuck
    · exact absurd hstuck (Option.some_ne_none _)
    · split at hstuck <;> exact absurd hstuck (Option.some_ne_none _)
  | copy ptr elemSz acc =>
    unfold popStep at hstuck
    dsimp only at hstuck
    split at hstuck <;> exact absurd hstuck (Option.some_ne_none _)
  | wait | refuse | refuseHead | element | small | leave | leaveHead =>
    exact absurd hstuck (Option.some_ne_none _)

omit [Fintype T] in
/-- If nobody can go on, nobody holds `size_mutex`. -/
theorem sizeMutex_free {s : Machine T} (hg : s.Guarded) (hstuck : ∀ u, step s (.go u) = none) :
    s.sizeMutex = none := by
  cases hsize : s.sizeMutex with
  | none => rfl
  | some u =>
    obtain ⟨s', hs'⟩ := step_of_holdsSize ((hg.size u).mp hsize)
    rw [hstuck u] at hs'
    exact absurd hs'.symm (Option.some_ne_none s')

omit [Fintype T] in
/-- If nobody can go on and somebody is in an operation, the holder of the mutex of its end
sleeps. -/
theorem exists_sleepsAt {s : Machine T} {e : End} (hg : s.Guarded)
    (hstuck : ∀ u, step s (.go u) = none) (hin : (s.pc t).inside e) :
    ∃ u, (s.pc u).sleepsAt e = true := by
  have hfree := sizeMutex_free hg hstuck
  have hholder : ∀ u, (s.pc u).holdsEnd e = true → (s.pc u).sleepsAt e = true := by
    intro u hold
    have hu := hstuck u
    unfold step at hu
    dsimp only at hu
    rcases hpc : s.pc u with _ | _ | ⟨k, a, at'⟩ | _ | ⟨k, a, at'⟩
    all_goals
      rw [hpc] at hu hold
      cases e
    case push.tail => exact pushStep_enabled hfree hu
    case pop.head => exact popStep_enabled hfree hu
    all_goals exact absurd hold Bool.false_ne_true
  -- it holds the mutex, or it cannot take it because somebody else does
  have howner : (s.pc t).holdsEnd e = true ∨ s.endMutex e ≠ none := by
    have ht := hstuck t
    unfold step at ht
    dsimp only at ht
    rcases hpc : s.pc t with _ | a | ⟨k, a, at'⟩ | a | ⟨k, a, at'⟩
    all_goals
      rw [hpc] at ht hin
      cases e
    case push.tail | pop.head => exact .inl rfl
    case pushStart.tail =>
      refine .inr fun hnone => ?_
      rw [show s.tailMutex = none from hnone] at ht
      exact absurd ht (Option.some_ne_none _)
    case popStart.head =>
      refine .inr fun hnone => ?_
      rw [show s.headMutex = none from hnone] at ht
      exact absurd ht (Option.some_ne_none _)
    all_goals exact hin.elim
  rcases howner with hself | hother
  · exact ⟨t, hholder t hself⟩
  · obtain ⟨u, hu⟩ := Option.ne_none_iff_exists'.mp hother
    exact ⟨u, hholder u ((hg.endOwned e u).mp hu)⟩

omit [DecidableEq T] in
/-- Whoever sleeps at the tail waits for room. -/
theorem Working.full (h : Working n d m b N s) (ht : (s.machine.pc t).sleepsAt .tail = true) :
    s.machine.q.curSize = s.machine.q.maxSize := by
  have hsleep := h.asleep t
  rcases hpc : s.machine.pc t with _ | _ | ⟨_, _, _ | _ | _⟩ | _ | _
  case push.sleep =>
    rw [hpc] at hsleep
    exact hsleep
  all_goals
    rw [hpc] at ht
    exact absurd ht Bool.false_ne_true

omit [DecidableEq T] in
/-- Whoever sleeps at the head waits for an element. -/
theorem Working.empty (h : Working n d m b N s) (ht : (s.machine.pc t).sleepsAt .head = true) :
    s.machine.q.curSize = 0 := by
  have hsleep := h.asleep t
  rcases hpc : s.machine.pc t with _ | _ | _ | _ | ⟨_, _, _ | _ | _⟩
  case pop.sleep =>
    rw [hpc] at hsleep
    exact hsleep
  all_goals
    rw [hpc] at ht
    exact absurd ht Bool.false_ne_true

omit [Fintype T] in
/-- If the crew cannot go on, nobody in the machine can, and who is outside has no calls to make. -/
theorem stuck_machine (hstuck : ¬ s.CanGo) :
    (∀ u, step s.machine (.go u) = none) ∧
      ∀ u, s.todo u ≠ [] → ∃ e, (s.machine.pc u).inside e := by
  refine ⟨fun u => ?_, fun u htodo => ?_⟩
  · cases hm : step s.machine (.go u) with
    | none => rfl
    | some s₁ =>
      refine absurd ⟨u, ⟨s₁, s.todo⟩, .inr ?_⟩ hstuck
      show (step s.machine (.go u)).map _ = _
      rw [hm]
      rfl
  · obtain ⟨op, ops, hcons⟩ := List.exists_cons_of_ne_nil htodo
    rcases hpc : s.machine.pc u with ret | _ | _ | _ | _
    case outside =>
      refine absurd ⟨u, ⟨s.machine.goto u (op.start s.machine.q), Function.update s.todo u ops⟩,
        .inl ?_⟩ hstuck
      unfold work step
      dsimp only
      rw [hcons, hpc]
      rfl
    case pushStart | push => exact ⟨.tail, trivial⟩
    case popStart | pop => exact ⟨.head, trivial⟩

omit [DecidableEq T] in
/-- The share of a sleeper in the calls at its end that are left. -/
theorem Working.counted_lt {e : End} (h : Working n d m b N s)
    (ht : (s.machine.pc t).sleepsAt e = true) : (s.machine.counted e).length < N := by
  have hone : (s.machine.pc t).owes e = 1 := by
    cases e <;> rcases hpc : s.machine.pc t with _ | _ | ⟨_, _, _ | _ | _⟩ | _ | ⟨_, _, _ | _ | _⟩
    case tail.push.sleep | head.pop.sleep => rfl
    all_goals
      rw [hpc] at ht
      exact absurd ht Bool.false_ne_true
  have hle : calls e (s.todo t) + (s.machine.pc t).owes e ≤
      ∑ u, (calls e (s.todo u) + (s.machine.pc u).owes e) :=
    Finset.single_le_sum (f := fun u => calls e (s.todo u) + (s.machine.pc u).owes e)
      (fun u _ => Nat.zero_le _) (Finset.mem_univ t)
  have hleft := h.left e
  omega

/-- If the crew is stuck and nobody is in the operation of an end, all calls at that end have been
counted. -/
theorem Working.counted_eq {e : End} (h : Working n d m b N s) (hstuck : ¬ s.CanGo)
    (hnone : ∀ u, ¬ (s.machine.pc u).inside e) : (s.machine.counted e).length = N := by
  have hzero : ∑ u, (calls e (s.todo u) + (s.machine.pc u).owes e) = 0 :=
    Finset.sum_eq_zero fun u _ => (h.role u).owes_nothing (hnone u) ((stuck_machine hstuck).2 u)
  have hleft := h.left e
  omega

/-- **The crew can go on while it is unfinished.** -/
theorem Working.canGo (h : Working n d m b N s) (hn : 1 ≤ n) (ht : s.Unfinished t) : s.CanGo := by
  by_contra hstuck
  obtain ⟨hmachine, hidle⟩ := stuck_machine hstuck
  obtain ⟨els, hd⟩ := h.data
  have hcur := hd.ring.curSize
  have hmax := hd.ring.layout.maxSize
  have hlen := hd.length_pushed
  obtain ⟨e, hin⟩ : ∃ e, (s.machine.pc t).inside e := ht.elim (hidle t) id
  obtain ⟨u, hu⟩ := exists_sleepsAt h.guarded hmachine hin
  have hlt := h.counted_lt hu
  cases e with
  | tail =>
    -- A pusher sleeps, so the queue is full and nobody pops: every pop has been counted.
    have hfull := h.full hu
    have hpops : s.machine.popped.length = N := h.counted_eq (e := .head) hstuck fun v hv => by
      obtain ⟨w, hw⟩ := exists_sleepsAt h.guarded hmachine hv
      have hempty := h.empty hw
      omega
    have hpushes : s.machine.pushed.length < N := hlt
    omega
  | head =>
    -- A popper sleeps, so the queue is empty and nobody pushes: every push has been counted.
    have hempty := h.empty hu
    have hpushes : s.machine.pushed.length = N := h.counted_eq (e := .tail) hstuck fun v hv => by
      obtain ⟨w, hw⟩ := exists_sleepsAt h.guarded hmachine hv
      have hfull := h.full hw
      omega
    have hpops : s.machine.popped.length < N := hlt
    omega

omit [DecidableEq T] in
/-- The invariant holds before the first call. -/
theorem working_initial {pageSize : ℕ} {mem : ℕ → UInt8} {todo : T → List Op}
    (hfits : n * (sizeofSizeT + d) < sizeTMod) (hrole : ∀ t, ∃ e, Serves d m e (todo t))
    (hequal : ∑ t, calls .tail (todo t) = ∑ t, calls .head (todo t)) :
    Working n d m (sizeofQueueT + sizeofQueueT % pageSize) (∑ t, calls .head (todo t))
      ⟨initial T (queueInit pageSize n d mem), todo⟩ := by
  refine ⟨guarded_initial _, ⟨[], data_initial hfits⟩, fun x hx => absurd hx List.not_mem_nil,
    fun t => trivial, fun t => ?_, fun e => ?_⟩
  · obtain ⟨e, hops⟩ := hrole t
    exact ⟨e, by cases e <;> exact trivial, hops⟩
  · cases e with
    | tail => exact hequal
    | head => rfl

/-- **No lost wake-up and no deadlock**, where the total size of the queue does not need reduction,
in every state that suppliers and consumers with as many pushes as pops reach. -/
theorem reach_progress {pageSize : ℕ} {mem : ℕ → UInt8} {todo : T → List Op} (hn : 1 ≤ n)
    (hsize : unreduced pageSize n d < sizeTMod) (hrole : ∀ t, ∃ e, Serves d m e (todo t))
    (hequal : ∑ t, calls .tail (todo t) = ∑ t, calls .head (todo t))
    (h : Reach work (fun _ _ => True) ⟨initial T (queueInit pageSize n d mem), todo⟩ s) :
    s.Progress := by
  have hworking := h.invariant (I := Working n d m _ _)
    (working_initial (totalSizeAligned_of_unreduced hsize).1 hrole hequal)
    fun s mv s' hs _ hmv => work_working hs hmv
  exact ⟨fun t ht => hworking.empty ht, fun t ht => hworking.full ht,
    fun ⟨t, ht⟩ => hworking.canGo hn ht⟩

end

/-! ## Runs -/

/-- A supplier and a consumer of `k` elements of one byte. -/
def pairCalls (k : ℕ) : Bool → List Op
  | true => List.replicate k (.push ⟨[7], true⟩)
  | false => List.replicate k (.pop ⟨1, true⟩)

theorem serves_replicate {d m k : ℕ} {e : End} {op : Op} (h : op.side = e ∧ op.Valid d m) :
    Serves d m e (List.replicate k op) := by
  intro o ho
  rw [List.eq_of_mem_replicate ho]
  exact h

theorem pairCalls_serves {d k : ℕ} (hd : 1 ≤ d) (t : Bool) : ∃ e, Serves d 1 e (pairCalls k t) := by
  cases t with
  | true => exact ⟨.tail, serves_replicate ⟨rfl, rfl, by decide, hd, Nat.le_refl 1⟩⟩
  | false => exact ⟨.head, serves_replicate ⟨rfl, rfl, Nat.le_refl 1⟩⟩

/-- The consumer has gone to sleep with `head_mutex`, and the supplier has not called yet. -/
theorem progress_pair :
    ∃ s : Crew Bool, Reach work (fun _ _ => True)
        ⟨initial Bool (queueInit 4096 1 1 fun _ => 0), pairCalls 1⟩ s ∧
      s.machine.headMutex = some false ∧ s.Progress := by
  have hrun : ((run work (⟨initial Bool (queueInit 4096 1 1 fun _ => 0), pairCalls 1⟩ : Crew Bool)
      [.call false, .go false, .go false, .go false]).any fun s =>
        s.machine.headMutex == some false) = true := by decide
  obtain ⟨s, hs, hp⟩ := Reach.exists_of_run (fun _ _ _ => trivial) hrun
  exact ⟨s, hs, eq_of_beq hp, reach_progress (n := 1) (d := 1) (m := 1) (Nat.le_refl 1) (by decide)
    (pairCalls_serves (Nat.le_refl 1)) (by decide) hs⟩

/-- Two pushes, and a third one for which there is no room; then three pops. -/
def overlappingRun : List (Move Bool) :=
  .call true :: List.replicate 16 (.go true) ++ .call true :: List.replicate 16 (.go true) ++
    .call true :: List.replicate 3 (.go true) ++ .call false :: List.replicate 13 (.go false) ++
    .call false :: List.replicate 13 (.go false) ++ .call false :: List.replicate 13 (.go false)

/-- **Slots that overlap**: with `data_max_size` `2 ^ 64 - 1` a slot has seven bytes.  The size of
the second element overwrites a byte of the size of the first one, every pop refuses the size that
it reads, and the third push sleeps for ever. -/
theorem not_progress_overlapping :
    ¬ ∀ (n d m : ℕ) (todo : Bool → List Op) (s : Crew Bool), 1 ≤ n → n < sizeTMod → d < sizeTMod →
      (∀ t, ∃ e, Serves d m e (todo t)) →
      ∑ t, calls .tail (todo t) = ∑ t, calls .head (todo t) →
      Reach work (fun _ _ => True) ⟨initial Bool (queueInit 4096 n d fun _ => 0), todo⟩ s →
      s.Progress := by
  intro hall
  have hrun : ((run work
      (⟨initial Bool (queueInit 4096 2 (2 ^ 64 - 1) fun _ => 0), pairCalls 3⟩ : Crew Bool)
      overlappingRun).any fun s => (s.machine.pc true).sleepsAt .tail && [true, false].all fun t =>
        (work s (.call t)).isNone && (work s (.go t)).isNone) = true := by decide +kernel
  obtain ⟨s, hs, hp⟩ := Reach.exists_of_run (fun _ _ _ => trivial) hrun
  obtain ⟨hsleeps, hstuck⟩ := Bool.and_eq_true_iff.mp hp
  have hprogress := hall 2 (2 ^ 64 - 1) 1 (pairCalls 3) s (by decide) (by decide) (by decide)
    (pairCalls_serves (by decide)) (by decide) hs
  have hunfinished : s.Unfinished true := by
    refine .inr ⟨.tail, ?_⟩
    rcases hpc : s.machine.pc true with _ | _ | _ | _ | _
    case push => trivial
    all_goals
      rw [hpc] at hsleeps
      exact absurd hsleeps Bool.false_ne_true
  obtain ⟨t, s', hgo⟩ := hprogress.canGo ⟨true, hunfinished⟩
  obtain ⟨hcall, hnext⟩ := Bool.and_eq_true_iff.mp
    (List.all_eq_true.mp hstuck t (by cases t <;> decide))
  rcases hgo with hgo | hgo
  · rw [hgo] at hcall
    exact Bool.false_ne_true hcall
  · rw [hgo] at hnext
    exact Bool.false_ne_true hnext

end Queue

end CloudTiering
