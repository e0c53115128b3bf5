import CloudTiering.Queue.Fifo

/-!
# The shared queue while it is initialised

The daemon creates the shared object under its name first and stores the fields of the queue
afterwards, one by one.  A client that finds the object maps it, and nothing tells it how far the
daemon is.

* `InitStep`, `initSteps`, `initStep`: `queue_init`, in program order.
* `Attach`, `attach`: `init_vars_once` of a client.
* `Published`, `publishStep`: the two of them, and the queue operations.
* `Published.Usable`: what a client may expect of the queue that it gets.
* `Ready`, `reach_usable`: the condition on the clients under which it does, and the result.
-/

namespace CloudTiering

open Foundations

namespace Queue

/-! ## The daemon -/

/-- The steps of `queue_init` with the name of a shared memory object. -/
inductive InitStep
  | create | setSize | map
  | maxSize | curSize | dataMaxSize | totalSize | bufSize | bufOffset | headOffset
  | tailOffset | shmObj
  | headMutex | tailMutex | sizeMutex | emptinessCond | fullnessCond
  /-- `*queue_p = queue`, and the return. -/
  | publish
  deriving DecidableEq

/-- `queue_init`, in program order. -/
def initSteps : List InitStep :=
  [.create, .setSize, .map, .maxSize, .curSize, .dataMaxSize, .totalSize, .bufSize, .bufOffset,
    .headOffset, .tailOffset, .shmObj, .headMutex, .tailMutex, .sizeMutex, .emptinessCond,
    .fullnessCond, .publish]

/-- A shared memory object that has just been given its size. -/
def zeroed : QueueT :=
  { headOffset := 0, tailOffset := 0, curSize := 0, maxSize := 0, dataMaxSize := 0, totalSize := 0,
    bufOffset := 0, bufSize := 0, mem := fun _ => 0 }

variable {T : Type}

/-- What a step of `queue_init` does to the queue and to the mutexes. -/
def initStep (pageSize n d : ℕ) (m : Machine T) : InitStep → Machine T
  | .maxSize => { m with q := { m.q with maxSize := n } }
  | .curSize => { m with q := { m.q with curSize := 0 } }
  | .dataMaxSize => { m with q := { m.q with dataMaxSize := d } }
  | .totalSize => { m with q := { m.q with totalSize := totalSizeAligned pageSize n d } }
  | .bufSize => { m with q := { m.q with bufSize := bufSize n d } }
  | .bufOffset => { m with q := { m.q with bufOffset := queueTSizeAligned pageSize } }
  | .headOffset => { m with q := { m.q with headOffset := queueTSizeAligned pageSize } }
  | .tailOffset => { m with q := { m.q with tailOffset := queueTSizeAligned pageSize } }
  | .headMutex => { m with headMutex := none }
  | .tailMutex => { m with tailMutex := none }
  | .sizeMutex => { m with sizeMutex := none }
  | .create | .setSize | .map | .shmObj | .emptinessCond | .fullnessCond | .publish => m

/-- The whole of `queue_init`. -/
theorem foldl_initSteps (pageSize n d : ℕ) :
    initSteps.foldl (initStep pageSize n d) (initial T zeroed) =
      initial T (queueInit pageSize n d fun _ => 0) := rfl

/-- `queue_init` moves nobody, and records nothing. -/
theorem initStep_pc (pageSize n d : ℕ) (m : Machine T) (i : InitStep) :
    (initStep pageSize n d m i).pc = m.pc ∧ (initStep pageSize n d m i).tailLog = m.tailLog ∧
      (initStep pageSize n d m i).headLog = m.headLog := by
  cases i <;> exact ⟨rfl, rfl, rfl⟩

theorem foldl_initStep_pc (pageSize n d : ℕ) (done : List InitStep) (m : Machine T) :
    (done.foldl (initStep pageSize n d) m).pc = m.pc ∧
      (done.foldl (initStep pageSize n d) m).tailLog = m.tailLog ∧
      (done.foldl (initStep pageSize n d) m).headLog = m.headLog := by
  induction done generalizing m with
  | nil => exact ⟨rfl, rfl, rfl⟩
  | cons i done ih =>
    obtain ⟨hpc, htail, hhead⟩ := initStep_pc pageSize n d m i
    obtain ⟨hpc', htail', hhead'⟩ := ih (initStep pageSize n d m i)
    exact ⟨hpc'.trans hpc, htail'.trans htail, hhead'.trans hhead⟩

/-! ## The clients -/

/-- How far a client is with `init_vars_once`; `st_size` is zero until the object has its size. -/
inductive Attach
  | start
  | opened
  | statted (sized : Bool)
  | mapped
  | noQueue

/-- A step of `init_vars_once`, given whether the object exists and whether it has its size. -/
def attach (created sized : Bool) : Attach → Option Attach
  | .start => some (if created then .opened else .noQueue)
  | .opened => some (.statted sized)
  | .statted sized => some (if sized then .mapped else .noQueue)
  | .mapped | .noQueue => none

/-- The daemon with what is left of its `queue_init`, the queue, and the clients. -/
structure Published (T : Type) where
  todo : List InitStep
  machine : Machine T
  client : T → Attach

/-- The labels of the steps. -/
inductive PublishLabel (T : Type)
  | init
  | attach (t : T)
  /-- A client that has got the queue calls `queue_push` or `queue_try_push`. -/
  | push (t : T) (a : Push)
  /-- The daemon, which has initialised the queue, calls `queue_pop` or `queue_try_pop`. -/
  | pop (t : T) (a : Pop)
  | go (t : T)
  | spurious (t : T)

variable [DecidableEq T]

/-- A step. -/
def publishStep (pageSize n d : ℕ) (s : Published T) : PublishLabel T → Option (Published T)
  | .init => match s.todo with
    | [] => none
    | i :: rest => some { s with todo := rest, machine := initStep pageSize n d s.machine i }
  | .attach t =>
      (attach (decide (.create ∉ s.todo)) (decide (.setSize ∉ s.todo)) (s.client t)).map fun c =>
        { s with client := Function.update s.client t c }
  | .push t a => match s.client t with
    | .mapped => (step s.machine (.call t (.push a))).map fun m => { s with machine := m }
    | _ => none
  | .pop t a => match s.todo with
    | [] => (step s.machine (.call t (.pop a))).map fun m => { s with machine := m }
    | _ => none
  | .go t => (step s.machine (.go t)).map fun m => { s with machine := m }
  | .spurious t => (step s.machine (.spurious t)).map fun m => { s with machine := m }

/-- Before the daemon starts. -/
def Published.initial (T : Type) : Published T :=
  { todo := initSteps, machine := Queue.initial T zeroed, client := fun _ => .start }

omit [DecidableEq T] in
/-- What a client may expect: the queue that it pushes to is completely initialised, its push stays
inside the slots of the buffer, and what has been pushed comes back in order, each element once. -/
structure Published.Usable (n d b : ℕ) (s : Published T) : Prop where
  complete : ∀ t, (s.machine.pc t).inPush → s.todo = []
  fits : ∀ t k a at', s.machine.pc t = .push k a at' → a.bytes.length ≤ d
  inSlots : ∀ t ptr, (s.machine.pc t).fills = some ptr → ∃ j < n, ptr = sizeT (slot n d b j)
  returned : ∃ els, s.machine.pushed = s.machine.popped ++ els ∧
    (s.todo = [] → Ring n d b s.machine.q s.machine.popped.length els)

/-- The condition on a step: no client calls `queue_push` before `queue_init` has returned. -/
def Published.ready (s : Published T) : PublishLabel T → Bool
  | .push _ _ => s.todo.isEmpty
  | _ => true

def Ready (s : Published T) (l : PublishLabel T) : Prop := s.ready l = true

/-! ## The invariant -/

section

variable {pageSize n d : ℕ} {s s' : Published T}

/-- As long as `queue_init` has not returned nobody is in the operations, and the queue is as far as
the daemon has come.  After that the invariants of the queue hold. -/
def Published.Sound (pageSize n d : ℕ) (s : Published T) : Prop :=
  (s.todo ≠ [] ∧ ∃ done, initSteps = done ++ s.todo ∧
    s.machine = done.foldl (initStep pageSize n d) (Queue.initial T zeroed)) ∨
  (s.todo = [] ∧ s.machine.Guarded ∧
    ∃ els, Data n d (sizeofQueueT + sizeofQueueT % pageSize) s.machine els)

omit [DecidableEq T] in
theorem sound_initial : (Published.initial T).Sound pageSize n d :=
  .inl ⟨List.cons_ne_nil _ _, [], rfl, rfl⟩

omit [DecidableEq T] in
/-- Everybody is outside until `queue_init` has returned. -/
theorem Published.Sound.outside (h : s.Sound pageSize n d) (htodo : s.todo ≠ []) (t : T) :
    s.machine.pc t = .outside none := by
  rcases h with ⟨-, done, -, hm⟩ | ⟨hnil, -⟩
  · rw [hm, (foldl_initStep_pc pageSize n d done _).1]
    rfl
  · exact absurd hnil htodo

/-- The daemon gets on with `queue_init`. -/
theorem Published.Sound.init (h : s.Sound pageSize n d) (hfits : n * (sizeofSizeT + d) < sizeTMod)
    (hs : publishStep pageSize n d s .init = some s') : s'.Sound pageSize n d := by
  unfold publishStep at hs
  dsimp only at hs
  split at hs
  case h_1 => exact absurd hs.symm (Option.some_ne_none _)
  case h_2 i rest htodo =>
    obtain rfl := Option.some.inj hs
    rcases h with ⟨-, done, hsplit, hm⟩ | ⟨hnil, -⟩
    · rw [htodo] at hsplit
      have hsplit' : initSteps = (done ++ [i]) ++ rest := by
        rw [List.append_assoc]
        exact hsplit
      have hm' : initStep pageSize n d s.machine i =
          (done ++ [i]).foldl (initStep pageSize n d) (Queue.initial T zeroed) := by
        rw [List.foldl_append, ← hm]
        rfl
      by_cases hrest : rest = []
      · -- The last step: the queue is the one of `queueInit`.
        have hall : initSteps = done ++ [i] := by rw [hsplit', hrest, List.append_nil]
        have hqueue : initStep pageSize n d s.machine i =
            Queue.initial T (queueInit pageSize n d fun _ => 0) := by
          rw [hm', ← hall, foldl_initSteps]
        refine .inr ⟨hrest, ?_⟩
        show (initStep pageSize n d s.machine i).Guarded ∧
          ∃ els, Data n d _ (initStep pageSize n d _ i) els
        rw [hqueue]
        exact ⟨guarded_initial _, [], data_initial hfits⟩
      · exact .inl ⟨hrest, done ++ [i], hsplit', hm'⟩
    · rw [htodo] at hnil
      exact absurd hnil (List.cons_ne_nil i rest)

/-- A step of the queue operations. -/
theorem Published.Sound.machine {l : Label T} {m : Machine T} (h : s.Sound pageSize n d)
    (htodo : s.todo = []) (hm : step s.machine l = some m) :
    ({ s with machine := m } : Published T).Sound pageSize n d := by
  rcases h with ⟨hne, -⟩ | ⟨-, hg, els, hd⟩
  · exact absurd htodo hne
  · exact .inr ⟨htodo, step_guarded hg hm, step_data hd hg hm⟩

/-- Nobody moves until `queue_init` has returned. -/
theorem Published.Sound.still (h : s.Sound pageSize n d) (htodo : s.todo ≠ []) (t : T) :
    step s.machine (.go t) = none ∧ step s.machine (.spurious t) = none := by
  have hpc := h.outside htodo t
  constructor
  · unfold step
    dsimp only
    rw [hpc]
  · unfold step
    dsimp only
    rw [hpc]

/-- **Every step that meets the condition keeps it.** -/
theorem publishStep_sound {l : PublishLabel T} (hfits : n * (sizeofSizeT + d) < sizeTMod)
    (h : s.Sound pageSize n d) (hl : Ready s l) (hs : publishStep pageSize n d s l = some s') :
    s'.Sound pageSize n d := by
  cases l with
  | init => exact h.init hfits hs
  | attach t =>
    obtain ⟨c, -, rfl⟩ := Option.map_eq_some_iff.mp hs
    exact h
  | push t a =>
    have htodo : s.todo = [] := List.isEmpty_iff.mp hl
    unfold publishStep at hs
    dsimp only at hs
    split at hs
    case h_1 =>
      obtain ⟨m, hm, rfl⟩ := Option.map_eq_some_iff.mp hs
      exact h.machine htodo hm
    case h_2 => exact absurd hs.symm (Option.some_ne_none _)
  | pop t a =>
    unfold publishStep at hs
    dsimp only at hs
    split at hs
    case h_1 htodo =>
      obtain ⟨m, hm, rfl⟩ := Option.map_eq_some_iff.mp hs
      exact h.machine htodo hm
    case h_2 => exact absurd hs.symm (Option.some_ne_none _)
  | go t =>
    obtain ⟨m, hm, rfl⟩ := Option.map_eq_some_iff.mp hs
    refine h.machine (by_contra fun htodo => ?_) hm
    rw [(h.still htodo t).1] at hm
    exact absurd hm.symm (Option.some_ne_none m)
  | spurious t =>
    obtain ⟨m, hm, rfl⟩ := Option.map_eq_some_iff.mp hs
    refine h.machine (by_contra fun htodo => ?_) hm
    rw [(h.still htodo t).2] at hm
    exact absurd hm.symm (Option.some_ne_none m)

/-- Every slot address is the one of a slot. -/
theorem exists_slot {n d b j : ℕ} (hn : 0 < n) :
    ∃ i < n, sizeT (slot n d b j) = sizeT (slot n d b i) := by
  refine ⟨j % n, Nat.mod_lt _ hn, ?_⟩
  rw [slot, slot, Nat.mod_mod]

omit [DecidableEq T] in
theorem Published.Sound.usable (h : s.Sound pageSize n d) :
    s.Usable n d (sizeofQueueT + sizeofQueueT % pageSize) := by
  by_cases htodo : s.todo = []
  · rcases h with ⟨hne, -⟩ | ⟨-, hg, els, hd⟩
    · exact absurd htodo hne
    · refine ⟨fun _ _ => htodo, fun t k a at' hpc => ?_, fun t ptr hptr => ?_, els, hd.history,
        fun _ => hd.ring⟩
      · have hok := hd.threads t
        rw [hpc] at hok
        exact hok.1
      · obtain ⟨hroom, rfl⟩ := hd.fills hptr
        exact exists_slot (Nat.zero_lt_of_lt hroom)
  · have hout := h.outside htodo
    have hlogs : s.machine.pushed = [] ∧ s.machine.popped = [] := by
      rcases h with ⟨-, done, -, hm⟩ | ⟨hnil, -⟩
      · obtain ⟨-, htail, hhead⟩ := foldl_initStep_pc (T := T) pageSize n d done
          (Queue.initial T zeroed)
        constructor
        · rw [Machine.pushed, hm, htail]
          rfl
        · rw [Machine.popped, hm, hhead]
          rfl
      · exact absurd hnil htodo
    refine ⟨fun t ht => ?_, fun t k a at' hpc => ?_, fun t ptr hptr => ?_, [], ?_, fun hnil =>
      absurd hnil htodo⟩
    · rw [hout t] at ht
      exact ht.elim
    · rw [hout t] at hpc
      exact absurd hpc (by simp)
    · rw [hout t] at hptr
      exact absurd hptr (by simp [Pc.fills])
    · rw [hlogs.1, hlogs.2]
      rfl

end

/-- **The shared queue is usable** where its total size does not need reduction, as long as no
client calls `queue_push` before `queue_init` has returned. -/
theorem reach_usable {pageSize n d : ℕ} {s : Published T}
    (hsize : unreduced pageSize n d < sizeTMod)
    (h : Reach (publishStep pageSize n d) Ready (Published.initial T) s) :
    s.Usable n d (sizeofQueueT + sizeofQueueT % pageSize) := by
  have hfits := (totalSizeAligned_of_unreduced hsize).1
  exact (h.invariant (I := Published.Sound pageSize n d) sound_initial
    fun _ _ _ hI hl hs => publishStep_sound hfits hI hl hs).usable

/-! ## Runs -/

/-- The client pushes one byte after `queue_init` has returned. -/
theorem usable_afterInit :
    ∃ s : Published Unit, Reach (publishStep 4096 1 1) Ready (Published.initial Unit) s ∧
      s.machine.pushed = [[7]] ∧ s.Usable 1 1 (sizeofQueueT + sizeofQueueT % 4096) := by
  have hrun : ((run (guardedBy Published.ready (publishStep 4096 1 1)) (Published.initial Unit)
      (List.replicate 5 PublishLabel.init ++ List.replicate 3 (PublishLabel.attach ()) ++
        List.replicate 13 PublishLabel.init ++ PublishLabel.push () ⟨[7], true⟩ ::
        List.replicate 16 (PublishLabel.go ()))).any fun s =>
          s.machine.pushed == [[7]]) = true := by decide
  obtain ⟨s, hs, hp⟩ := Reach.exists_of_guarded (P := Ready) (fun _ _ hl => hl) hrun
  exact ⟨s, hs, eq_of_beq hp, reach_usable (by decide) hs⟩

/-- The client pushes when `data_max_size` has been stored and the offsets have not: it writes to
the start of the region, where the fields of the queue are. -/
theorem not_usable_duringInit :
    ¬ ∀ s : Published Unit, Reach (publishStep 4096 1 1) (fun _ _ => True)
      (Published.initial Unit) s →
      s.Usable 1 1 (sizeofQueueT + sizeofQueueT % 4096) := by
  intro hall
  have hrun : ((run (publishStep 4096 1 1) (Published.initial Unit)
      (List.replicate 6 PublishLabel.init ++ List.replicate 3 (PublishLabel.attach ()) ++
        PublishLabel.push () ⟨[7], true⟩ :: List.replicate 3 (PublishLabel.go ()))).any fun s =>
          (s.machine.pc ()).fills == some 0) = true := by decide
  obtain ⟨s, hs, hp⟩ := Reach.exists_of_run (fun _ _ _ => trivial) hrun
  obtain ⟨j, hj, hslot⟩ := (hall s hs).inSlots () 0 (eq_of_beq hp)
  obtain rfl : j = 0 := Nat.lt_one_iff.mp hj
  exact absurd hslot (by decide)

end Queue

end CloudTiering
