import CloudTiering.Queue.Exclusion

/-!
# The queue is first in, first out under every interleaving

* `Pending`: the entry of a call that has not counted its element yet is the last one of its log.
* `PushOk`, `PopOk`, `PcOk`: what the position of a thread says about the queue.
* `Data`: the elements in the queue are those pushed less those popped, they stand in the ring, and
  the two offsets are where the positions say.  Between the moment when an offset advances and the
  moment when the element is counted, the offset is one slot ahead.
* `reach_fifo`: the count stays in its bounds, nobody reads the slot that is being filled, and what
  has been popped is a prefix of what has been pushed.
-/

namespace CloudTiering

open Foundations

namespace Queue

/-! ## The logs -/

/-- The last entry of the log is the one of call `k`, which has not counted its element yet. -/
def Pending (log : List (Option Bytes)) (k : ℕ) : Prop := ∃ l, log = l ++ [none] ∧ k = l.length

variable {log : List (Option Bytes)} {k : ℕ}

theorem pending_append : Pending (log ++ [none]) log.length := ⟨log, rfl, rfl⟩

/-- Taking the mutex adds no element. -/
theorem reduceOption_append_none : (log ++ [none]).reduceOption = log.reduceOption := by
  rw [List.reduceOption_append, List.reduceOption_singleton, Option.toList_none, List.append_nil]

/-- Counting adds the element behind all others. -/
theorem Pending.reduceOption_set (h : Pending log k) (e : Bytes) :
    (log.set k (some e)).reduceOption = log.reduceOption ++ [e] := by
  obtain ⟨l, rfl, rfl⟩ := h
  rw [List.set_append_right _ _ (Nat.le_refl _), Nat.sub_self, reduceOption_append_none]
  show (l ++ [some e]).reduceOption = _
  rw [List.reduceOption_append, List.reduceOption_singleton, Option.toList_some]

/-! ## The positions -/

/-- What the position of the pusher says: `N` elements have been pushed, and the queue has `len`
elements. -/
def PushOk (n d b : ℕ) (q : QueueT) (log : List (Option Bytes)) (len k : ℕ) (a : Push) :
    PushAt → Prop
  | .leave | .leaveTail => TailAt n d b q log.reduceOption.length
  | .room => Pending log k ∧ len < n ∧ TailAt n d b q log.reduceOption.length
  | .copy ptr i =>
      Pending log k ∧ len < n ∧ q.tailOffset = sizeT (slot n d b log.reduceOption.length) ∧
        ptr = sizeT (slot n d b log.reduceOption.length) ∧
        i ≤ (image a.bytes).length ∧
        peek sizeTMod q.mem (slot n d b log.reduceOption.length) i = (image a.bytes).take i
  | .count =>
      Pending log k ∧ len < n ∧ TailAt n d b q (log.reduceOption.length + 1) ∧
        SlotHolds n d b q.mem log.reduceOption.length a.bytes
  | _ => Pending log k ∧ TailAt n d b q log.reduceOption.length

/-- What the position of the popper says: `els` are the elements in the queue. -/
def PopOk (n d b : ℕ) (q : QueueT) (log : List (Option Bytes)) (els : List Bytes) (k : ℕ) :
    PopAt → Prop
  | .leave | .leaveHead => HeadAt n d b q log.reduceOption.length
  | .element => Pending log k ∧ HeadAt n d b q log.reduceOption.length ∧ ∃ e, e ∈ els.head?
  | .readSize ptr acc =>
      Pending log k ∧ HeadAt n d b q log.reduceOption.length ∧
        ptr = sizeT (slot n d b log.reduceOption.length) ∧
        ∃ e ∈ els.head?, acc.length ≤ sizeofSizeT ∧ acc = (image e).take acc.length
  | .copy ptr elemSz acc =>
      Pending log k ∧ HeadAt n d b q log.reduceOption.length ∧
        ptr = sizeT (slot n d b log.reduceOption.length) ∧
        ∃ e ∈ els.head?, elemSz = e.length ∧ acc.length ≤ e.length ∧ acc = e.take acc.length
  | .count bytes =>
      Pending log k ∧ HeadAt n d b q (log.reduceOption.length + 1) ∧ bytes ∈ els.head?
  | _ => Pending log k ∧ HeadAt n d b q log.reduceOption.length

/-- What the position of a thread says. -/
def PcOk (n d b : ℕ) (q : QueueT) (tailLog headLog : List (Option Bytes)) (els : List Bytes) :
    Pc → Prop
  | .outside _ | .popStart _ => True
  | .pushStart a => a.bytes.length ≤ d
  | .push k a at' => a.bytes.length ≤ d ∧ PushOk n d b q tailLog els.length k a at'
  | .pop k _ at' => PopOk n d b q headLog els k at'

section

variable {n d b : ℕ} {q q' : QueueT} {tailLog headLog log' : List (Option Bytes)}
  {els els' : List Bytes} {pc : Pc}

/-- What a pusher does to the queue does not touch the others' positions. -/
theorem PcOk.of_pusher (h : PcOk n d b q tailLog headLog els pc) (hpc : pc.holdsTail = false)
    (hhead : q'.headOffset = q.headOffset) (hels : ∀ e ∈ els.head?, e ∈ els'.head?) :
    PcOk n d b q' log' headLog els' pc := by
  have hat : ∀ j, HeadAt n d b q j → HeadAt n d b q' j := fun j hj => hhead.trans hj
  rcases pc with _ | a | ⟨k, a, at'⟩ | a | ⟨k, a, at'⟩
  · trivial
  · exact h
  · exact absurd hpc (by simp [Pc.holdsTail])
  · trivial
  · cases at' with
    | leave | leaveHead => exact hat _ h
    | element => exact ⟨h.1, hat _ h.2.1, h.2.2.imp fun e he => hels e he⟩
    | readSize ptr acc =>
      obtain ⟨hp, hh, hptr, e, he, hacc⟩ := h
      exact ⟨hp, hat _ hh, hptr, e, hels e he, hacc⟩
    | copy ptr elemSz acc =>
      obtain ⟨hp, hh, hptr, e, he, hacc⟩ := h
      exact ⟨hp, hat _ hh, hptr, e, hels e he, hacc⟩
    | count bytes => exact ⟨h.1, hat _ h.2.1, hels _ h.2.2⟩
    | test | wait | sleep | refuse | refuseHead | small => exact ⟨h.1, hat _ h.2⟩

/-- What a popper does to the queue does not touch the others' positions. -/
theorem PcOk.of_popper (h : PcOk n d b q tailLog headLog els pc) (hpc : pc.holdsHead = false)
    (htail : q'.tailOffset = q.tailOffset) (hmem : q'.mem = q.mem)
    (hlen : els'.length ≤ els.length) : PcOk n d b q' tailLog log' els' pc := by
  have hat : ∀ j, TailAt n d b q j → TailAt n d b q' j := fun j hj => by rwa [TailAt, htail]
  rcases pc with _ | a | ⟨k, a, at'⟩ | a | ⟨k, a, at'⟩
  · trivial
  · exact h
  · obtain ⟨hfit, h⟩ := h
    refine ⟨hfit, ?_⟩
    cases at' with
    | leave | leaveTail => exact hat _ h
    | room => exact ⟨h.1, Nat.lt_of_le_of_lt hlen h.2.1, hat _ h.2.2⟩
    | copy ptr i =>
      obtain ⟨hp, hroom, hoff, hptr, hi, hbytes⟩ := h
      exact ⟨hp, Nat.lt_of_le_of_lt hlen hroom, htail.trans hoff, hptr, hi, by rwa [hmem]⟩
    | count =>
      obtain ⟨hp, hroom, hoff, hslot⟩ := h
      exact ⟨hp, Nat.lt_of_le_of_lt hlen hroom, hat _ hoff, by rwa [hmem]⟩
    | test | wait | sleep | refuse | refuseTail => exact ⟨h.1, hat _ h.2⟩
  · trivial
  · exact absurd hpc (by simp [Pc.holdsHead])

theorem wakeless_pcOk : Wakeless (PcOk n d b q tailLog headLog els) :=
  ⟨fun _ _ => rfl, fun _ _ => rfl⟩

end

/-! ## The invariant -/

/-- The elements in the queue are those pushed less those popped, they stand in the ring, and the
offsets are where the positions of the threads say. -/
structure Data {T : Type} (n d b : ℕ) (s : Machine T) (els : List Bytes) : Prop where
  history : s.pushed = s.popped ++ els
  ring : Ring n d b s.q s.popped.length els
  tailFree : s.tailMutex = none → TailAt n d b s.q s.pushed.length
  headFree : s.headMutex = none → HeadAt n d b s.q s.popped.length
  threads : ∀ t, PcOk n d b s.q s.tailLog s.headLog els (s.pc t)

theorem data_initial {T : Type} {pageSize n d : ℕ} {mem : ℕ → UInt8}
    (hfits : n * (sizeofSizeT + d) < sizeTMod) :
    Data n d (sizeofQueueT + sizeofQueueT % pageSize)
      (initial T (queueInit pageSize n d mem)) [] := by
  have hat : HeadAt n d _ (queueInit pageSize n d mem) 0 := headAt_queueInit hfits
  exact ⟨rfl, ring_queueInit hfits, fun _ => .inl hat, fun _ => hat, fun _ => trivial⟩

section

variable {T : Type} [DecidableEq T] {n d b : ℕ} {s s' : Machine T} {els : List Bytes}
  {t : T} {k : ℕ}

/-- A thread moves, and perhaps takes or releases `size_mutex`. -/
theorem Data.move (h : Data n d b s els) (m : Option T) (p : Pc)
    (hp : PcOk n d b s.q s.tailLog s.headLog els p) :
    Data n d b ({ s with sizeMutex := m }.goto t p) els :=
  ⟨h.history, h.ring, h.tailFree, h.headFree,
    (Function.forall_update_iff _ _).mpr ⟨hp, fun u _ => h.threads u⟩⟩

/-- The pusher releases `tail_mutex` and returns. -/
theorem Data.releaseTail (h : Data n d b s els) (ht : TailAt n d b s.q s.pushed.length)
    (ret : Option Int) : Data n d b ({ s with tailMutex := none }.goto t (.outside ret)) els :=
  ⟨h.history, h.ring, fun _ => ht, h.headFree,
    (Function.forall_update_iff _ _).mpr ⟨trivial, fun u _ => h.threads u⟩⟩

/-- The popper releases `head_mutex` and returns. -/
theorem Data.releaseHead (h : Data n d b s els) (hh : HeadAt n d b s.q s.popped.length)
    (ret : Option Int) : Data n d b ({ s with headMutex := none }.goto t (.outside ret)) els :=
  ⟨h.history, h.ring, h.tailFree, fun _ => hh,
    (Function.forall_update_iff _ _).mpr ⟨trivial, fun u _ => h.threads u⟩⟩

omit [DecidableEq T] in
/-- Nobody else is a pusher. -/
theorem holdsTail_of_ne (hg : s.Guarded) (ht : (s.pc t).holdsTail = true) {u : T} (hu : u ≠ t) :
    (s.pc u).holdsTail = false :=
  Bool.eq_false_iff.mpr fun hold => hu (hg.tail.unique hold ht)

omit [DecidableEq T] in
/-- Nobody else is a popper. -/
theorem holdsHead_of_ne (hg : s.Guarded) (ht : (s.pc t).holdsHead = true) {u : T} (hu : u ≠ t) :
    (s.pc u).holdsHead = false :=
  Bool.eq_false_iff.mpr fun hold => hu (hg.head.unique hold ht)

/-- A thread takes `tail_mutex`. -/
theorem Data.lockTail {a : Push} (h : Data n d b s els) (hg : s.Guarded)
    (hpc : s.pc t = .pushStart a) (hfree : s.tailMutex = none) :
    Data n d b ({ s with tailMutex := some t, tailLog := s.tailLog ++ [none] }.goto t
      (.push s.tailLog.length a .test)) els := by
  have hpushed : (s.tailLog ++ [none]).reduceOption = s.tailLog.reduceOption :=
    reduceOption_append_none
  have hfit : a.bytes.length ≤ d := by
    have := h.threads t
    rwa [hpc] at this
  refine ⟨hpushed.trans h.history, h.ring, fun hnone => absurd hnone (Option.some_ne_none t),
    h.headFree, (Function.forall_update_iff _ _).mpr ⟨⟨hfit, pending_append, ?_⟩, fun u _ => ?_⟩⟩
  · show TailAt n d b s.q (s.tailLog ++ [none]).reduceOption.length
    rw [hpushed]
    exact h.tailFree hfree
  · have hu : (s.pc u).holdsTail = false := by
      have htail := hg.tail
      rw [hfree] at htail
      exact htail.eq_false u
    exact (h.threads u).of_pusher hu rfl fun _ he => he

/-- A thread takes `head_mutex`. -/
theorem Data.lockHead {a : Pop} (h : Data n d b s els) (hg : s.Guarded)
    (hfree : s.headMutex = none) :
    Data n d b ({ s with headMutex := some t, headLog := s.headLog ++ [none] }.goto t
      (.pop s.headLog.length a .test)) els := by
  have hpopped : (s.headLog ++ [none]).reduceOption = s.headLog.reduceOption :=
    reduceOption_append_none
  refine ⟨?_, ?_, h.tailFree, fun hnone => absurd hnone (Option.some_ne_none t),
    (Function.forall_update_iff _ _).mpr ⟨⟨pending_append, ?_⟩, fun u _ => ?_⟩⟩
  · show s.pushed = (s.headLog ++ [none]).reduceOption ++ els
    rw [hpopped]
    exact h.history
  · show Ring n d b s.q (s.headLog ++ [none]).reduceOption.length els
    rw [hpopped]
    exact h.ring
  · show HeadAt n d b s.q (s.headLog ++ [none]).reduceOption.length
    rw [hpopped]
    exact h.headFree hfree
  · have hu : (s.pc u).holdsHead = false := by
      have hhead := hg.head
      rw [hfree] at hhead
      exact hhead.eq_false u
    exact (h.threads u).of_popper hu rfl rfl (Nat.le_refl _)

/-! ## The steps of a push -/

/-- A pusher changes its offset or fills its slot. -/
theorem Data.pusher {q : QueueT} {a : Push} {at' : PushAt} (h : Data n d b s els) (hg : s.Guarded)
    (hpc : s.pc t = .push k a at') (m : Option T) (next : PushAt)
    (hring : Ring n d b q s.popped.length els) (hhead : q.headOffset = s.q.headOffset)
    (hp : PushOk n d b q s.tailLog els.length k a next) :
    Data n d b ({ s with q := q, sizeMutex := m }.goto t (.push k a next)) els := by
  have hself : (s.pc t).holdsTail = true := by rw [hpc]; rfl
  have hok := h.threads t
  rw [hpc] at hok
  exact ⟨h.history, hring, fun hfree => absurd hfree (hg.tail.ne_none hself),
    fun hfree => hhead.trans (h.headFree hfree),
    (Function.forall_update_iff _ _).mpr ⟨⟨hok.1, hp⟩, fun u hu =>
      (h.threads u).of_pusher (holdsTail_of_ne hg hself hu) hhead fun _ he => he⟩⟩

omit [DecidableEq T] in
/-- The elements in the queue are as many as lie between the two positions. -/
theorem Data.length_pushed (h : Data n d b s els) :
    s.pushed.length = s.popped.length + els.length := by
  rw [h.history, List.length_append]

omit [DecidableEq T] in
/-- The test for room. -/
theorem Data.pushTested {a : Push} (h : Data n d b s els) (hpend : Pending s.tailLog k)
    (htail : TailAt n d b s.q s.pushed.length) :
    PushOk n d b s.q s.tailLog els.length k a (pushTested s.q a) := by
  unfold Queue.pushTested
  split
  · split <;> exact ⟨hpend, htail⟩
  · rename_i hroom
    rw [h.ring.curSize, h.ring.layout.maxSize] at hroom
    exact ⟨hpend, Nat.lt_of_le_of_ne h.ring.le hroom, htail⟩

/-- The next byte of the slot. -/
theorem Data.copyByte {a : Push} {ptr i : ℕ} {byte : UInt8} (h : Data n d b s els)
    (hg : s.Guarded) (hpc : s.pc t = .push k a (.copy ptr i))
    (hbyte : (image a.bytes)[i]? = some byte) :
    Data n d b ({ s with q := { s.q with mem := poke sizeTMod s.q.mem (ptr + i) [byte] } }.goto t
      (.push k a (.copy ptr (i + 1)))) els := by
  have hok := h.threads t
  rw [hpc] at hok
  obtain ⟨hfit, hpend, hroom, hoff, rfl, -, hbytes⟩ := hok
  obtain ⟨hi, rfl⟩ := List.getElem?_eq_some_iff.mp hbyte
  have hlen := length_image a.bytes
  have haddr : poke sizeTMod s.q.mem (sizeT (slot n d b s.pushed.length) + i) [(image a.bytes)[i]] =
      poke sizeTMod s.q.mem (slot n d b s.pushed.length + i) [(image a.bytes)[i]] := by
    rw [← poke_mod, sizeT, Nat.mod_add_mod, poke_mod]
  have hM : (sizeofSizeT + d) < sizeTMod := h.ring.layout.slotSize_lt (Nat.zero_lt_of_lt hroom)
  have hring : Ring n d b
      { s.q with mem := poke sizeTMod s.q.mem (sizeT (slot n d b s.pushed.length) + i)
                          [(image a.bytes)[i]] } s.popped.length els := by
    rw [haddr, h.length_pushed]
    refine h.ring.poke hroom ?_
    rw [List.length_singleton]
    omega
  refine h.pusher hg hpc s.sizeMutex (.copy _ (i + 1)) hring rfl
    ⟨hpend, hroom, hoff, rfl, hi, ?_⟩
  show peek sizeTMod (poke _ s.q.mem (sizeT (slot n d b s.pushed.length) + i) _) _ _ = _
  rw [haddr, peek_append, List.take_succ_eq_append_getElem hi, peek_poke_of_apart]
  · rw [hbytes]
    exact congrArg _ (peek_poke_self (by decide : 1 ≤ sizeTMod))
  · intro j hj l hl heq
    have hl0 : l = 0 := Nat.lt_one_iff.mp hl
    subst hl0
    rw [Nat.add_zero] at heq
    have := eq_of_mod_eq (M := sizeTMod) (by omega) (by omega) heq
    omega

/-- The slot is full: the tail advances. -/
theorem Data.copyEnd {a : Push} {ptr i : ℕ} (h : Data n d b s els) (hg : s.Guarded)
    (hpc : s.pc t = .push k a (.copy ptr i)) (hend : (image a.bytes)[i]? = none) :
    Data n d b ({ s with q := { s.q with tailOffset := advancedTail s.q } }.goto t
      (.push k a .count)) els := by
  have hok := h.threads t
  rw [hpc] at hok
  obtain ⟨-, hpend, hroom, hoff, -, hi, hbytes⟩ := hok
  have hi' : i = (image a.bytes).length :=
    Nat.le_antisymm hi (List.getElem?_eq_none_iff.mp hend)
  refine h.pusher hg hpc s.sizeMutex .count (h.ring.setOffsets s.q.headOffset _) rfl
    ⟨hpend, hroom, tailAt_advanced hoff h.ring.layout (Nat.zero_lt_of_lt hroom) rfl, ?_⟩
  rw [SlotHolds, ← length_image, ← hi', hbytes, hi', List.take_length]

/-- The element is counted. -/
theorem Data.pushCount {a : Push} (h : Data n d b s els) (hg : s.Guarded)
    (hpc : s.pc t = .push k a .count) :
    Data n d b ({ s with sizeMutex := some t, q := { s.q with curSize := countedIn s.q },
                         pc := s.pushWoken, tailLog := s.tailLog.set k (some a.bytes) }.goto t
      (.push k a .leave)) (els ++ [a.bytes]) := by
  have hok := h.threads t
  rw [hpc] at hok
  obtain ⟨hfit, hpend, hroom, htail, hslot⟩ := hok
  have hself : (s.pc t).holdsTail = true := by rw [hpc]; rfl
  have hpushed : (s.tailLog.set k (some a.bytes)).reduceOption = s.pushed ++ [a.bytes] :=
    hpend.reduceOption_set a.bytes
  refine ⟨?_, h.ring.push hroom hfit (by rw [← h.length_pushed]; exact hslot),
    fun hfree => absurd hfree (hg.tail.ne_none hself), h.headFree,
    (Function.forall_update_iff _ _).mpr ⟨⟨hfit, ?_⟩, fun u hu => ?_⟩⟩
  · show (s.tailLog.set k (some a.bytes)).reduceOption = s.popped ++ (els ++ [a.bytes])
    rw [hpushed, h.history, List.append_assoc]
  · show TailAt n d b _ (s.tailLog.set k (some a.bytes)).reduceOption.length
    rw [hpushed, List.length_append, List.length_singleton]
    exact htail
  · have hmove : PcOk n d b { s.q with curSize := countedIn s.q }
        (s.tailLog.set k (some a.bytes)) s.headLog (els ++ [a.bytes]) (s.pc u) :=
      (h.threads u).of_pusher (holdsTail_of_ne hg hself hu) rfl fun e he => by
        rw [List.head?_append, Option.mem_def.mp he]
        rfl
    exact (wakeless_pcOk.woken s .tail u).mpr hmove

/-- A step of the pusher. -/
theorem pushStep_data {a : Push} {at' : PushAt} (h : Data n d b s els) (hg : s.Guarded)
    (hpc : s.pc t = .push k a at') (hs : pushStep s t k a at' = some s') :
    ∃ els', Data n d b s' els' := by
  have hok := h.threads t
  rw [hpc] at hok
  cases at' with
  | test =>
    obtain rfl := Option.some.inj (Option.ite_none_left_eq_some.mp hs).2
    exact ⟨els, h.move (some t) (.push k a _) ⟨hok.1, h.pushTested hok.2.1 hok.2.2⟩⟩
  | sleep => exact absurd hs (by simp [pushStep])
  | wait | refuse | leave =>
    obtain rfl := Option.some.inj hs
    refine ⟨els, h.move none (.push k a _) ?_⟩
    exact hok
  | refuseTail =>
    obtain rfl := Option.some.inj hs
    exact ⟨els, h.releaseTail hok.2.2 _⟩
  | leaveTail =>
    obtain rfl := Option.some.inj hs
    exact ⟨els, h.releaseTail hok.2 _⟩
  | room =>
    obtain rfl := Option.some.inj hs
    obtain ⟨-, hpend, hroom, htail⟩ := hok
    have hnorm := htail.normalized h.ring.layout (Nat.zero_lt_of_lt hroom)
    exact ⟨els, h.pusher hg hpc none (.copy _ 0) (h.ring.setOffsets s.q.headOffset _) rfl
      ⟨hpend, hroom, hnorm, hnorm, Nat.zero_le _, rfl⟩⟩
  | copy ptr i =>
    unfold pushStep at hs
    dsimp only at hs
    cases hbyte : (image a.bytes)[i]? with
    | some byte =>
      rw [hbyte] at hs
      obtain rfl := Option.some.inj hs
      exact ⟨els, h.copyByte hg hpc hbyte⟩
    | none =>
      rw [hbyte] at hs
      obtain rfl := Option.some.inj hs
      exact ⟨els, h.copyEnd hg hpc hbyte⟩
  | count =>
    obtain rfl := Option.some.inj (Option.ite_none_left_eq_some.mp hs).2
    exact ⟨_, h.pushCount hg hpc⟩

/-! ## The steps of a pop -/

omit [DecidableEq T] in
/-- The test for an element. -/
theorem Data.popTested {a : Pop} (h : Data n d b s els) (hpend : Pending s.headLog k)
    (hhead : HeadAt n d b s.q s.popped.length) :
    PopOk n d b s.q s.headLog els k (popTested s.q a) := by
  unfold Queue.popTested
  split
  · split <;> exact ⟨hpend, hhead⟩
  · rename_i hsome
    rw [h.ring.curSize] at hsome
    refine ⟨hpend, hhead, els.head (List.ne_nil_of_length_pos (Nat.pos_of_ne_zero hsome)), ?_⟩
    exact List.head?_eq_some_head _

/-- The next byte of a prefix that is read byte by byte. -/
theorem take_succ_length {xs acc : Bytes} {x : UInt8} (hacc : acc = xs.take acc.length)
    (hx : xs[acc.length]? = some x) : acc ++ [x] = xs.take (acc ++ [x]).length := by
  obtain ⟨hlt, rfl⟩ := List.getElem?_eq_some_iff.mp hx
  rw [List.length_append, List.length_singleton, List.take_succ_eq_append_getElem hlt, ← hacc]

/-- A cell of the front element. -/
theorem Ring.front_byte {q : QueueT} {p : ℕ} {e : Bytes} {i : ℕ} (h : Ring n d b q p els)
    (he : e ∈ els.head?) (hi : i < (image e).length) :
    peek sizeTMod q.mem (slot n d b p + i) 1 = [(image e)[i]] := by
  obtain ⟨rest, rfl⟩ := List.head?_eq_some_iff.mp he
  have hslot := h.slots 0 e rfl
  rw [SlotHolds, Nat.add_zero, ← length_image] at hslot
  have hcells : peek sizeTMod q.mem (slot n d b p + i) ((image e).length - i) =
      (image e).drop i := by
    rw [← drop_peek (Nat.le_of_lt hi), hslot]
  rw [← take_peek (show 1 ≤ (image e).length - i by omega), hcells, List.drop_eq_getElem_cons hi]
  rfl

/-- A popper advances its offset. -/
theorem Data.copiedOut {a : Pop} {ptr elemSz : ℕ} {acc : Bytes} (h : Data n d b s els)
    (hg : s.Guarded) (hpc : s.pc t = .pop k a (.copy ptr elemSz acc))
    (hend : ¬ acc.length < elemSz) :
    Data n d b ({ s with q := { s.q with headOffset := advancedHead s.q } }.goto t
      (.pop k a (.count acc))) els := by
  have hok := h.threads t
  rw [hpc] at hok
  obtain ⟨hpend, hhead, -, e, he, rfl, hle, hacc⟩ := hok
  have hself : (s.pc t).holdsHead = true := by rw [hpc]; rfl
  have hall : acc = e := by
    rw [hacc, Nat.le_antisymm hle (Nat.le_of_not_lt hend), List.take_length]
  obtain ⟨rest, hcons⟩ := List.head?_eq_some_iff.mp he
  have hn : 0 < n := by
    have hring := h.ring
    rw [hcons] at hring
    exact hring.pos
  have hnext : PopOk n d b { s.q with headOffset := advancedHead s.q } s.headLog els k
      (.count acc) := by
    refine ⟨hpend, headAt_advanced hhead h.ring.layout hn rfl, ?_⟩
    rw [hall]
    exact he
  exact ⟨h.history, h.ring.setOffsets _ s.q.tailOffset, h.tailFree,
    fun hfree => absurd hfree (hg.head.ne_none hself),
    (Function.forall_update_iff _ _).mpr ⟨hnext, fun u hu =>
      (h.threads u).of_popper (holdsHead_of_ne hg hself hu) rfl rfl (Nat.le_refl _)⟩⟩

/-- The element is counted out. -/
theorem Data.popCount {a : Pop} {bytes : Bytes} (h : Data n d b s els) (hg : s.Guarded)
    (hpc : s.pc t = .pop k a (.count bytes)) :
    Data n d b ({ s with sizeMutex := some t, q := { s.q with curSize := countedOut s.q },
                         pc := s.popWoken, headLog := s.headLog.set k (some bytes) }.goto t
      (.pop k a .leave)) els.tail := by
  have hok := h.threads t
  rw [hpc] at hok
  obtain ⟨hpend, hhead, he⟩ := hok
  obtain ⟨rest, rfl⟩ := List.head?_eq_some_iff.mp he
  have hself : (s.pc t).holdsHead = true := by rw [hpc]; rfl
  have hpopped : (s.headLog.set k (some bytes)).reduceOption = s.popped ++ [bytes] :=
    hpend.reduceOption_set bytes
  have hlen : (s.headLog.set k (some bytes)).reduceOption.length = s.popped.length + 1 := by
    rw [hpopped, List.length_append, List.length_singleton]
  refine ⟨?_, ?_, h.tailFree, fun hfree => absurd hfree (hg.head.ne_none hself),
    (Function.forall_update_iff _ _).mpr ⟨?_, fun u hu => ?_⟩⟩
  · show s.pushed = (s.headLog.set k (some bytes)).reduceOption ++ rest
    rw [hpopped, h.history, List.append_assoc]
    rfl
  · show Ring n d b _ (s.headLog.set k (some bytes)).reduceOption.length rest
    rw [hlen]
    exact h.ring.pop
  · show HeadAt n d b _ (s.headLog.set k (some bytes)).reduceOption.length
    rw [hlen]
    exact hhead
  · have hmove : PcOk n d b { s.q with curSize := countedOut s.q } s.tailLog
        (s.headLog.set k (some bytes)) rest (s.pc u) :=
      (h.threads u).of_popper (holdsHead_of_ne hg hself hu) rfl rfl (Nat.le_succ _)
    exact (wakeless_pcOk.woken s .head u).mpr hmove

/-- A step of the popper while it reads the size. -/
theorem Data.readSize {a : Pop} {ptr : ℕ} {acc : Bytes} (h : Data n d b s els)
    (hpc : s.pc t = .pop k a (.readSize ptr acc))
    (hs : popStep s t k a (.readSize ptr acc) = some s') :
    Data n d b s' els := by
  have hok := h.threads t
  rw [hpc] at hok
  obtain ⟨hpend, hhead, rfl, e, he, hle, hacc⟩ := hok
  have hlen := length_image e
  have hfit : e.length < sizeTMod := by
    obtain ⟨rest, rfl⟩ := List.head?_eq_some_iff.mp he
    exact h.ring.size_lt h.ring.pos (h.ring.size_le e List.mem_cons_self)
  unfold popStep at hs
  dsimp only at hs
  split at hs
  case isTrue hlt =>
    obtain rfl := Option.some.inj hs
    have hi : acc.length < (image e).length := by omega
    have hbyte : peek sizeTMod s.q.mem
        (sizeT (slot n d b s.headLog.reduceOption.length) + acc.length) 1 =
        [(image e)[acc.length]] := by
      rw [← peek_mod, sizeT, Nat.mod_add_mod, peek_mod]
      exact h.ring.front_byte he hi
    rw [hbyte]
    refine h.move s.sizeMutex (.pop k a (.readSize _ _)) ⟨hpend, hhead, rfl, e, he, ?_, ?_⟩
    · rw [List.length_append]
      exact hlt
    · exact take_succ_length hacc (List.getElem?_eq_getElem hi)
  case isFalse hlt =>
    have hsize : decodeLE acc = e.length := by
      rw [hacc, Nat.le_antisymm hle (Nat.le_of_not_lt hlt), decodeLE_take_image hfit]
    split at hs
    · obtain rfl := Option.some.inj hs
      exact h.move s.sizeMutex (.pop k a .small) ⟨hpend, hhead⟩
    · obtain rfl := Option.some.inj hs
      exact h.move s.sizeMutex (.pop k a (.copy _ _ []))
        ⟨hpend, hhead, rfl, e, he, hsize, Nat.zero_le _, rfl⟩

/-- A step of the popper. -/
theorem popStep_data {a : Pop} {at' : PopAt} (h : Data n d b s els) (hg : s.Guarded)
    (hpc : s.pc t = .pop k a at') (hs : popStep s t k a at' = some s') :
    ∃ els', Data n d b s' els' := by
  have hok := h.threads t
  rw [hpc] at hok
  cases at' with
  | test =>
    obtain rfl := Option.some.inj (Option.ite_none_left_eq_some.mp hs).2
    exact ⟨els, h.move (some t) (.pop k a _) (h.popTested hok.1 hok.2)⟩
  | sleep => exact absurd hs (by simp [popStep])
  | wait | refuse | leave =>
    obtain rfl := Option.some.inj hs
    refine ⟨els, h.move none (.pop k a _) ?_⟩
    exact hok
  | refuseHead | small =>
    obtain rfl := Option.some.inj hs
    exact ⟨els, h.releaseHead hok.2 _⟩
  | leaveHead =>
    obtain rfl := Option.some.inj hs
    exact ⟨els, h.releaseHead hok _⟩
  | element =>
    obtain rfl := Option.some.inj hs
    obtain ⟨hpend, hhead, e, he⟩ := hok
    exact ⟨els, h.move none (.pop k a (.readSize _ []))
      ⟨hpend, hhead, hhead, e, he, Nat.zero_le _, rfl⟩⟩
  | readSize ptr acc => exact ⟨els, h.readSize hpc hs⟩
  | copy ptr elemSz acc =>
    unfold popStep at hs
    dsimp only at hs
    split at hs
    case isTrue hlt =>
      obtain rfl := Option.some.inj hs
      obtain ⟨hpend, hhead, rfl, e, he, rfl, hle, hacc⟩ := hok
      have hlen := length_image e
      have hi : sizeofSizeT + acc.length < (image e).length := by omega
      have hbyte : peek sizeTMod s.q.mem
          (queueElemData (sizeT (slot n d b s.headLog.reduceOption.length)) + acc.length) 1 =
          [(image e)[sizeofSizeT + acc.length]] := by
        rw [← peek_mod, queueElemData, sizeT, Nat.add_assoc, Nat.mod_add_mod, peek_mod]
        exact h.ring.front_byte he hi
      rw [hbyte]
      refine ⟨els, h.move s.sizeMutex (.pop k a (.copy _ _ _))
        ⟨hpend, hhead, rfl, e, he, rfl, ?_, take_succ_length hacc ?_⟩⟩
      · rw [List.length_append]
        exact hlt
      · rw [← List.getElem?_eq_getElem hi]
        conv_lhs => rw [← drop_image e]
        rw [List.getElem?_drop]
    case isFalse hlt =>
      obtain rfl := Option.some.inj hs
      exact ⟨els, h.copiedOut hg hpc hlt⟩
  | count bytes =>
    obtain rfl := Option.some.inj (Option.ite_none_left_eq_some.mp hs).2
    exact ⟨_, h.popCount hg hpc⟩

/-- **Every step keeps the invariant.** -/
theorem step_data {l : Label T} (h : Data n d b s els) (hg : s.Guarded) (hs : step s l = some s') :
    ∃ els', Data n d b s' els' := by
  cases l with
  | call t op =>
    obtain ⟨ret, hpc, rfl⟩ := step_call hs
    refine ⟨els, h.move s.sizeMutex _ ?_⟩
    cases op with
    | push a =>
      unfold Op.start
      dsimp only
      split
      · trivial
      · rename_i hv
        rw [h.ring.layout.dataMaxSize] at hv
        exact Nat.le_of_not_lt fun hlt => hv (.inr hlt)
    | pop a => trivial
  | go t =>
    obtain ⟨a, hpc, hfree, rfl⟩ | ⟨k, a, at', hpc, hs⟩ | ⟨a, hpc, hfree, rfl⟩ |
      ⟨k, a, at', hpc, hs⟩ := step_go hs
    · exact ⟨els, h.lockTail hg hpc hfree⟩
    · exact pushStep_data h hg hpc hs
    · exact ⟨els, h.lockHead hg hfree⟩
    · exact popStep_data h hg hpc hs
  | spurious t =>
    obtain ⟨k, a, hpc, rfl⟩ | ⟨k, a, hpc, rfl⟩ := step_spurious hs
    all_goals
      have hok := h.threads t
      rw [hpc] at hok
      exact ⟨els, h.move s.sizeMutex _ hok⟩

end

/-! ## Every reachable state -/

/-- The slot that a pusher is filling. -/
def Pc.fills : Pc → Option ℕ
  | .push _ _ (.copy ptr _) => some ptr
  | _ => none

/-- The slot that a popper is reading. -/
def Pc.reads : Pc → Option ℕ
  | .pop _ _ (.readSize ptr _) | .pop _ _ (.copy ptr _ _) => some ptr
  | _ => none

section

variable {T : Type} {n d b : ℕ} {s : Machine T} {els : List Bytes} {t : T} {ptr : ℕ}

theorem Data.fills (h : Data n d b s els) (ht : (s.pc t).fills = some ptr) :
    els.length < n ∧ ptr = sizeT (slot n d b s.pushed.length) := by
  have hok := h.threads t
  unfold Pc.fills at ht
  split at ht
  case h_1 k a ptr' i hpc =>
    rw [hpc] at hok
    obtain ⟨-, -, hroom, -, hptr, -⟩ := hok
    exact ⟨hroom, (Option.some.inj ht).symm.trans hptr⟩
  case h_2 => exact absurd ht (by simp)

theorem ne_nil_of_mem_head? {e : Bytes} (he : e ∈ els.head?) : els ≠ [] := by
  rintro rfl
  exact absurd he (by simp)

theorem Data.reads (h : Data n d b s els) (ht : (s.pc t).reads = some ptr) :
    els ≠ [] ∧ ptr = sizeT (slot n d b s.popped.length) := by
  have hok := h.threads t
  unfold Pc.reads at ht
  split at ht
  case h_1 k a ptr' acc hpc =>
    rw [hpc] at hok
    obtain ⟨-, -, hptr, e, he, -⟩ := hok
    exact ⟨ne_nil_of_mem_head? he, (Option.some.inj ht).symm.trans hptr⟩
  case h_2 k a ptr' elemSz acc hpc =>
    rw [hpc] at hok
    obtain ⟨-, -, hptr, e, he, -⟩ := hok
    exact ⟨ne_nil_of_mem_head? he, (Option.some.inj ht).symm.trans hptr⟩
  case h_3 => exact absurd ht (by simp)

/-- The slots of a pusher and of a popper are apart. -/
theorem Data.apart (h : Data n d b s els) {u : T} {ptr' : ℕ} (ht : (s.pc t).fills = some ptr)
    (hu : (s.pc u).reads = some ptr') :
    Apart sizeTMod ptr (queueBytesPerElem s.q) ptr' (queueBytesPerElem s.q) := by
  obtain ⟨hroom, rfl⟩ := h.fills ht
  obtain ⟨hsome, rfl⟩ := h.reads hu
  have hpos := List.length_pos_of_ne_nil hsome
  have hap := h.ring.layout.apart (i := s.popped.length) (j := s.popped.length + els.length)
    (by omega) (by omega)
  rw [h.length_pushed, h.ring.layout.queueBytesPerElem (Nat.zero_lt_of_lt hroom)]
  intro j hj k hk heq
  rw [sizeT, sizeT, Nat.mod_add_mod, Nat.mod_add_mod] at heq
  exact hap k hk j hj heq.symm

end

/-- **First in, first out.**  In every state that any number of threads reach, the count is at most
`max_size`; the slot that is being filled and the slot that is being read have no byte in common, so
that they are not the same; and the elements popped are a prefix of the elements pushed. -/
theorem reach_fifo {T : Type} [DecidableEq T] {pageSize n d : ℕ} {mem : ℕ → UInt8} {s : Machine T}
    (hfits : n * (sizeofSizeT + d) < sizeTMod)
    (h : Reach step (fun _ _ => True) (initial T (queueInit pageSize n d mem)) s) :
    (0 ≤ s.q.curSize ∧ s.q.curSize ≤ s.q.maxSize) ∧
      (∀ t u ptr ptr', (s.pc t).fills = some ptr → (s.pc u).reads = some ptr' →
        ptr ≠ ptr' ∧ Apart sizeTMod ptr (queueBytesPerElem s.q) ptr' (queueBytesPerElem s.q)) ∧
      s.popped <+: s.pushed := by
  have hinv : s.Guarded ∧ ∃ els, Data n d (sizeofQueueT + sizeofQueueT % pageSize) s els := by
    refine h.invariant (I := fun s => s.Guarded ∧ ∃ els, Data n d _ s els)
      ⟨guarded_initial _, [], data_initial hfits⟩ ?_
    rintro s l s' ⟨hg, els, hd⟩ - hs
    exact ⟨step_guarded hg hs, step_data hd hg hs⟩
  obtain ⟨-, els, hd⟩ := hinv
  refine ⟨⟨Nat.zero_le _, ?_⟩, fun t u ptr ptr' ht hu => ?_, els, hd.history.symm⟩
  · rw [hd.ring.curSize, hd.ring.layout.maxSize]
    exact hd.ring.le
  · have hap := hd.apart ht hu
    have hpos : 0 < queueBytesPerElem s.q := by
      rw [hd.ring.layout.queueBytesPerElem (Nat.zero_lt_of_lt (hd.fills ht).1)]
      exact Nat.add_pos_left (by decide) d
    exact ⟨fun heq => hap 0 hpos 0 hpos (by rw [heq]), hap⟩

/-- One thread pushes an element and fills the slot of a second one while another thread pops. -/
theorem fifo_two_threads :
    ∃ s : Machine Bool, Reach step (fun _ _ => True)
        (initial Bool (queueInit 4096 2 1 fun _ => 0)) s ∧
      s.popped <+: s.pushed ∧ (s.popped == [[7]] && (s.pc true).fills.isSome) = true := by
  have hfits : 2 * (sizeofSizeT + 1) < sizeTMod := by decide
  have hrun : ((run step (initial Bool (queueInit 4096 2 1 fun _ => 0))
      (Label.call true (.push ⟨[7], true⟩) :: List.replicate 16 (Label.go true) ++
        Label.call true (.push ⟨[8], false⟩) :: List.replicate 5 (Label.go true) ++
        Label.call false (.pop ⟨1, true⟩) :: List.replicate 16 (Label.go false))).any fun s =>
          s.popped == [[7]] && (s.pc true).fills.isSome) = true := by decide +kernel
  obtain ⟨s, hs, hp⟩ := Reach.exists_of_run (fun _ _ _ => trivial) hrun
  exact ⟨s, hs, (reach_fifo hfits hs).2.2, hp⟩

end Queue

end CloudTiering
