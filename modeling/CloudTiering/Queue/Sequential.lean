import CloudTiering.Foundations.Transition
import CloudTiering.Queue.Layout

/-!
# `queue.c`: the operations, one call after the other

The four operations of the queue, run by a single caller, as functions on the bytes of the queue,
and the bounded queue of byte strings that they implement.

* `queuePushCommon`, `queuePopCommon` and the four operations: `none` is a call that would wait.
* `Call`, `perform`, `tryStep`: calls with arbitrary arguments, and sequences of calls.
* `Accepts`, `after`, `held`: the bounded queue, in terms of its elements alone.
* `HoldsAt`, `Holds`: the abstraction relation.
* `Holds.perform`, `Holds.run`: what one call and what any number of calls do to it.
-/

namespace CloudTiering

open Foundations

namespace Queue

/-! ## The operations -/

/-- What a call leaves behind: the value it returns, the queue, the size behind `data_size`, the
bytes it has written to `data`, and the slot it has accessed with the number of bytes accessed
there. -/
structure Result where
  ret : Int
  queue : QueueT
  dataSize : Option ℕ := none
  data : Option Bytes := none
  touched : Option (ℕ × ℕ) := none

/-- The `n` bytes behind a pointer. -/
def bytesAt (data : ℕ → UInt8) (n : ℕ) : Bytes := (List.range n).map data

/-- `queue_push_common`.  `given` says whether the queue pointer is not `NULL`. -/
def queuePushCommon (queue : QueueT) (given : Bool) (data : Option (ℕ → UInt8)) (dataSize : ℕ)
    (shouldWait : Bool) : Option Result :=
  match data with
  | none => some { ret := -1, queue := queue }
  | some data =>
      if given = false ∨ dataSize = 0 ∨ dataSize > queue.dataMaxSize then
        some { ret := -1, queue := queue }
      else if queue.curSize = queue.maxSize then
        if shouldWait then none else some { ret := -1, queue := queue }
      else
        let queue := { queue with tailOffset := normalizedTail queue }
        let ptr := queueTail queue
        let mem := poke sizeTMod queue.mem ptr (encodeLE sizeofSizeT dataSize)
        let mem := poke sizeTMod mem (queueElemData ptr) (bytesAt data dataSize)
        let queue := { queue with mem := mem }
        let queue := { queue with tailOffset := advancedTail queue }
        let queue := { queue with curSize := countedIn queue }
        some { ret := 0, queue := queue, touched := some (ptr, sizeofSizeT + dataSize) }

/-- `queue_pop_common`.  `given` and `data` say whether these pointers are not `NULL`. -/
def queuePopCommon (queue : QueueT) (given data : Bool) (dataSize : Option ℕ) (shouldWait : Bool) :
    Option Result :=
  match dataSize with
  | none => some { ret := -1, queue := queue }
  | some size =>
      if given = false ∨ data = false then
        some { ret := -1, queue := queue, dataSize := some size }
      else if queue.curSize = 0 then
        if shouldWait then none else some { ret := -1, queue := queue, dataSize := some size }
      else
        let ptr := queueHead queue
        let elemSz := queueElemSize queue ptr
        if size < elemSz then
          some { ret := -1, queue := queue, dataSize := some size,
                 touched := some (ptr, sizeofSizeT) }
        else
          let bytes := peek sizeTMod queue.mem (queueElemData ptr) elemSz
          let queue := { queue with headOffset := advancedHead queue }
          let queue := { queue with curSize := countedOut queue }
          some { ret := 0, queue := queue, dataSize := some elemSz, data := some bytes,
                 touched := some (ptr, sizeofSizeT + elemSz) }

/-- `queue_push`. -/
def queuePush (queue : QueueT) (given : Bool) (data : Option (ℕ → UInt8)) (dataSize : ℕ) :
    Option Result :=
  queuePushCommon queue given data dataSize true

/-- `queue_try_push`. -/
def queueTryPush (queue : QueueT) (given : Bool) (data : Option (ℕ → UInt8)) (dataSize : ℕ) :
    Option Result :=
  queuePushCommon queue given data dataSize false

/-- `queue_pop`. -/
def queuePop (queue : QueueT) (given data : Bool) (dataSize : Option ℕ) : Option Result :=
  queuePopCommon queue given data dataSize true

/-- `queue_try_pop`. -/
def queueTryPop (queue : QueueT) (given data : Bool) (dataSize : Option ℕ) : Option Result :=
  queuePopCommon queue given data dataSize false

/-! ## Sequences of calls -/

/-- A call with its arguments. -/
inductive Call
  | push (given : Bool) (data : Option (ℕ → UInt8)) (dataSize : ℕ)
  | pop (given data : Bool) (dataSize : Option ℕ)

/-- The size behind `data_size` before the call. -/
def Call.sizeBefore : Call → Option ℕ
  | .push _ _ _ => none
  | .pop _ _ dataSize => dataSize

/-- The call of the operation that does not wait. -/
def tryPerform (q : QueueT) : Call → Option Result
  | .push given data dataSize => queueTryPush q given data dataSize
  | .pop given data dataSize => queueTryPop q given data dataSize

/-- The call of the operation that may wait. -/
def waitPerform (q : QueueT) : Call → Option Result
  | .push given data dataSize => queuePush q given data dataSize
  | .pop given data dataSize => queuePop q given data dataSize

/-- The queue after a call that does not wait. -/
def tryStep (q : QueueT) (c : Call) : Option QueueT := (tryPerform q c).map Result.queue

/-! ## The bounded queue -/

/-- The arguments are valid. -/
def Call.Valid (d : ℕ) : Call → Prop
  | .push given data dataSize => given = true ∧ data.isSome ∧ 1 ≤ dataSize ∧ dataSize ≤ d
  | .pop given data dataSize => given = true ∧ data = true ∧ dataSize.isSome

/-- There is no room for another element, or no element. -/
def Call.Blocked (n : ℕ) (els : List Bytes) : Call → Prop
  | .push _ _ _ => els.length = n
  | .pop _ _ _ => els = []

/-- A bounded queue for `n` elements of at most `d` bytes that holds `els` carries the call out. -/
def Accepts (n d : ℕ) (els : List Bytes) : Call → Prop
  | .push given data dataSize =>
      given = true ∧ data.isSome ∧ 1 ≤ dataSize ∧ dataSize ≤ d ∧ els.length < n
  | .pop given data dataSize =>
      given = true ∧ data = true ∧ ∃ e ∈ els.head?, ∃ m ∈ dataSize, e.length ≤ m

instance (n d : ℕ) (els : List Bytes) : (c : Call) → Decidable (Accepts n d els c)
  | .push given data dataSize =>
      inferInstanceAs (Decidable
        (given = true ∧ data.isSome ∧ 1 ≤ dataSize ∧ dataSize ≤ d ∧ els.length < n))
  | .pop given data dataSize =>
      inferInstanceAs (Decidable
        (given = true ∧ data = true ∧ ∃ e ∈ els.head?, ∃ m ∈ dataSize, e.length ≤ m))

/-- The elements after a call. -/
def after (n d : ℕ) (els : List Bytes) (c : Call) : List Bytes :=
  if Accepts n d els c then
    match c with
    | .push _ data dataSize => els ++ [bytesAt (data.getD fun _ => 0) dataSize]
    | .pop _ _ _ => els.tail
  else els

/-- The elements after a sequence of calls. -/
def held (n d : ℕ) (calls : List Call) : List Bytes := calls.foldl (after n d) []

/-! ## The abstraction relation -/

/-- The queue holds the elements: they are in the ring from position `p` on, the head is at the
first one and the tail behind the last one. -/
structure HoldsAt (n d b : ℕ) (q : QueueT) (p : ℕ) (els : List Bytes) : Prop where
  ring : Ring n d b q p els
  head : HeadAt n d b q p
  tail : TailAt n d b q (p + els.length)

/-- The queue holds the elements, from some position on. -/
def Holds (n d b : ℕ) (q : QueueT) (els : List Bytes) : Prop := ∃ p, HoldsAt n d b q p els

theorem holdsAt_queueInit {pageSize n d : ℕ} {mem : ℕ → UInt8}
    (hfits : n * (sizeofSizeT + d) < sizeTMod) :
    HoldsAt n d (sizeofQueueT + sizeofQueueT % pageSize) (queueInit pageSize n d mem) 0 [] := by
  have hat : HeadAt n d _ (queueInit pageSize n d mem) 0 := headAt_queueInit hfits
  exact ⟨ring_queueInit hfits, hat, .inl hat⟩

theorem holds_queueInit {pageSize n d : ℕ} {mem : ℕ → UInt8}
    (hfits : n * (sizeofSizeT + d) < sizeTMod) :
    Holds n d (sizeofQueueT + sizeofQueueT % pageSize) (queueInit pageSize n d mem) [] :=
  ⟨0, holdsAt_queueInit hfits⟩

theorem length_bytesAt (data : ℕ → UInt8) (n : ℕ) : (bytesAt data n).length = n := by
  rw [bytesAt, List.length_map, List.length_range]

section

variable {n d b : ℕ} {q : QueueT} {els : List Bytes} {given : Bool} {dataSize : ℕ}

/-- The slot lies in the buffer of the queue. -/
def SlotInside (q : QueueT) (a : ℕ) : Prop :=
  ∃ u, a = sizeT (q.bufOffset + u) ∧ u + queueBytesPerElem q ≤ q.bufSize

theorem Layout.slotInside (h : Layout n d b q) (hn : 0 < n) (j : ℕ) :
    SlotInside q (sizeT (slot n d b j)) := by
  refine ⟨(j % n) * (sizeofSizeT + d), by rw [h.bufOffset, slot], ?_⟩
  rw [h.queueBytesPerElem hn, h.bufSize]
  exact slot_offset_lt hn j

/-! ## One call -/

/-- A push that is accepted goes to the slot behind the last element. -/
theorem HoldsAt.push {p : ℕ} (h : HoldsAt n d b q p els) (data : ℕ → UInt8) (shouldWait : Bool)
    (hg : given = true) (hpos : 1 ≤ dataSize) (hle : dataSize ≤ d) (hroom : els.length < n) :
    ∃ q', queuePushCommon q given (some data) dataSize shouldWait =
        some { ret := 0, queue := q',
               touched := some (sizeT (slot n d b (p + els.length)), sizeofSizeT + dataSize) } ∧
      HoldsAt n d b q' p (els ++ [bytesAt data dataSize]) := by
  obtain ⟨hring, hhead, htail⟩ := h
  have hn : 0 < n := Nat.zero_lt_of_lt hroom
  have hnorm := htail.normalized hring.layout hn
  have himage : poke sizeTMod
      (poke sizeTMod q.mem (normalizedTail q) (encodeLE sizeofSizeT dataSize))
      (queueElemData (normalizedTail q)) (bytesAt data dataSize) =
      poke sizeTMod q.mem (slot n d b (p + els.length) + 0) (image (bytesAt data dataSize)) := by
    rw [Nat.add_zero, image, poke_append, length_encodeLE, length_bytesAt, hnorm, queueElemData,
      sizeT, poke_mod, ← poke_mod (a := _ % sizeTMod + _), Nat.mod_add_mod, poke_mod]
  have hlen : (bytesAt data dataSize).length ≤ d := by rwa [length_bytesAt]
  have hfit : (image (bytesAt data dataSize)).length ≤ sizeofSizeT + d := by
    rw [length_image]
    exact Nat.add_le_add_left hlen _
  have hpoked := hring.poke hroom (show 0 + (image (bytesAt data dataSize)).length ≤ _ by
    rwa [Nat.zero_add])
  have hslot : SlotHolds n d b
      (poke sizeTMod q.mem (slot n d b (p + els.length) + 0) (image (bytesAt data dataSize)))
      (p + els.length) (bytesAt data dataSize) := by
    rw [SlotHolds, ← length_image, Nat.add_zero]
    exact peek_poke_self (Nat.le_trans hfit (Nat.le_of_lt (hring.layout.slotSize_lt hn)))
  have hpushed := (hpoked.setOffsets q.headOffset
    (advancedTail { q with tailOffset := normalizedTail q })).push hroom hlen hslot
  refine ⟨_, ?_, hpushed, hhead, ?_⟩
  · rw [queuePushCommon]
    dsimp only
    rw [if_neg, if_neg, queueTail, himage, hnorm]
    · rfl
    · rw [hring.curSize, hring.layout.maxSize]
      exact Nat.ne_of_lt hroom
    · rw [hring.layout.dataMaxSize, hg]
      simp
      omega
  · rw [List.length_append, List.length_singleton, ← Nat.add_assoc]
    exact tailAt_advanced (q := { q with tailOffset := normalizedTail q }) hnorm
      (hring.setOffsets q.headOffset (normalizedTail q)).layout hn rfl

/-- A push that is accepted. -/
theorem Holds.push (h : Holds n d b q els) (data : ℕ → UInt8) (shouldWait : Bool)
    (hg : given = true)
    (hpos : 1 ≤ dataSize) (hle : dataSize ≤ d) (hroom : els.length < n) :
    ∃ q' j, queuePushCommon q given (some data) dataSize shouldWait =
        some { ret := 0, queue := q',
               touched := some (sizeT (slot n d b j), sizeofSizeT + dataSize) } ∧
      Holds n d b q' (els ++ [bytesAt data dataSize]) := by
  obtain ⟨p, h⟩ := h
  obtain ⟨q', hq', hpushed⟩ := h.push data shouldWait hg hpos hle hroom
  exact ⟨q', p + els.length, hq', p, hpushed⟩

/-- A push that returns has appended its element or has left the queue alone. -/
theorem Holds.push_cases {data : ℕ → UInt8} {shouldWait : Bool} {r : Result} (h : Holds n d b q els)
    (hr : queuePushCommon q true (some data) dataSize shouldWait = some r) :
    (r.ret = 0 ∧ Holds n d b r.queue (els ++ [bytesAt data dataSize])) ∨
    (r.ret = -1 ∧ r.queue = q) := by
  have ⟨_, hring, _, _⟩ := h
  by_cases hvalid : 1 ≤ dataSize ∧ dataSize ≤ d
  · by_cases hroom : els.length < n
    · obtain ⟨q', j, hpush, hq'⟩ := h.push data shouldWait rfl hvalid.1 hvalid.2 hroom
      obtain rfl := Option.some.inj (hpush.symm.trans hr)
      exact .inl ⟨rfl, hq'⟩
    · have hfull : q.curSize = q.maxSize := by
        rw [hring.curSize, hring.layout.maxSize]
        exact Nat.le_antisymm hring.le (Nat.le_of_not_lt hroom)
      have hargs : ¬ (true = false ∨ dataSize = 0 ∨ dataSize > q.dataMaxSize) := by
        rw [hring.layout.dataMaxSize]
        simp
        omega
      rw [queuePushCommon] at hr
      dsimp only at hr
      rw [if_neg hargs, if_pos hfull] at hr
      cases shouldWait with
      | true => exact absurd hr (by simp)
      | false =>
        obtain rfl := Option.some.inj hr
        exact .inr ⟨rfl, rfl⟩
  · have hargs : true = false ∨ dataSize = 0 ∨ dataSize > q.dataMaxSize := by
      rw [hring.layout.dataMaxSize]
      omega
    rw [queuePushCommon] at hr
    dsimp only at hr
    rw [if_pos hargs] at hr
    obtain rfl := Option.some.inj hr
    exact .inr ⟨rfl, rfl⟩

/-- A pop whose buffer is large enough. -/
theorem Holds.pop {e : Bytes} {m : ℕ} (h : Holds n d b q (e :: els)) (shouldWait : Bool)
    (hm : e.length ≤ m) :
    ∃ q' j, queuePopCommon q true true (some m) shouldWait =
        some { ret := 0, queue := q', dataSize := some e.length, data := some e,
               touched := some (sizeT (slot n d b j), sizeofSizeT + e.length) } ∧
      Holds n d b q' els := by
  obtain ⟨p, hring, hhead, htail⟩ := h
  have hn : 0 < n := hring.pos
  have hsize : queueElemSize q (queueHead q) = e.length := by
    rw [queueElemSize, queueHead, show q.headOffset = _ from hhead, sizeT, peek_mod,
      hring.front_size]
  have hdata : peek sizeTMod q.mem (queueElemData (queueHead q)) e.length = e := by
    rw [queueElemData, queueHead, show q.headOffset = _ from hhead, sizeT, ← peek_mod,
      Nat.mod_add_mod, peek_mod, hring.front_data]
  have hpopped := (hring.setOffsets (advancedHead q) q.tailOffset).pop
  refine ⟨_, p, ?_, p + 1, hpopped, headAt_advanced hhead hring.layout hn rfl, ?_⟩
  · rw [queuePopCommon]
    dsimp only
    rw [if_neg (by simp), if_neg (by rw [hring.curSize]; exact Nat.succ_ne_zero _), hsize,
      if_neg (Nat.not_lt.mpr hm), hdata, queueHead, show q.headOffset = _ from hhead]
  · rw [List.length_cons, ← Nat.add_assoc, Nat.add_right_comm] at htail
    exact htail

/-- A pop that does not wait for an element. -/
theorem Holds.tryPop_empty {m : ℕ} (h : Holds n d b q []) :
    queueTryPop q true true (some m) = some { ret := -1, queue := q, dataSize := some m } := by
  obtain ⟨p, hring, -, -⟩ := h
  rw [queueTryPop, queuePopCommon]
  dsimp only
  rw [if_neg (by simp), if_pos (show q.curSize = 0 from hring.curSize)]
  rfl

/-- A pop whose buffer is too small. -/
theorem Holds.pop_small {e : Bytes} {m : ℕ} (h : Holds n d b q (e :: els)) (shouldWait : Bool)
    (hm : m < e.length) :
    ∃ j, queuePopCommon q true true (some m) shouldWait =
      some { ret := -1, queue := q, dataSize := some m,
             touched := some (sizeT (slot n d b j), sizeofSizeT) } := by
  obtain ⟨p, hring, hhead, -⟩ := h
  have hsize : queueElemSize q (queueHead q) = e.length := by
    rw [queueElemSize, queueHead, show q.headOffset = _ from hhead, sizeT, peek_mod,
      hring.front_size]
  refine ⟨p, ?_⟩
  rw [queuePopCommon]
  dsimp only
  rw [if_neg (by simp), if_neg (by rw [hring.curSize]; exact Nat.succ_ne_zero _), hsize, if_pos hm,
    queueHead, show q.headOffset = _ from hhead]

end

/-- A call is carried out exactly when the bounded queue accepts it, a pop yields the first element,
a refused call changes nothing, and a slot that is accessed lies in the buffer. -/
structure Refines (n d : ℕ) (q : QueueT) (els : List Bytes) (c : Call) (r : Result) : Prop where
  accepted : Accepts n d els c → r.ret = 0
  refused : ¬ Accepts n d els c → r.ret = -1
  popped : ∀ given data dataSize, c = .pop given data dataSize → r.ret = 0 →
    ∃ e ∈ els.head?, r.data = some e ∧ r.dataSize = some e.length
  unchanged : r.ret = -1 → r.queue = q ∧ r.dataSize = c.sizeBefore ∧ r.data = none
  inside : ∀ a k, r.touched = some (a, k) → SlotInside q a ∧ k ≤ queueBytesPerElem q

section

variable {n d b : ℕ} {q : QueueT} {els : List Bytes} {c : Call}

/-- A call that returns at once without touching a slot. -/
theorem refines_failed (hc : ¬ Accepts n d els c) :
    Refines n d q els c { ret := -1, queue := q, dataSize := c.sizeBefore } :=
  ⟨fun h => absurd h hc, fun _ => rfl, fun _ _ _ _ h => absurd h (by decide : (-1 : Int) ≠ 0),
    fun _ => ⟨rfl, rfl, rfl⟩, fun _ _ h => by simp at h⟩

theorem after_of_not_accepts (hc : ¬ Accepts n d els c) : after n d els c = els := if_neg hc

/-- A call that returns `-1` before it touches a slot. -/
theorem Holds.failed (h : Holds n d b q els) (hc : ¬ Accepts n d els c)
    (heq : tryPerform q c = some { ret := -1, queue := q, dataSize := c.sizeBefore }) :
    ∃ r, tryPerform q c = some r ∧ Holds n d b r.queue (after n d els c) ∧
      Refines n d q els c r := by
  refine ⟨_, heq, ?_, refines_failed hc⟩
  rw [after_of_not_accepts hc]
  exact h

theorem Holds.perform_push (h : Holds n d b q els) (given : Bool) (data : Option (ℕ → UInt8))
    (dataSize : ℕ) :
    ∃ r, tryPerform q (.push given data dataSize) = some r ∧
      Holds n d b r.queue (after n d els (.push given data dataSize)) ∧
      Refines n d q els (.push given data dataSize) r := by
  have ⟨_, hring, _, _⟩ := h
  by_cases hc : Accepts n d els (.push given data dataSize)
  · obtain ⟨hg, hsome, hpos, hle, hroom⟩ := hc
    obtain ⟨data, rfl⟩ := Option.isSome_iff_exists.mp hsome
    have hn : 0 < n := Nat.zero_lt_of_lt hroom
    obtain ⟨q', j, heq, hq'⟩ := h.push data false hg hpos hle hroom
    refine ⟨_, heq, ?_, fun _ => rfl, fun hnot => absurd ⟨hg, hsome, hpos, hle, hroom⟩ hnot,
      fun _ _ _ hpop => by simp at hpop, fun hret => absurd hret (by decide : (0 : Int) ≠ -1),
      fun a k hak => ?_⟩
    · rw [after, if_pos ⟨hg, hsome, hpos, hle, hroom⟩]
      exact hq'
    · obtain ⟨rfl, rfl⟩ := Prod.mk.inj (Option.some.inj hak)
      exact ⟨hring.layout.slotInside hn j, by
        rw [hring.layout.queueBytesPerElem hn]
        exact Nat.add_le_add_left hle _⟩
  · refine h.failed hc ?_
    rw [tryPerform, queueTryPush, queuePushCommon.eq_def]
    cases data with
    | none => rfl
    | some data =>
      dsimp only
      by_cases hv : given = false ∨ dataSize = 0 ∨ dataSize > q.dataMaxSize
      · rw [if_pos hv]
        rfl
      · have hfull : q.curSize = q.maxSize := by
          rw [hring.layout.dataMaxSize] at hv
          rw [hring.curSize, hring.layout.maxSize]
          have hroom : ¬ els.length < n := fun hroom =>
            hc ⟨by simpa using fun hg => hv (.inl hg), rfl, by omega, by omega, hroom⟩
          have := hring.le
          omega
        rw [if_neg hv, if_pos hfull]
        rfl

theorem Holds.perform_pop (h : Holds n d b q els) (given data : Bool) (dataSize : Option ℕ) :
    ∃ r, tryPerform q (.pop given data dataSize) = some r ∧
      Holds n d b r.queue (after n d els (.pop given data dataSize)) ∧
      Refines n d q els (.pop given data dataSize) r := by
  have ⟨_, hring, _, _⟩ := h
  cases dataSize with
  | none => exact h.failed (fun hc => by simp [Accepts] at hc) rfl
  | some m =>
    by_cases hv : given = false ∨ data = false
    · refine h.failed (fun hc => ?_) ?_
      · rcases hv with hv | hv
        · exact absurd hc.1 (by simp [hv])
        · exact absurd hc.2.1 (by simp [hv])
      · rw [tryPerform, queueTryPop, queuePopCommon]
        exact if_pos hv
    · obtain ⟨rfl, rfl⟩ : given = true ∧ data = true := by simpa using hv
      cases els with
      | nil => exact h.failed (fun hc => by simp [Accepts] at hc) h.tryPop_empty
      | cons e rest =>
        have hn : 0 < n := hring.pos
        have hsize : e.length ≤ d := hring.size_le e List.mem_cons_self
        by_cases hm : e.length ≤ m
        · have hc : Accepts n d (e :: rest) (.pop true true (some m)) :=
            ⟨rfl, rfl, e, rfl, m, rfl, hm⟩
          obtain ⟨q', j, heq, hq'⟩ := h.pop false hm
          refine ⟨_, heq, ?_, fun _ => rfl, fun hnot => absurd hc hnot,
            fun _ _ _ _ _ => ⟨e, rfl, rfl, rfl⟩,
            fun hret => absurd hret (by decide : (0 : Int) ≠ -1), fun a k hak => ?_⟩
          · rw [after, if_pos hc]
            exact hq'
          · obtain ⟨rfl, rfl⟩ := Prod.mk.inj (Option.some.inj hak)
            exact ⟨hring.layout.slotInside hn j, by
              rw [hring.layout.queueBytesPerElem hn]
              exact Nat.add_le_add_left hsize _⟩
        · have hc : ¬ Accepts n d (e :: rest) (.pop true true (some m)) := by
            simpa [Accepts] using hm
          obtain ⟨j, heq⟩ := h.pop_small false (Nat.lt_of_not_le hm)
          refine ⟨_, heq, ?_, fun hyes => absurd hyes hc, fun _ => rfl,
            fun _ _ _ _ hret => absurd hret (by decide : (-1 : Int) ≠ 0),
            fun _ => ⟨rfl, rfl, rfl⟩, fun a k hak => ?_⟩
          · rw [after_of_not_accepts hc]
            exact h
          · obtain ⟨rfl, rfl⟩ := Prod.mk.inj (Option.some.inj hak)
            exact ⟨hring.layout.slotInside hn j, by
              rw [hring.layout.queueBytesPerElem hn]
              exact Nat.le_add_right _ _⟩

/-- **One call.** -/
theorem Holds.perform (h : Holds n d b q els) (c : Call) :
    ∃ r, tryPerform q c = some r ∧ Holds n d b r.queue (after n d els c) ∧
      Refines n d q els c r := by
  cases c with
  | push given data dataSize => exact h.perform_push given data dataSize
  | pop given data dataSize => exact h.perform_pop given data dataSize

/-- Any number of calls. -/
theorem Holds.run (h : Holds n d b q els) (calls : List Call) :
    ∃ q', Foundations.run tryStep q calls = some q' ∧
      Holds n d b q' (calls.foldl (after n d) els) := by
  induction calls generalizing q els with
  | nil => exact ⟨q, rfl, h⟩
  | cons c calls ih =>
    obtain ⟨r, hr, hq, -⟩ := h.perform c
    obtain ⟨q', hrun, hq'⟩ := ih hq
    refine ⟨q', ?_, hq'⟩
    rw [run_cons, tryStep, hr]
    exact hrun

/-! ## Waiting -/

/-- A call with valid arguments waits when there is no room, or no element. -/
theorem Holds.waits (h : Holds n d b q els) (hv : c.Valid d) (hb : c.Blocked n els) :
    waitPerform q c = none := by
  have ⟨_, hring, _, _⟩ := h
  cases c with
  | push given data dataSize =>
    obtain ⟨hg, hsome, hpos, hle⟩ := hv
    obtain ⟨data, rfl⟩ := Option.isSome_iff_exists.mp hsome
    have hfull : q.curSize = q.maxSize := by
      rw [hring.curSize, hring.layout.maxSize]
      exact hb
    rw [waitPerform, queuePush, queuePushCommon]
    dsimp only
    rw [if_neg, if_pos hfull, if_pos rfl]
    rw [hring.layout.dataMaxSize, hg]
    simp
    omega
  | pop given data dataSize =>
    obtain ⟨hg, hd, hsome⟩ := hv
    obtain ⟨m, rfl⟩ := Option.isSome_iff_exists.mp hsome
    have hempty : q.curSize = 0 := by
      rw [hring.curSize, show els = [] from hb]
      rfl
    rw [waitPerform, queuePop, queuePopCommon]
    dsimp only
    rw [if_neg (by simp [hg, hd]), if_pos hempty, if_pos rfl]

/-- Every other call does not wait, and does what the operation does that never waits. -/
theorem Holds.agrees (h : Holds n d b q els) (hc : ¬ (c.Valid d ∧ c.Blocked n els)) :
    waitPerform q c = tryPerform q c := by
  have ⟨_, hring, _, _⟩ := h
  cases c with
  | push given data dataSize =>
    rw [waitPerform, tryPerform, queuePush, queueTryPush, queuePushCommon.eq_def,
      queuePushCommon.eq_def]
    cases data with
    | none => rfl
    | some data =>
      dsimp only
      by_cases hv : given = false ∨ dataSize = 0 ∨ dataSize > q.dataMaxSize
      · rw [if_pos hv, if_pos hv]
      · have hroom : ¬ q.curSize = q.maxSize := fun hfull => by
          rw [hring.layout.dataMaxSize] at hv
          rw [hring.curSize, hring.layout.maxSize] at hfull
          exact hc ⟨⟨by simpa using fun hg => hv (.inl hg), rfl, by omega, by omega⟩, hfull⟩
        rw [if_neg hv, if_neg hv, if_neg hroom, if_neg hroom]
  | pop given data dataSize =>
    rw [waitPerform, tryPerform, queuePop, queueTryPop, queuePopCommon.eq_def,
      queuePopCommon.eq_def]
    cases dataSize with
    | none => rfl
    | some m =>
      dsimp only
      by_cases hv : given = false ∨ data = false
      · rw [if_pos hv, if_pos hv]
      · have hsome : ¬ q.curSize = 0 := fun hempty => by
          rw [hring.curSize, List.length_eq_zero_iff] at hempty
          obtain ⟨hg, hd⟩ : given = true ∧ data = true := by simpa using hv
          exact hc ⟨⟨hg, hd, rfl⟩, hempty⟩
        rw [if_neg hv, if_neg hv, if_neg hsome, if_neg hsome]

end

end Queue

end CloudTiering
