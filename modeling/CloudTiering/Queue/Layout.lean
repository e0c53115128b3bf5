import CloudTiering.Foundations.LittleEndian
import CloudTiering.Foundations.SlotMemory
import CloudTiering.System.World

/-!
# `queue.h`, `queue.c`: the queue in shared memory

The fields of `queue_t` that the queue operations read and write, the bytes behind it, and the
accessors of `queue.c`.  A pointer into the region is an offset from the queue pointer, and `size_t`
arithmetic is modulo `2 ^ 64`.

* `bufSize`, `totalSizeAligned`: the sizes in `queue_init`; `unreduced`: the total size, without
  reduction.
* `QueueT`, `queueInit` and the accessors.
* `Layout`: the fields that `queue_init` sets and nothing changes.
* `image`, `SlotHolds`: the bytes of an element in its slot.
* `HeadAt`, `TailAt`: the two offsets, as the position of an element in the endless sequence of all
  elements.  The head wraps around at once, the tail may rest at the end of the buffer.
* `Ring`: the elements that are in the queue, and what each step of a push or a pop does to them.
-/

namespace CloudTiering

open Foundations

namespace Queue

/-! ## The data -/

/-- The number of values of a `size_t`. -/
def sizeTMod : ℕ := 2 ^ 64

/-- The result of an arithmetic operation on `size_t`. -/
def sizeT (n : ℕ) : ℕ := n % sizeTMod

/-- `sizeof(size_t)`. -/
def sizeofSizeT : ℕ := 8

/-- `sizeof(queue_t)`. -/
def sizeofQueueT : ℕ := 536

/-- `buf_size`. -/
def bufSize (maxSize dataMaxSize : ℕ) : ℕ := sizeT (sizeT (sizeofSizeT + dataMaxSize) * maxSize)

/-- `queue_t_size_aligned`: twice the size of `queue_t` is far below `2 ^ 64`. -/
def queueTSizeAligned (pageSize : ℕ) : ℕ := sizeofQueueT + sizeofQueueT % pageSize

/-- `buf_size_aligned`. -/
def bufSizeAligned (pageSize maxSize dataMaxSize : ℕ) : ℕ :=
  sizeT (bufSize maxSize dataMaxSize + bufSize maxSize dataMaxSize % pageSize)

/-- `total_size_aligned`. -/
def totalSizeAligned (pageSize maxSize dataMaxSize : ℕ) : ℕ :=
  sizeT (queueTSizeAligned pageSize + bufSizeAligned pageSize maxSize dataMaxSize)

/-- The total size without reduction. -/
def unreduced (pageSize maxSize dataMaxSize : ℕ) : ℕ :=
  sizeofQueueT + sizeofQueueT % pageSize +
    (maxSize * (sizeofSizeT + dataMaxSize) + maxSize * (sizeofSizeT + dataMaxSize) % pageSize)

/-- `queue_t`, without the mutexes, the conditions and `shm_obj`, and the memory behind it. -/
structure QueueT where
  headOffset : ℕ
  tailOffset : ℕ
  curSize : ℕ
  maxSize : ℕ
  dataMaxSize : ℕ
  totalSize : ℕ
  bufOffset : ℕ
  bufSize : ℕ
  mem : ℕ → UInt8

/-- `queue_init`, as far as the operations are concerned; `mem` is the mapped memory. -/
def queueInit (pageSize maxSize dataMaxSize : ℕ) (mem : ℕ → UInt8) : QueueT :=
  { maxSize := maxSize
    curSize := 0
    dataMaxSize := dataMaxSize
    totalSize := totalSizeAligned pageSize maxSize dataMaxSize
    bufSize := bufSize maxSize dataMaxSize
    bufOffset := queueTSizeAligned pageSize
    headOffset := queueTSizeAligned pageSize
    tailOffset := queueTSizeAligned pageSize
    mem := mem }

/-- `queue_bytes_per_elem`. -/
def queueBytesPerElem (queue : QueueT) : ℕ := sizeT (sizeofSizeT + queue.dataMaxSize)

/-- `queue_elem_size`. -/
def queueElemSize (queue : QueueT) (elem : ℕ) : ℕ :=
  decodeLE (peek sizeTMod queue.mem elem sizeofSizeT)

/-- `queue_elem_data`. -/
def queueElemData (elem : ℕ) : ℕ := elem + sizeofSizeT

/-- `queue_head`. -/
def queueHead (queue : QueueT) : ℕ := queue.headOffset

/-- `queue_tail`. -/
def queueTail (queue : QueueT) : ℕ := queue.tailOffset

/-- `queue->tail_offset`, where a beginning and an end of the buffer are logically identical. -/
def normalizedTail (queue : QueueT) : ℕ :=
  if queue.tailOffset = sizeT (queue.bufOffset + queue.bufSize) then queue.bufOffset
  else queue.tailOffset

/-- `queue->tail_offset += queue_bytes_per_elem(queue)`. -/
def advancedTail (queue : QueueT) : ℕ := sizeT (queue.tailOffset + queueBytesPerElem queue)

/-- The next value of `queue->head_offset`. -/
def advancedHead (queue : QueueT) : ℕ :=
  if queue.headOffset =
      sizeT (queue.bufOffset + queue.bufSize + (sizeTMod - queueBytesPerElem queue)) then
    queue.bufOffset
  else sizeT (queue.headOffset + queueBytesPerElem queue)

/-- `queue->cur_size++`. -/
def countedIn (queue : QueueT) : ℕ := sizeT (queue.curSize + 1)

/-- `queue->cur_size--`. -/
def countedOut (queue : QueueT) : ℕ :=
  if queue.curSize = 0 then sizeTMod - 1 else queue.curSize - 1

/-- An element as it stands in its slot: its size, then its data. -/
def image (e : Bytes) : Bytes := encodeLE sizeofSizeT e.length ++ e

/-! ## The layout -/

/-- The fields that are set once: `n` slots for elements of at most `d` bytes, from offset `b` on.
The size of the buffer does not overflow. -/
structure Layout (n d b : ℕ) (q : QueueT) : Prop where
  maxSize : q.maxSize = n
  dataMaxSize : q.dataMaxSize = d
  bufOffset : q.bufOffset = b
  bufSize : q.bufSize = n * (sizeofSizeT + d)
  fits : n * (sizeofSizeT + d) < sizeTMod
  base : b < sizeTMod

/-- The address of slot `j`, before reduction. -/
def slot (n d b j : ℕ) : ℕ := b + (j % n) * (sizeofSizeT + d)

/-- The slot of position `j` holds the element `e`. -/
def SlotHolds (n d b : ℕ) (mem : ℕ → UInt8) (j : ℕ) (e : Bytes) : Prop :=
  peek sizeTMod mem (slot n d b j) (sizeofSizeT + e.length) = image e

/-- The head is at position `j`. -/
def HeadAt (n d b : ℕ) (q : QueueT) (j : ℕ) : Prop := q.headOffset = sizeT (slot n d b j)

/-- The tail is at position `j`. -/
def TailAt (n d b : ℕ) (q : QueueT) (j : ℕ) : Prop :=
  q.tailOffset = sizeT (slot n d b j) ∨
    (j % n = 0 ∧ q.tailOffset = sizeT (b + n * (sizeofSizeT + d)))

section

variable {n d b : ℕ} {q : QueueT}

/-- Where there is a slot, the size of a slot is not reduced. -/
theorem Layout.slotSize_lt (h : Layout n d b q) (hn : 0 < n) : sizeofSizeT + d < sizeTMod :=
  Nat.lt_of_le_of_lt (Nat.le_mul_of_pos_left _ hn) h.fits

theorem Layout.queueBytesPerElem (h : Layout n d b q) (hn : 0 < n) :
    queueBytesPerElem q = sizeofSizeT + d := by
  rw [Queue.queueBytesPerElem, h.dataMaxSize, sizeT, Nat.mod_eq_of_lt (h.slotSize_lt hn)]

/-- Without reduction the size of the buffer and the total size are what they are meant to be. -/
theorem totalSizeAligned_of_unreduced {pageSize : ℕ} (h : unreduced pageSize n d < sizeTMod) :
    n * (sizeofSizeT + d) < sizeTMod ∧ totalSizeAligned pageSize n d = unreduced pageSize n d := by
  have hfits : n * (sizeofSizeT + d) < sizeTMod := by
    rw [unreduced] at h
    omega
  have hbuf : bufSize n d = n * (sizeofSizeT + d) := by
    rw [bufSize, sizeT, sizeT, Nat.mod_mul_mod, Nat.mul_comm, Nat.mod_eq_of_lt hfits]
  have haligned : bufSizeAligned pageSize n d =
      n * (sizeofSizeT + d) + n * (sizeofSizeT + d) % pageSize := by
    rw [bufSizeAligned, hbuf, sizeT, Nat.mod_eq_of_lt]
    rw [unreduced] at h
    omega
  refine ⟨hfits, ?_⟩
  rw [totalSizeAligned, haligned, queueTSizeAligned, sizeT]
  exact Nat.mod_eq_of_lt h

theorem layout_queueInit {pageSize maxSize dataMaxSize : ℕ} {mem : ℕ → UInt8}
    (hfits : maxSize * (sizeofSizeT + dataMaxSize) < sizeTMod) :
    Layout maxSize dataMaxSize (sizeofQueueT + sizeofQueueT % pageSize)
      (queueInit pageSize maxSize dataMaxSize mem) := by
  refine ⟨rfl, rfl, rfl, ?_, hfits, ?_⟩
  · show sizeT (sizeT (sizeofSizeT + dataMaxSize) * maxSize) = _
    rw [sizeT, sizeT, Nat.mod_mul_mod, Nat.mul_comm, Nat.mod_eq_of_lt hfits]
  · have := Nat.mod_le sizeofQueueT pageSize
    have hsize : sizeofQueueT + sizeofQueueT < sizeTMod := by decide
    omega

/-! ## The offsets -/

/-- Two distances from the base that do not exceed the size of the buffer give different offsets. -/
theorem Layout.eq_of_sizeT_eq (h : Layout n d b q) {u v : ℕ} (hu : u ≤ n * (sizeofSizeT + d))
    (hv : v ≤ n * (sizeofSizeT + d)) (heq : sizeT (b + u) = sizeT (b + v)) : u = v := by
  rw [sizeT, sizeT] at heq
  exact eq_of_mod_eq (Nat.lt_of_le_of_lt hu h.fits) (Nat.lt_of_le_of_lt hv h.fits) heq

theorem slot_offset_lt (hn : 0 < n) (j : ℕ) :
    (j % n) * (sizeofSizeT + d) + (sizeofSizeT + d) ≤ n * (sizeofSizeT + d) := by
  rw [← Nat.succ_mul]
  exact Nat.mul_le_mul_right _ (Nat.mod_lt _ hn)

/-- The next position is the next slot, or the first one. -/
theorem succ_mod (hn : 0 < n) (j : ℕ) :
    (j % n + 1 < n ∧ (j + 1) % n = j % n + 1) ∨ (j % n + 1 = n ∧ (j + 1) % n = 0) := by
  have hlt := Nat.mod_lt j hn
  rw [Nat.add_mod, Nat.add_mod_mod] at *
  by_cases h : j % n + 1 < n
  · exact .inl ⟨h, Nat.mod_eq_of_lt h⟩
  · have : j % n + 1 = n := by omega
    exact .inr ⟨this, by rw [this, Nat.mod_self]⟩

/-- After normalization the tail is at its slot. -/
theorem TailAt.normalized {j : ℕ} (h : TailAt n d b q j) (hl : Layout n d b q) (hn : 0 < n) :
    normalizedTail q = sizeT (slot n d b j) := by
  rw [normalizedTail, hl.bufOffset, hl.bufSize]
  have hend := slot_offset_lt (d := d) hn j
  have hpos : 0 < sizeofSizeT + d := Nat.add_pos_left (by decide) d
  rcases h with h | ⟨hj, h⟩
  · rw [h, if_neg fun heq => ?_]
    have := hl.eq_of_sizeT_eq (Nat.le_trans (Nat.le_add_right _ _) hend) (Nat.le_refl _) heq
    omega
  · rw [if_pos h, slot, hj, Nat.zero_mul, Nat.add_zero, sizeT, Nat.mod_eq_of_lt hl.base]

/-- Advancing the tail leads to the next position, perhaps at the end of the buffer. -/
theorem tailAt_advanced {j : ℕ} (h : q.tailOffset = sizeT (slot n d b j)) (hl : Layout n d b q)
    (hn : 0 < n) {q' : QueueT} (hq' : q'.tailOffset = advancedTail q) :
    TailAt n d b q' (j + 1) := by
  have hadv : advancedTail q = sizeT (b + (j % n + 1) * (sizeofSizeT + d)) := by
    rw [advancedTail, hl.queueBytesPerElem hn, h, sizeT, sizeT, sizeT, Nat.mod_add_mod, slot,
      Nat.add_assoc, Nat.succ_mul]
  rw [TailAt, hq', hadv, slot]
  rcases succ_mod hn j with ⟨-, hs⟩ | ⟨hs, h0⟩
  · rw [hs]
    exact .inl rfl
  · rw [hs]
    exact .inr ⟨h0, rfl⟩

/-- Advancing the head leads to the slot of the next position. -/
theorem headAt_advanced {j : ℕ} (h : HeadAt n d b q j) (hl : Layout n d b q) (hn : 0 < n)
    {q' : QueueT} (hq' : q'.headOffset = advancedHead q) : HeadAt n d b q' (j + 1) := by
  have hpos : 0 < sizeofSizeT + d := Nat.add_pos_left (by decide) d
  have hlast : n * (sizeofSizeT + d) = (n - 1) * (sizeofSizeT + d) + (sizeofSizeT + d) := by
    rw [← Nat.succ_mul, Nat.succ_eq_add_one, Nat.sub_add_cancel hn]
  have hsize := hl.slotSize_lt hn
  -- the offset of the last slot, as the code computes it
  have hback : sizeT (q.bufOffset + q.bufSize + (sizeTMod - queueBytesPerElem q)) =
      sizeT (b + (n - 1) * (sizeofSizeT + d)) := by
    rw [hl.bufOffset, hl.bufSize, hl.queueBytesPerElem hn, hlast, sizeT, sizeT]
    have hsum : b + ((n - 1) * (sizeofSizeT + d) + (sizeofSizeT + d)) +
        (sizeTMod - (sizeofSizeT + d)) = b + (n - 1) * (sizeofSizeT + d) + sizeTMod := by omega
    rw [hsum, Nat.add_mod_right]
  have hle : ∀ k < n, k * (sizeofSizeT + d) ≤ n * (sizeofSizeT + d) := fun k hk =>
    Nat.mul_le_mul_right _ (Nat.le_of_lt hk)
  rw [HeadAt, hq', advancedHead, hback, show q.headOffset = _ from h, hl.bufOffset,
    hl.queueBytesPerElem hn, slot, slot]
  rcases succ_mod hn j with ⟨hlt, hs⟩ | ⟨heq, h0⟩
  · rw [if_neg fun heq => ?_, hs, sizeT, sizeT, Nat.mod_add_mod, Nat.succ_mul, Nat.add_assoc, sizeT]
    have := hl.eq_of_sizeT_eq (hle _ (Nat.mod_lt j hn)) (hle _ (Nat.sub_lt hn Nat.one_pos)) heq
    have := Nat.eq_of_mul_eq_mul_right hpos this
    omega
  · have hj : j % n = n - 1 := by omega
    rw [if_pos (by rw [hj]), h0, Nat.zero_mul, Nat.add_zero, sizeT, Nat.mod_eq_of_lt hl.base]

/-! ## The elements -/

theorem length_image (e : Bytes) : (image e).length = sizeofSizeT + e.length := by
  rw [image, List.length_append, length_encodeLE]

/-- The size in front of an element is read back. -/
theorem decodeLE_take_image {e : Bytes} (h : e.length < sizeTMod) :
    decodeLE ((image e).take sizeofSizeT) = e.length := by
  rw [image, List.take_left' (length_encodeLE _ _), decodeLE_encodeLE_of_lt]
  exact h

theorem drop_image (e : Bytes) : (image e).drop sizeofSizeT = e := by
  rw [image, List.drop_left' (length_encodeLE _ _)]

/-- The queue holds `els`, the first one at position `p`. -/
structure Ring (n d b : ℕ) (q : QueueT) (p : ℕ) (els : List Bytes) : Prop where
  layout : Layout n d b q
  curSize : q.curSize = els.length
  le : els.length ≤ n
  slots : ∀ k e, els[k]? = some e → SlotHolds n d b q.mem (p + k) e
  size_le : ∀ e ∈ els, e.length ≤ d

variable {p : ℕ} {els : List Bytes} {e : Bytes}

theorem Ring.pos (h : Ring n d b q p (e :: els)) : 0 < n :=
  Nat.lt_of_lt_of_le (Nat.succ_pos _) h.le

theorem Ring.size_lt (h : Ring n d b q p els) (hn : 0 < n) (he : e.length ≤ d) :
    e.length < sizeTMod := by
  have := h.layout.slotSize_lt hn
  omega

/-- The queue is empty at first. -/
theorem ring_queueInit {pageSize maxSize dataMaxSize : ℕ} {mem : ℕ → UInt8}
    (hfits : maxSize * (sizeofSizeT + dataMaxSize) < sizeTMod) :
    Ring maxSize dataMaxSize (sizeofQueueT + sizeofQueueT % pageSize)
      (queueInit pageSize maxSize dataMaxSize mem) 0 [] :=
  ⟨layout_queueInit hfits, rfl, Nat.zero_le _, fun k e hk => by simp at hk,
    fun e he => by simp at he⟩

/-- Both offsets are at the beginning of the buffer at first. -/
theorem headAt_queueInit {pageSize maxSize dataMaxSize : ℕ} {mem : ℕ → UInt8}
    (hfits : maxSize * (sizeofSizeT + dataMaxSize) < sizeTMod) :
    HeadAt maxSize dataMaxSize (sizeofQueueT + sizeofQueueT % pageSize)
      (queueInit pageSize maxSize dataMaxSize mem) 0 := by
  have hl : Layout maxSize dataMaxSize _ (queueInit pageSize maxSize dataMaxSize mem) :=
    layout_queueInit hfits
  show sizeofQueueT + sizeofQueueT % pageSize = _
  rw [slot, Nat.zero_mod, Nat.zero_mul, Nat.add_zero, sizeT, Nat.mod_eq_of_lt hl.base]

/-- The offsets of the queue say nothing about the elements. -/
theorem Ring.setOffsets (h : Ring n d b q p els) (x y : ℕ) :
    Ring n d b { q with headOffset := x, tailOffset := y } p els :=
  ⟨⟨h.layout.1, h.layout.2, h.layout.3, h.layout.4, h.layout.5, h.layout.6⟩, h.curSize,
    h.le, h.slots, h.size_le⟩

/-- The size of the front element. -/
theorem Ring.front_size (h : Ring n d b q p (e :: els)) :
    decodeLE (peek sizeTMod q.mem (slot n d b p) sizeofSizeT) = e.length := by
  have hslot := h.slots 0 e rfl
  rw [SlotHolds, Nat.add_zero] at hslot
  rw [← take_peek (Nat.le_add_right sizeofSizeT e.length), hslot,
    decodeLE_take_image (h.size_lt h.pos (h.size_le e List.mem_cons_self))]

/-- The bytes of the front element. -/
theorem Ring.front_data (h : Ring n d b q p (e :: els)) :
    peek sizeTMod q.mem (slot n d b p + sizeofSizeT) e.length = e := by
  have hslot := h.slots 0 e rfl
  rw [SlotHolds, Nat.add_zero] at hslot
  rw [← Nat.add_sub_cancel_left (n := sizeofSizeT) (m := e.length),
    ← drop_peek (Nat.le_add_right sizeofSizeT e.length), hslot, drop_image]

/-- The slots of two positions in the queue are apart. -/
theorem Layout.apart {i j : ℕ} (h : Layout n d b q) (hij : i < j) (hj : j < i + n) :
    Apart sizeTMod (slot n d b i) (sizeofSizeT + d) (slot n d b j) (sizeofSizeT + d) := by
  have hn : 0 < n := by omega
  exact apart_slots (Nat.le_of_lt h.fits) (Nat.mod_lt _ hn) (Nat.mod_lt _ hn) (mod_ne_mod hij hj)

/-- Writing inside the free slot behind the last element leaves the elements alone. -/
theorem Ring.poke (h : Ring n d b q p els) (hroom : els.length < n) {x : ℕ} {bs : Bytes}
    (hx : x + bs.length ≤ sizeofSizeT + d) :
    Ring n d b
      { q with mem := poke sizeTMod q.mem (slot n d b (p + els.length) + x) bs } p els := by
  refine ⟨⟨h.layout.1, h.layout.2, h.layout.3, h.layout.4, h.layout.5, h.layout.6⟩, h.curSize, h.le,
    fun k e hk => ?_, h.size_le⟩
  obtain ⟨hlt, rfl⟩ := List.getElem?_eq_some_iff.mp hk
  have hap := h.layout.apart (i := p + k) (j := p + els.length) (by omega) (by omega)
  have hsize : 0 + (sizeofSizeT + els[k].length) ≤ sizeofSizeT + d := by
    rw [Nat.zero_add]
    exact Nat.add_le_add_left (h.size_le _ (List.getElem_mem hlt)) _
  have hsub := hap.sub hsize hx
  rw [Nat.add_zero] at hsub
  exact (peek_poke_of_apart hsub).trans (h.slots k _ hk)

/-- Counting the element behind the last one. -/
theorem Ring.push (h : Ring n d b q p els) (hroom : els.length < n) (he : e.length ≤ d)
    (hslot : SlotHolds n d b q.mem (p + els.length) e) :
    Ring n d b { q with curSize := countedIn q } p (els ++ [e]) := by
  have hn : els.length + 1 < sizeTMod := by
    have := Nat.le_mul_of_pos_right n (Nat.add_pos_left (by decide : 0 < sizeofSizeT) d)
    have := h.layout.fits
    omega
  refine ⟨⟨h.layout.1, h.layout.2, h.layout.3, h.layout.4, h.layout.5, h.layout.6⟩, ?_, ?_,
    fun k f hk => ?_, fun f hf => ?_⟩
  · show countedIn q = _
    rw [countedIn, h.curSize, List.length_append, sizeT, Nat.mod_eq_of_lt hn]
    rfl
  · rw [List.length_append]
    exact hroom
  · by_cases hk' : k < els.length
    · rw [List.getElem?_append_left hk'] at hk
      exact h.slots k f hk
    · rw [List.getElem?_append_right (by omega)] at hk
      have hk0 : k = els.length := by
        have := (List.getElem?_eq_some_iff.mp hk).1
        rw [List.length_singleton] at this
        omega
      subst hk0
      rw [Nat.sub_self] at hk
      obtain rfl := Option.some.inj hk
      exact hslot
  · rcases List.mem_append.mp hf with hf | hf
    · exact h.size_le f hf
    · rw [List.mem_singleton.mp hf]
      exact he

/-- Counting the front element out. -/
theorem Ring.pop (h : Ring n d b q p (e :: els)) :
    Ring n d b { q with curSize := countedOut q } (p + 1) els := by
  refine ⟨⟨h.layout.1, h.layout.2, h.layout.3, h.layout.4, h.layout.5, h.layout.6⟩, ?_, ?_,
    fun k f hk => ?_, fun f hf => h.size_le f (List.mem_cons_of_mem _ hf)⟩
  · have hsize : q.curSize = els.length + 1 := h.curSize
    show countedOut q = _
    rw [countedOut, hsize, if_neg (Nat.succ_ne_zero _), Nat.add_sub_cancel]
  · exact Nat.le_of_succ_le h.le
  · have := h.slots (k + 1) f hk
    rwa [← Nat.add_assoc, Nat.add_right_comm] at this

end

end Queue

end CloudTiering
