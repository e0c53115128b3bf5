import CloudTiering.Queue.Sequential

/-!
# `queue_init`: the sizes

The sizes in `queue_init` are sums, a product and remainders of `size_t` values, none of which is
checked.  Whatever comes out is mapped, and the fields are set from the same values.

* `queueInitMapped`: `queue_init` with the mapping.
* `Roomy`: the buffer has its full size, its slots lie in the mapped memory behind the header, apart
  from each other, and as many elements as the queue is for are kept.
* `roomy_iff`: a queue that has been mapped is roomy exactly if the total size does not need
  reduction.
-/

namespace CloudTiering

open Foundations

namespace Queue

/-! ## The mapping -/

/-- `queue_init`: the queue and `queue->total_size`, if the memory can be mapped; `mmap` tells which
lengths can. -/
def queueInitMapped (mmap : ℕ → Bool) (pageSize maxSize dataMaxSize : ℕ) (mem : ℕ → UInt8) :
    Option (QueueT × ℕ) :=
  if mmap (totalSizeAligned pageSize maxSize dataMaxSize) then
    some (queueInit pageSize maxSize dataMaxSize mem, totalSizeAligned pageSize maxSize dataMaxSize)
  else none

/-! ## What a queue is for -/

/-- The push of an element. -/
def pushOf (e : Bytes) : Call := .push true (some fun i => e.getD i 0) e.length

/-- The elements that `k` pops yield, with a buffer of `m` bytes. -/
def popAll (m : ℕ) : ℕ → QueueT → List Bytes
  | 0, _ => []
  | k + 1, q => (queueTryPop q true true (some m)).elim [] fun r =>
      r.data.elim [] fun e => e :: popAll m k r.queue

/-- Pushed in a row, `n` elements are kept. -/
def KeepsAll (n d : ℕ) (q : QueueT) : Prop :=
  ∀ es : List Bytes, es.length = n → (∀ e ∈ es, 1 ≤ e.length ∧ e.length ≤ d) →
    ∃ q', run tryStep q (es.map pushOf) = some q' ∧ popAll d n q' = es

/-- A queue in a region of `total` bytes has room for `n` elements of at most `d` bytes. -/
structure Roomy (n d total : ℕ) (q : QueueT) : Prop where
  bufSize : q.bufSize = n * (sizeofSizeT + d)
  behind : ∀ j < n, sizeofQueueT ≤ q.bufOffset + j * (sizeofSizeT + d)
  inside : ∀ j < n, q.bufOffset + j * (sizeofSizeT + d) + (sizeofSizeT + d) ≤ total
  disjoint : ∀ i j, i < j → j < n →
    q.bufOffset + i * (sizeofSizeT + d) + (sizeofSizeT + d) ≤ q.bufOffset + j * (sizeofSizeT + d)
  keeps : KeepsAll n d q

section

variable {n d b : ℕ} {q : QueueT} {els : List Bytes}

theorem bytesAt_getD (e : Bytes) : bytesAt (fun i => e.getD i 0) e.length = e := by
  refine List.ext_getElem (length_bytesAt _ _) fun i hi hi' => ?_
  simp only [bytesAt, List.getElem_map, List.getElem_range]
  exact (List.getElem_eq_getD 0).symm

/-- The bounded queue takes elements as long as there is room. -/
theorem foldl_after_pushOf {es : List Bytes} (hroom : els.length + es.length ≤ n)
    (hsize : ∀ e ∈ es, 1 ≤ e.length ∧ e.length ≤ d) :
    (es.map pushOf).foldl (after n d) els = els ++ es := by
  induction es generalizing els with
  | nil => rw [List.map_nil, List.foldl_nil, List.append_nil]
  | cons e es ih =>
    rw [List.length_cons] at hroom
    obtain ⟨hpos, hle⟩ := hsize e List.mem_cons_self
    have hacc : Accepts n d els (pushOf e) := ⟨rfl, rfl, hpos, hle, by omega⟩
    have hafter : after n d els (pushOf e) = els ++ [e] := by
      unfold after
      rw [if_pos hacc]
      exact congrArg (els ++ [·]) (bytesAt_getD e)
    rw [List.map_cons, List.foldl_cons, hafter,
      ih (by rw [List.length_append, List.length_singleton]; omega)
        fun e' he' => hsize e' (List.mem_cons_of_mem _ he'), List.append_assoc,
          List.singleton_append]

/-- Pops yield the elements in order. -/
theorem Holds.popAll (h : Holds n d b q els) : popAll d els.length q = els := by
  induction els generalizing q with
  | nil => rfl
  | cons e els ih =>
    have ⟨_, hring, _, _⟩ := h
    obtain ⟨q', j, hpop, hq'⟩ := h.pop false (hring.size_le e List.mem_cons_self)
    rw [List.length_cons, Queue.popAll, queueTryPop, hpop]
    show e :: Queue.popAll d els.length q' = e :: els
    rw [ih hq']

/-- A queue without overflow keeps its elements. -/
theorem keepsAll_queueInit {pageSize : ℕ} {mem : ℕ → UInt8}
    (hfits : n * (sizeofSizeT + d) < sizeTMod) :
    KeepsAll n d (queueInit pageSize n d mem) := by
  intro es hlen hsize
  have hinit : Holds n d _ (queueInit pageSize n d mem) [] := holds_queueInit hfits
  obtain ⟨q', hrun, hholds⟩ := hinit.run (es.map pushOf)
  rw [foldl_after_pushOf (by rw [List.length_nil, Nat.zero_add, hlen]) hsize,
    List.nil_append] at hholds
  refine ⟨q', hrun, ?_⟩
  rw [← hlen]
  exact hholds.popAll

end

/-! ## The result -/

section

variable {pageSize n d : ℕ}

/-- A total that needs reduction comes out too small by `2 ^ 64` at least. -/
theorem totalSizeAligned_le_of_overflow (hbuf : bufSize n d = n * (sizeofSizeT + d))
    (h : sizeTMod ≤ unreduced pageSize n d) :
    totalSizeAligned pageSize n d ≤ unreduced pageSize n d - sizeTMod := by
  have hsum : unreduced pageSize n d =
      queueTSizeAligned pageSize + (bufSize n d + bufSize n d % pageSize) := by
    rw [hbuf]
    rfl
  rw [totalSizeAligned, bufSizeAligned, sizeT, sizeT, Nat.add_mod_mod, ← hsum, Nat.mod_eq_sub_mod h]
  exact Nat.mod_le _ _

/-- A reduced total is smaller than what precedes the last slot's end. -/
theorem total_lt_of_overflow (hbuf : bufSize n d = n * (sizeofSizeT + d))
    (h : sizeTMod ≤ unreduced pageSize n d) :
    totalSizeAligned pageSize n d < queueTSizeAligned pageSize + n * (sizeofSizeT + d) := by
  have hlt : bufSize n d < sizeTMod := Nat.mod_lt _ (by decide)
  have hrem : bufSize n d % pageSize ≤ bufSize n d := Nat.mod_le _ _
  have htotal := totalSizeAligned_le_of_overflow hbuf h
  rw [unreduced, ← hbuf] at htotal
  rw [unreduced, ← hbuf] at h
  rw [queueTSizeAligned, ← hbuf]
  omega

/-- **When a queue is roomy.**  A queue that `queue_init` has mapped has room for everything it is
for exactly if the total size does not need reduction. -/
theorem roomy_iff {mmap : ℕ → Bool} {mem : ℕ → UInt8} {q : QueueT} {total : ℕ}
    (hinit : queueInitMapped mmap pageSize n d mem = some (q, total)) :
    Roomy n d total q ↔ unreduced pageSize n d < sizeTMod := by
  obtain ⟨-, heq⟩ := Option.ite_none_right_eq_some.mp hinit
  obtain ⟨rfl, rfl⟩ := Prod.mk.inj (Option.some.inj heq)
  have hslot : ∀ j < n, j * (sizeofSizeT + d) + (sizeofSizeT + d) ≤ n * (sizeofSizeT + d) := by
    intro j hj
    rw [← Nat.succ_mul]
    exact Nat.mul_le_mul_right _ hj
  constructor
  · intro h
    rcases Nat.eq_zero_or_pos n with rfl | hn
    · have hmod := Nat.mod_le sizeofQueueT pageSize
      rw [unreduced, Nat.zero_mul, Nat.zero_mod]
      exact Nat.lt_of_le_of_lt (Nat.add_le_add_right (Nat.add_le_add_left hmod _) _) (by decide)
    · by_contra hover
      have hlt := total_lt_of_overflow h.bufSize (Nat.le_of_not_lt hover)
      -- the end of the last slot
      have hlast := h.inside (n - 1) (Nat.sub_lt hn Nat.one_pos)
      rw [Nat.add_assoc, ← Nat.succ_mul, Nat.succ_eq_add_one, Nat.sub_add_cancel hn] at hlast
      exact absurd hlt (Nat.not_lt.mpr hlast)
  · intro h
    obtain ⟨hfits, htotal⟩ := totalSizeAligned_of_unreduced h
    refine ⟨(layout_queueInit hfits).bufSize, ?_, ?_, ?_, keepsAll_queueInit hfits⟩
    · intro j _
      exact Nat.le_add_right_of_le (Nat.le_add_right _ _)
    · intro j hj
      rw [htotal, Nat.add_assoc]
      exact Nat.add_le_add_left (Nat.le_add_right_of_le (hslot j hj)) _
    · intro i j hij _
      rw [Nat.add_assoc, ← Nat.succ_mul]
      exact Nat.add_le_add_left (Nat.mul_le_mul_right _ hij) _

end

/-- `mmap` succeeds for every length other than `0` below `2 ^ 47`. -/
def mmapBelow (len : ℕ) : Bool := 0 < len && len < 2 ^ 47

/-- A queue for two elements of at most one byte. -/
theorem roomy_two :
    ∃ q total, queueInitMapped mmapBelow 4096 2 1 (fun _ => 0) = some (q, total) ∧
      (Roomy 2 1 total q ↔ unreduced 4096 2 1 < sizeTMod) := by
  have hinit : queueInitMapped mmapBelow 4096 2 1 (fun _ => 0) =
      some (queueInit 4096 2 1 fun _ => 0, totalSizeAligned 4096 2 1) := if_pos (by decide)
  exact ⟨_, _, hinit, roomy_iff hinit⟩

/-- **A queue without room**: `2 ^ 60 + 2` slots of `16` bytes take `32` bytes. -/
theorem not_roomy_reduced :
    ¬ ∀ (pageSize n d : ℕ) (mem : ℕ → UInt8) (q : QueueT) (total : ℕ), n < sizeTMod → d < sizeTMod →
      queueInitMapped mmapBelow pageSize n d mem = some (q, total) → Roomy n d total q := by
  intro h
  have hinit : queueInitMapped mmapBelow 4096 (2 ^ 60 + 2) 8 (fun _ => 0) =
      some (queueInit 4096 (2 ^ 60 + 2) 8 fun _ => 0, totalSizeAligned 4096 (2 ^ 60 + 2) 8) :=
    if_pos (by decide)
  have hroomy := h 4096 (2 ^ 60 + 2) 8 (fun _ => 0) _ _ (by decide) (by decide) hinit
  exact absurd hroomy.bufSize (by decide)

end Queue

end CloudTiering
