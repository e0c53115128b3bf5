import CloudTiering.Queue.Capacity

/-!
# The queue in the memory that is mapped for it

`mmap` maps as many pages as the total size takes, and a total size that has come round maps fewer
than the slots take.  Behind the last page nothing is defined; such a call has no result here.

* `mappedBytes`: the bytes that can be accessed.
* `mappedTry`, `mappedStep`: the calls of `Queue.Sequential` in so many bytes.
* `ActsAsFifo`: after every sequence of calls every call does what the bounded queue does.
* `actsAsFifo_iff`: the condition under which this is so.
-/

namespace CloudTiering

open Foundations

namespace Queue

/-! ## The mapping -/

/-- The bytes that can be accessed after `mmap` has been given a length: whole pages. -/
def mappedBytes (pageSize len : ℕ) : ℕ := (len + pageSize - 1) / pageSize * pageSize

/-- A call accesses a slot in mapped memory only. -/
def Result.inMapping (extent : ℕ) (r : Result) : Bool :=
  r.touched.all fun (a, k) => a + k ≤ extent

/-- A call that does not wait, with `extent` bytes mapped. -/
def mappedTry (extent : ℕ) (q : QueueT) (c : Call) : Option Result :=
  (tryPerform q c).filter (Result.inMapping extent)

/-- The queue after such a call. -/
def mappedStep (extent : ℕ) (q : QueueT) (c : Call) : Option QueueT :=
  (mappedTry extent q c).map Result.queue

/-- A queue in `extent` bytes is a bounded queue for `n` elements of at most `d` bytes.  Its fields
are in the mapping, and every sequence of calls that do not wait goes through.  Behind it every call
does what the bounded queue does with the elements that it then holds; the operations that may wait
do so only for lack of room or of an element, and agree with the others where they do not. -/
def ActsAsFifo (extent n d : ℕ) (q₀ : QueueT) : Prop :=
  sizeofQueueT ≤ extent ∧
  ∀ calls : List Call, ∃ q, run (mappedStep extent) q₀ calls = some q ∧ ∀ c : Call,
    (∃ r, mappedTry extent q c = some r ∧ Refines n d q (held n d calls) c r) ∧
    (c.Valid d ∧ c.Blocked n (held n d calls) → waitPerform q c = none) ∧
    (¬ (c.Valid d ∧ c.Blocked n (held n d calls)) → waitPerform q c = tryPerform q c)

section

variable {pageSize len extent : ℕ} {q : QueueT} {c : Call} {r : Result}

theorem le_mappedBytes (hpage : 0 < pageSize) : len ≤ mappedBytes pageSize len := by
  have hsplit := Nat.div_add_mod' (len + pageSize - 1) pageSize
  have hrem := Nat.mod_lt (len + pageSize - 1) hpage
  rw [mappedBytes]
  omega

theorem mappedBytes_lt (hpage : 0 < pageSize) : mappedBytes pageSize len < len + pageSize := by
  have hle := Nat.div_mul_le_self (len + pageSize - 1) pageSize
  rw [mappedBytes]
  omega

theorem mappedTry_eq_some (h : mappedTry extent q c = some r) :
    tryPerform q c = some r ∧ r.inMapping extent = true :=
  Option.filter_eq_some_iff.mp h

/-- A run in the mapping is one of the queue. -/
theorem run_of_mapped {calls : List Call} {q' : QueueT}
    (h : run (mappedStep extent) q calls = some q') :
    run tryStep q calls = some q' := by
  induction calls generalizing q with
  | nil => exact h
  | cons c calls ih =>
    rw [run_cons] at h ⊢
    obtain ⟨q₁, hstep, hrest⟩ := Option.bind_eq_some_iff.mp h
    obtain ⟨r, hr, rfl⟩ := Option.map_eq_some_iff.mp hstep
    rw [tryStep, (mappedTry_eq_some hr).1]
    exact ih hrest

end

/-! ## Calls that stay in the mapping -/

section

variable {n d b extent : ℕ} {q : QueueT} {els : List Bytes} {c : Call} {r : Result}

/-- The queue acts as a bounded queue if its calls stay in the mapping, as long as the elements are
such that `I` holds. -/
theorem Holds.actsAsFifo {I : List Bytes → Prop} (h : Holds n d b q [])
    (hfields : sizeofQueueT ≤ extent) (hI : I [])
    (hafter : ∀ els c, I els → I (after n d els c))
    (hinside : ∀ q els c r, Holds n d b q els → I els → tryPerform q c = some r →
      Refines n d q els c r → r.inMapping extent = true) :
    ActsAsFifo extent n d q := by
  have htry : ∀ q els c, Holds n d b q els → I els → ∃ r, mappedTry extent q c = some r ∧
      Holds n d b r.queue (after n d els c) ∧ Refines n d q els c r := by
    intro q els c hq hels
    obtain ⟨r, hr, hq', href⟩ := hq.perform c
    exact ⟨r, Option.filter_eq_some_iff.mpr ⟨hr, hinside q els c r hq hels hr href⟩, hq', href⟩
  have hrun : ∀ (calls : List Call) (q : QueueT) (els : List Bytes), Holds n d b q els → I els →
      ∃ q', Foundations.run (mappedStep extent) q calls = some q' ∧
        Holds n d b q' (calls.foldl (after n d) els) ∧ I (calls.foldl (after n d) els) := by
    intro calls
    induction calls with
    | nil => exact fun q els hq hels => ⟨q, rfl, hq, hels⟩
    | cons c calls ih =>
      intro q els hq hels
      obtain ⟨r, hr, hq₁, -⟩ := htry q els c hq hels
      obtain ⟨q', hrest, hq'⟩ := ih r.queue _ hq₁ (hafter els c hels)
      refine ⟨q', ?_, hq'⟩
      rw [run_cons, mappedStep, hr]
      exact hrest
  refine ⟨hfields, fun calls => ?_⟩
  obtain ⟨q', hcalls, hq', hels⟩ := hrun calls q [] h hI
  refine ⟨q', hcalls, fun c => ⟨?_, fun hc => hq'.waits hc.1 hc.2, fun hc => hq'.agrees hc⟩⟩
  obtain ⟨r, hr, -, href⟩ := htry q' _ c hq' hels
  exact ⟨r, hr, href⟩

/-- An access to a slot stays in front of the end of the buffer. -/
theorem Refines.inMapping (h : Refines n d q els c r) (hl : Layout n d b q)
    (hextent : b + n * (sizeofSizeT + d) ≤ extent) : r.inMapping extent = true := by
  cases htouched : r.touched with
  | none => rw [Result.inMapping, htouched, Option.all_none]
  | some at' =>
    obtain ⟨a, k⟩ := at'
    obtain ⟨⟨u, ha, hu⟩, hk⟩ := h.inside a k htouched
    rw [hl.bufOffset] at ha
    rw [hl.bufSize] at hu
    have hle : a ≤ b + u := ha.trans_le (Nat.mod_le _ _)
    rw [Result.inMapping, htouched, Option.all_some, decide_eq_true_eq]
    omega

/-- A queue for elements of no bytes takes none. -/
theorem not_accepts_zero : ¬ Accepts n 0 [] c := by
  cases c with
  | push given data dataSize =>
    rintro ⟨-, -, hpos, hle, -⟩
    omega
  | pop given data dataSize =>
    rintro ⟨-, -, e, he, -⟩
    exact absurd he (by simp)

/-- Nor does it access a slot. -/
theorem Holds.touched_zero (h : Holds n 0 b q []) (hr : tryPerform q c = some r) :
    r.touched = none := by
  obtain ⟨p, hring, -, -⟩ := h
  have hfit : q.dataMaxSize = 0 := hring.layout.dataMaxSize
  have hempty : q.curSize = 0 := hring.curSize
  cases c with
  | push given data dataSize =>
    rw [tryPerform, queueTryPush, queuePushCommon.eq_def] at hr
    cases data with
    | none =>
      obtain rfl := Option.some.inj hr
      rfl
    | some data =>
      have hargs : given = false ∨ dataSize = 0 ∨ dataSize > q.dataMaxSize := by omega
      dsimp only at hr
      rw [if_pos hargs] at hr
      obtain rfl := Option.some.inj hr
      rfl
  | pop given data dataSize =>
    rw [tryPerform, queueTryPop, queuePopCommon.eq_def] at hr
    cases dataSize with
    | none =>
      obtain rfl := Option.some.inj hr
      rfl
    | some m =>
      dsimp only at hr
      rw [if_pos hempty, if_neg Bool.false_ne_true, ite_self] at hr
      obtain rfl := Option.some.inj hr
      rfl

end

/-! ## A push behind the mapping -/

section

variable {n d b : ℕ} {q : QueueT} {els : List Bytes}

/-- Elements that are pushed in a row, with the place of the first one kept. -/
theorem HoldsAt.pushes {p : ℕ} {es : List Bytes} (h : HoldsAt n d b q p els)
    (hroom : els.length + es.length ≤ n) (hsize : ∀ e ∈ es, 1 ≤ e.length ∧ e.length ≤ d) :
    ∃ q', run tryStep q (es.map pushOf) = some q' ∧ HoldsAt n d b q' p (els ++ es) := by
  induction es generalizing q els with
  | nil => exact ⟨q, rfl, by rwa [List.append_nil]⟩
  | cons e es ih =>
    rw [List.length_cons] at hroom
    obtain ⟨hpos, hle⟩ := hsize e List.mem_cons_self
    obtain ⟨q₁, hq₁, hpushed⟩ := h.push (fun i => e.getD i 0) false rfl hpos hle (by omega)
    rw [bytesAt_getD] at hpushed
    obtain ⟨q', hrest, hq'⟩ := ih hpushed
      (by rw [List.length_append, List.length_singleton]; omega)
      fun e' he' => hsize e' (List.mem_cons_of_mem _ he')
    refine ⟨q', ?_, by rwa [List.append_assoc, List.singleton_append] at hq'⟩
    have hstep : tryStep q (pushOf e) = some q₁ := congrArg (Option.map Result.queue) hq₁
    rw [List.map_cons, run_cons, hstep]
    exact hrest

/-- The first slot that does not lie in front of `extent`. -/
theorem exists_slot_behind {s extent : ℕ} (hn : 0 < n) (h : extent < b + n * s) :
    ∃ j < n, extent < b + j * s + s ∧ (j = 0 ∨ b + j * s ≤ extent) := by
  induction n, hn using Nat.le_induction with
  | base => exact ⟨0, Nat.one_pos, by omega, .inl rfl⟩
  | succ n hn ih =>
    by_cases hlast : extent < b + n * s
    · obtain ⟨j, hj, hbehind⟩ := ih hlast
      exact ⟨j, Nat.lt_succ_of_lt hj, hbehind⟩
    · rw [Nat.succ_mul, ← Nat.add_assoc] at h
      exact ⟨n, Nat.lt_succ_self n, h, .inr (Nat.le_of_not_lt hlast)⟩

/-- **A queue with a slot behind the mapping.**  Once the slots in front of it are taken, a push
goes there. -/
theorem not_actsAsFifo {j extent : ℕ} (h : HoldsAt n d b q 0 []) (hd : 0 < d) (hj : j < n)
    (haddr : b + j * (sizeofSizeT + d) < sizeTMod)
    (hbehind : extent < b + j * (sizeofSizeT + d) + (sizeofSizeT + d)) :
    ¬ ActsAsFifo extent n d q := by
  intro hfifo
  -- as many elements of the full size as there are slots in front
  let e : Bytes := List.replicate d 0
  have hlen : e.length = d := List.length_replicate
  have hsize : ∀ e' ∈ List.replicate j e, 1 ≤ e'.length ∧ e'.length ≤ d := by
    intro e' he'
    rw [List.eq_of_mem_replicate he', hlen]
    exact ⟨hd, Nat.le_refl d⟩
  have hspace : ([] : List Bytes).length + (List.replicate j e).length ≤ n := by
    rw [List.length_nil, List.length_replicate]
    omega
  obtain ⟨q₁, hrun, hq₁⟩ := h.pushes hspace hsize
  obtain ⟨q₂, hmapped, hcalls⟩ := hfifo.2 ((List.replicate j e).map pushOf)
  obtain rfl : q₁ = q₂ := Option.some.inj (hrun.symm.trans (run_of_mapped hmapped))
  rw [List.nil_append] at hq₁
  have hroom : (List.replicate j e).length < n := by rwa [List.length_replicate]
  obtain ⟨q', hpush, -⟩ := hq₁.push (fun i => e.getD i 0) false rfl (hd.trans_eq hlen.symm)
    hlen.le hroom
  obtain ⟨⟨r, hr, -⟩, -⟩ := hcalls (pushOf e)
  obtain ⟨htry, hin⟩ := mappedTry_eq_some hr
  obtain rfl := Option.some.inj (hpush.symm.trans htry)
  have hslot : sizeT (slot n d b (0 + (List.replicate j e).length)) =
      b + j * (sizeofSizeT + d) := by
    rw [List.length_replicate, Nat.zero_add, slot, Nat.mod_eq_of_lt hj, sizeT,
      Nat.mod_eq_of_lt haddr]
  rw [Result.inMapping, Option.all_some, decide_eq_true_eq, hslot, hlen] at hin
  omega

end

/-! ## The result -/

section

variable {pageSize n d : ℕ}

/-- If the total size comes round, the mapping ends long before the buffer. -/
theorem mappedBytes_of_overflow (hpage : 0 < pageSize) (hlarge : pageSize ≤ 2 ^ 62)
    (hfits : n * (sizeofSizeT + d) < sizeTMod) (h : sizeTMod ≤ unreduced pageSize n d) :
    mappedBytes pageSize (totalSizeAligned pageSize n d) + 2 ^ 63 <
      queueTSizeAligned pageSize + n * (sizeofSizeT + d) := by
  have hmod : sizeTMod = 2 ^ 64 := rfl
  have hbuf : bufSize n d = n * (sizeofSizeT + d) := by
    rw [bufSize, sizeT, sizeT, Nat.mod_mul_mod, Nat.mul_comm, Nat.mod_eq_of_lt hfits]
  have hrem : n * (sizeofSizeT + d) % pageSize < pageSize := Nat.mod_lt _ hpage
  have htotal := totalSizeAligned_le_of_overflow hbuf h
  have hmapped : mappedBytes pageSize (totalSizeAligned pageSize n d) < _ := mappedBytes_lt hpage
  rw [unreduced] at htotal h
  rw [queueTSizeAligned]
  omega

/-- **When the ring buffer is a bounded queue.**  A queue that `queue_init` has mapped, with a size
of the buffer that does not overflow, acts as a bounded queue exactly if the total size does not
need reduction, or no element can be pushed at all and the fields are in the mapping.  A page size
is a power of two and fits a `long`. -/
theorem actsAsFifo_iff {mmap : ℕ → Bool} {mem : ℕ → UInt8} {q : QueueT} {total : ℕ}
    (hpage : 0 < pageSize) (hlarge : pageSize ≤ 2 ^ 62) (hfits : n * (sizeofSizeT + d) < sizeTMod)
    (hinit : queueInitMapped mmap pageSize n d mem = some (q, total)) :
    ActsAsFifo (mappedBytes pageSize total) n d q ↔
      (d = 0 ∧ sizeofQueueT ≤ mappedBytes pageSize total) ∨ unreduced pageSize n d < sizeTMod := by
  obtain ⟨-, heq⟩ := Option.ite_none_right_eq_some.mp hinit
  obtain ⟨rfl, rfl⟩ := Prod.mk.inj (Option.some.inj heq)
  have hinitial : HoldsAt n d (queueTSizeAligned pageSize) (queueInit pageSize n d mem) 0 [] :=
    holdsAt_queueInit hfits
  constructor
  · intro hfifo
    by_contra hnot
    obtain ⟨hmapped, hover⟩ := not_or.mp hnot
    have hd : d ≠ 0 := fun hzero => hmapped ⟨hzero, hfifo.1⟩
    have hn : 0 < n := by
      refine Nat.pos_of_ne_zero fun hzero => hover ?_
      have hmod := Nat.mod_le sizeofQueueT pageSize
      rw [unreduced, hzero, Nat.zero_mul, Nat.zero_mod]
      exact Nat.lt_of_le_of_lt (Nat.add_le_add_right (Nat.add_le_add_left hmod _) _) (by decide)
    have hshort := mappedBytes_of_overflow hpage hlarge hfits (Nat.le_of_not_lt hover)
    obtain ⟨j, hj, hbehind, hfirst⟩ := exists_slot_behind hn
      ((Nat.le_add_right _ _).trans_lt hshort)
    have hheader : queueTSizeAligned pageSize ≤ sizeofQueueT + sizeofQueueT :=
      Nat.add_le_add_left (Nat.mod_le _ _) _
    have haddr : queueTSizeAligned pageSize + j * (sizeofSizeT + d) < sizeTMod := by
      have hmod : sizeTMod = 2 ^ 64 := rfl
      have hsizeof : sizeofQueueT = 536 := rfl
      rcases hfirst with rfl | hfirst <;> omega
    exact not_actsAsFifo hinitial (Nat.pos_of_ne_zero hd) hj haddr hbehind hfifo
  · rintro (⟨rfl, hfields⟩ | hsize)
    · refine Holds.actsAsFifo (I := fun els => els = []) ⟨0, hinitial⟩ hfields rfl ?_ ?_
      · rintro els c rfl
        exact if_neg not_accepts_zero
      · rintro q els c r hq rfl hr -
        rw [Result.inMapping, hq.touched_zero hr, Option.all_none]
    · have hbuffer : queueTSizeAligned pageSize + n * (sizeofSizeT + d) ≤
          mappedBytes pageSize (totalSizeAligned pageSize n d) := by
        refine Nat.le_trans ?_ (le_mappedBytes hpage)
        rw [(totalSizeAligned_of_unreduced hsize).2]
        exact Nat.add_le_add_left (Nat.le_add_right _ _) _
      have hfields : sizeofQueueT ≤ queueTSizeAligned pageSize := Nat.le_add_right _ _
      refine Holds.actsAsFifo (I := fun _ => True) ⟨0, hinitial⟩
        (Nat.le_trans (Nat.le_add_right_of_le hfields) hbuffer) trivial (fun _ _ _ => trivial) ?_
      rintro q els c r ⟨p, hring, -, -⟩ - - href
      exact href.inMapping hring.layout hbuffer

end

/-- A queue for two elements of at most one byte. -/
theorem actsAsFifo_two :
    ∃ q total, queueInitMapped mmapBelow 4096 2 1 (fun _ => 0) = some (q, total) ∧
      ActsAsFifo (mappedBytes 4096 total) 2 1 q := by
  have hinit : queueInitMapped mmapBelow 4096 2 1 (fun _ => 0) =
      some (queueInit 4096 2 1 fun _ => 0, totalSizeAligned 4096 2 1) := if_pos (by decide)
  exact ⟨_, _, hinit, (actsAsFifo_iff (by decide) (by decide) (by decide) hinit).mpr
    (.inr (by decide))⟩

/-- **A queue with its slots behind the mapping**: `2 ^ 60 - 1` slots of `16` bytes have a size that
does not overflow, the total size comes round to `5136`, and the slot of the 446th element starts
behind the two pages that are mapped for it. -/
theorem not_actsAsFifo_reduced :
    ¬ ∀ (pageSize n d : ℕ) (mem : ℕ → UInt8) (q : QueueT) (total : ℕ), 0 < pageSize →
      pageSize ≤ 2 ^ 62 →
      n * (sizeofSizeT + d) < sizeTMod → queueInitMapped mmapBelow pageSize n d mem =
        some (q, total) →
      ActsAsFifo (mappedBytes pageSize total) n d q := by
  intro hall
  have hfits : (2 ^ 60 - 1) * (sizeofSizeT + 8) < sizeTMod := by decide
  have hinit : queueInitMapped mmapBelow 4096 (2 ^ 60 - 1) 8 (fun _ => 0) =
      some (queueInit 4096 (2 ^ 60 - 1) 8 fun _ => 0, totalSizeAligned 4096 (2 ^ 60 - 1) 8) :=
    if_pos (by decide)
  exact not_actsAsFifo (j := 445) (holdsAt_queueInit hfits) (by decide) (by decide) (by decide)
    (by decide) (hall 4096 _ 8 _ _ _ (by decide) (by decide) hfits hinit)

end Queue

end CloudTiering
