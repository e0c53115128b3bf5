import CloudTiering.App.S3Ops

/-!
# `s3_put_object_data_callback`, call by call

The callback of an upload hands out the file in chunks of sizes that `libs3` chooses.  The sizes are
`int`, the remaining length is a `uint64_t`, and they meet through conversions, none of which is
checked.

* `asUnsigned`, `asInt`, `asUint64`: the conversions.
* `putObjectDataCallback`, `putCalls`: the callback with its conversions, and successive calls.
* `PutStream.target`: what is to be handed out.
* `StreamsExactly`, `streamsExactly`: this is handed out exactly.
-/

namespace CloudTiering

open Foundations

namespace App

/-! ## The code -/

/-- `(unsigned)n`. -/
def asUnsigned (n : ℤ) : ℕ := (n % 2 ^ 32).toNat

/-- `(int)n`. -/
def asInt (n : ℤ) : ℤ := Int.bmod n (2 ^ 32)

/-- `(uint64_t)n`, which is also `(size_t)n`. -/
def asUint64 (n : ℤ) : ℕ := (n % 2 ^ 64).toNat

/-- `struct s3_put_object_callback_data`, with the content of the file and the position of the
stream. -/
structure PutStream where
  content : Bytes
  pos : ℕ
  contentLength : ℕ

/-- What a call of the callback returns, and the bytes that it has put into the buffer. -/
structure PutReturn where
  ret : ℤ
  chunk : Bytes

/-- `s3_put_object_data_callback`.  `fread` reads what is requested unless the file ends before. -/
def putObjectDataCallback (bufferSize : ℤ) (data : PutStream) : PutReturn × PutStream :=
  if data.contentLength ≠ 0 then
    let toRead : ℤ :=
      asInt (if data.contentLength > asUnsigned bufferSize then asUnsigned bufferSize
      else data.contentLength : ℕ)
    let buffer := (data.content.drop data.pos).take (asUint64 toRead)
    let ret := asInt buffer.length
    (⟨ret, buffer⟩, { data with
      pos := data.pos + buffer.length, contentLength := asUint64 (data.contentLength - ret) })
  else
    (⟨0, []⟩, { data with contentLength := asUint64 (data.contentLength - 0) })

/-- Successive calls, with these buffer sizes. -/
def putCalls : List ℤ → PutStream → List PutReturn × PutStream
  | [], data => ([], data)
  | size :: sizes, data =>
      let first := putObjectDataCallback size data
      let rest := putCalls sizes first.2
      (first.1 :: rest.1, rest.2)

/-- The bytes that have been handed out. -/
def handedOut (returns : List PutReturn) : Bytes := (returns.map PutReturn.chunk).flatten

/-! ## What is to be handed out -/

/-- The first `min(content_length, bytes available)` bytes. -/
def PutStream.target (data : PutStream) : Bytes :=
  (data.content.drop data.pos).take (min data.contentLength (data.content.length - data.pos))

/-- The stream after `n` more bytes. -/
def PutStream.advance (data : PutStream) (n : ℕ) : PutStream :=
  { data with pos := data.pos + n, contentLength := data.contentLength - n }

/-- **The file is streamed exactly** by calls with these buffer sizes: no chunk exceeds its buffer;
the chunks are the target as far as the buffers reach, and all of it once `0` has been returned;
`content_length` is what it was less the bytes handed out; and after `0` every call returns `0`. -/
structure StreamsExactly (sizes : List ℤ) (data : PutStream) : Prop where
  chunks : List.Forall₂ (fun size r => r.ret = (r.chunk.length : ℤ) ∧ r.ret ≤ size) sizes
    (putCalls sizes data).1
  streamed : handedOut (putCalls sizes data).1 = data.target.take (sizes.map Int.toNat).sum
  whole : (∃ r ∈ (putCalls sizes data).1, r.ret = 0) →
    handedOut (putCalls sizes data).1 = data.target
  noWrap : (handedOut (putCalls sizes data).1).length ≤ data.contentLength
  contentLength :
    (putCalls sizes data).2.contentLength = data.contentLength -
      (handedOut (putCalls sizes data).1).length
  ended : (putCalls sizes data).1.Pairwise fun r r' => r.ret = 0 → r'.ret = 0

section

variable {size : ℤ} {sizes : List ℤ} {data : PutStream} {n : ℕ}

/-! ## The conversions -/

theorem asUnsigned_of_int (hsize : 0 < size ∧ size < 2 ^ 31) : asUnsigned size = size.toNat := by
  rw [asUnsigned, Int.emod_eq_of_lt hsize.1.le (by omega)]

theorem asInt_of_lt (hn : n < 2 ^ 31) : asInt n = n := by
  rw [asInt, Int.bmod_eq_emod_of_lt]
  · omega
  · omega

theorem asUint64_of_lt (hn : n < 2 ^ 64) : asUint64 n = n := by
  rw [asUint64]
  omega

/-! ## What is to be handed out -/

theorem target_eq (data : PutStream) :
    data.target = (data.content.drop data.pos).take data.contentLength := by
  rw [PutStream.target, ← List.length_drop, ← List.take_take, List.take_length]

theorem target_eq_nil (hzero : data.contentLength = 0) : data.target = [] := by
  rw [target_eq, hzero, List.take_zero]

theorem take_target (data : PutStream) (k : ℕ) :
    data.target.take k = (data.content.drop data.pos).take (min k data.contentLength) := by
  rw [target_eq, List.take_take]

theorem length_target_le (data : PutStream) : data.target.length ≤ data.contentLength := by
  rw [target_eq, List.length_take]
  exact Nat.min_le_left _ _

theorem target_advance (data : PutStream) (n : ℕ) :
    (data.advance n).target = data.target.drop n := by
  rw [target_eq, target_eq, List.drop_take, PutStream.advance, List.drop_drop]

/-- **One call**: as much of the target as the buffer takes. -/
theorem putObjectDataCallback_eq (hsize : 0 < size ∧ size < 2 ^ 31)
    (hlen : data.contentLength < 2 ^ 64) :
    putObjectDataCallback size data =
      (⟨((data.target.take size.toNat).length : ℤ), data.target.take size.toNat⟩,
        data.advance (data.target.take size.toNat).length) := by
  by_cases hzero : data.contentLength = 0
  · have htarget := target_eq_nil hzero
    obtain ⟨content, pos, contentLength⟩ := data
    obtain rfl : contentLength = 0 := hzero
    rw [htarget, List.take_nil]
    rfl
  · have hmin :
        (if data.contentLength > asUnsigned size then asUnsigned size else data.contentLength) =
        min size.toNat data.contentLength := by
      rw [asUnsigned_of_int hsize]
      split <;> omega
    have hle : (data.target.take size.toNat).length ≤ min size.toNat data.contentLength := by
      rw [List.length_take]
      have := length_target_le data
      omega
    rw [putObjectDataCallback, if_pos hzero, hmin, asInt_of_lt (by omega)]
    dsimp only
    rw [asUint64_of_lt (by omega), ← take_target]
    have hrest : (data.contentLength : ℤ) - (data.target.take size.toNat).length =
        ((data.contentLength - (data.target.take size.toNat).length : ℕ) : ℤ) := by
      omega
    rw [asInt_of_lt (by omega), hrest, asUint64_of_lt (by omega)]
    rfl

/-! ## Successive calls -/

/-- The chunk of a call, and what is left for the calls after it. -/
theorem putCalls_cons (hsize : 0 < size ∧ size < 2 ^ 31) (hlen : data.contentLength < 2 ^ 64) :
    putCalls (size :: sizes) data =
      (⟨((data.target.take size.toNat).length : ℤ), data.target.take size.toNat⟩ ::
          (putCalls sizes (data.advance (data.target.take size.toNat).length)).1,
        (putCalls sizes (data.advance (data.target.take size.toNat).length)).2) := by
  rw [putCalls, putObjectDataCallback_eq hsize hlen]

theorem target_advance_take (data : PutStream) (k : ℕ) :
    (data.advance (data.target.take k).length).target = data.target.drop k := by
  rw [target_advance, List.length_take]
  rcases Nat.le_total k data.target.length with hk | hk
  · rw [Nat.min_eq_left hk]
  · rw [Nat.min_eq_right hk, List.drop_length, List.drop_of_length_le hk]

/-- Where nothing is left, every call returns `0`. -/
theorem ret_eq_zero_of_target_nil (hsizes : ∀ size ∈ sizes, 0 < size ∧ size < 2 ^ 31)
    (hlen : data.contentLength < 2 ^ 64) (htarget : data.target = []) :
    ∀ r ∈ (putCalls sizes data).1, r.ret = 0 := by
  induction sizes with
  | nil => exact fun r hr => absurd hr List.not_mem_nil
  | cons size sizes ih =>
    have hchunk : data.target.take size.toNat = [] := by
      rw [htarget, List.take_nil]
    rw [putCalls_cons (hsizes size List.mem_cons_self) hlen, hchunk]
    intro r hr
    rcases List.mem_cons.mp hr with rfl | hr
    · rfl
    · exact ih (fun size hsize => hsizes size (List.mem_cons_of_mem _ hsize)) r hr

/-- **The file is streamed exactly**, by calls with any positive `int` buffer sizes and for any
`uint64_t` length. -/
theorem streamsExactly (hsizes : ∀ size ∈ sizes, 0 < size ∧ size < 2 ^ 31)
    (hlen : data.contentLength < 2 ^ 64) : StreamsExactly sizes data := by
  induction sizes generalizing data with
  | nil =>
    refine ⟨.nil, rfl, ?_, Nat.zero_le _, rfl, .nil⟩
    rintro ⟨r, hr, -⟩
    exact absurd hr List.not_mem_nil
  | cons size sizes ih =>
    have hsize := hsizes size List.mem_cons_self
    have hrest : ∀ size ∈ sizes, 0 < size ∧ size < 2 ^ 31 := fun size h =>
      hsizes size (List.mem_cons_of_mem _ h)
    have hnext := target_advance_take data size.toNat
    have hle := length_target_le data
    have hlen' : (data.advance (data.target.take size.toNat).length).contentLength < 2 ^ 64 :=
      Nat.lt_of_le_of_lt (Nat.sub_le _ _) hlen
    obtain ⟨hchunks, hstreamed, hwhole, -, hcontentLength, hended⟩ := ih hrest hlen'
    rw [hnext] at hstreamed hwhole
    -- an empty chunk means that nothing is left
    have hempty : ((data.target.take size.toNat).length : ℤ) = 0 → data.target = [] := by
      intro h
      rw [Int.natCast_eq_zero, List.length_take] at h
      exact List.length_eq_zero_iff.mp (by omega)
    have hall : handedOut (putCalls (size :: sizes) data).1 =
        data.target.take ((size :: sizes).map Int.toNat).sum := by
      rw [putCalls_cons hsize hlen, List.map_cons, List.sum_cons, List.take_add, ← hstreamed]
      rfl
    refine ⟨?_, hall, ?_, ?_, ?_, ?_⟩
    · rw [putCalls_cons hsize hlen]
      refine .cons ⟨rfl, ?_⟩ hchunks
      show ((data.target.take size.toNat).length : ℤ) ≤ size
      rw [List.length_take]
      omega
    · rw [putCalls_cons hsize hlen]
      rintro ⟨r, hr, hzero⟩
      show data.target.take size.toNat ++ handedOut (putCalls sizes _).1 = data.target
      rcases List.mem_cons.mp hr with rfl | hr
      · rw [hstreamed, hempty hzero, List.take_nil, List.drop_nil, List.take_nil, List.append_nil]
      · rw [hwhole ⟨r, hr, hzero⟩, List.take_append_drop]
    · rw [hall, List.length_take]
      omega
    · have hsum : (handedOut (putCalls (size :: sizes) data).1).length =
          (data.target.take size.toNat).length +
          (handedOut (putCalls sizes
              (data.advance (data.target.take size.toNat).length)).1).length := by
        rw [putCalls_cons hsize hlen]
        exact List.length_append
      rw [hsum, ← Nat.sub_sub, putCalls_cons hsize hlen]
      exact hcontentLength
    · rw [putCalls_cons hsize hlen]
      refine .cons (fun r hr hzero => ?_) hended
      refine ret_eq_zero_of_target_nil hrest hlen' ?_ r hr
      rw [hnext, hempty hzero, List.drop_nil]

end

/-- A file of five bytes with a `content_length` of seven. -/
theorem streamsExactly_five : StreamsExactly [2, 1, 4, 4, 9] ⟨[1, 2, 3, 4, 5], 0, 7⟩ :=
  streamsExactly (by decide) (by decide)

end App

end CloudTiering
