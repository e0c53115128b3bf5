import CloudTiering.App.S3Ops
import Mathlib.Data.List.TakeWhile

/-!
# Object ids

What `s3_get_object_id_xattr_value` leaves in the thread-local buffer.  The string in the buffer
ends within the bytes that are stored as the attribute, so the attribute names the object that the
upload has written.  Two paths share an id if they agree in what the key keeps of them.
-/

namespace CloudTiering

namespace App

/-! ## C strings -/

/-- A string that ends before position `n` is seen in the first `n` bytes. -/
theorem cString_take {b : Bytes} {k n : ℕ} (hk : b[k]? = some 0) (hkn : k < n) :
    cString (b.take n) = cString b := by
  induction b generalizing k n with
  | nil => simp [cString]
  | cons c b ih =>
    cases n with
    | zero => omega
    | succ n =>
      rw [List.take_succ_cons, cString, cString, List.takeWhile_cons, List.takeWhile_cons]
      by_cases hc : c = 0
      · simp [hc]
      · cases k with
        | zero => exact absurd (Option.some.inj hk) hc
        | succ k =>
          have := ih (k := k) (n := n) (by simpa using hk) (by omega)
          rw [cString, cString] at this
          rw [this]

/-! ## The key of a path -/

theorem s3GetObjectIdXattrSize_ne_zero : s3GetObjectIdXattrSize ≠ 0 := by decide

@[simp] theorem length_s3KeyLoop (path : Bytes) (keyLen n : ℕ) (buf : Bytes) :
    (s3KeyLoop path keyLen n buf).length = buf.length := by
  induction n generalizing buf with
  | zero => rfl
  | succ n ih => rw [s3KeyLoop, ih, List.length_set]

/-- The length of the key of a path. -/
def s3KeyLen (path : Bytes) : ℕ := min path.length s3MaxKeySize

theorem s3KeyLen_le (path : Bytes) : s3KeyLen path ≤ s3MaxKeySize := Nat.min_le_right _ _

theorem s3GetObjectIdXattrValue_eq (path buf : Bytes) :
    s3GetObjectIdXattrValue path buf =
      (s3KeyLoop path (s3KeyLen path) (s3KeyLen path) buf).set (s3KeyLen path) 0 := by
  have hlen : (if path.length > s3MaxKeySize then s3MaxKeySize else path.length) =
      s3KeyLen path := by
    rw [s3KeyLen]
    split <;> omega
  rw [s3GetObjectIdXattrValue, hlen]

@[simp] theorem length_s3GetObjectIdXattrValue (path buf : Bytes) :
    (s3GetObjectIdXattrValue path buf).length = buf.length := by
  rw [s3GetObjectIdXattrValue_eq, List.length_set, length_s3KeyLoop]

/-- **The attribute names the stored object**: the part of the buffer that becomes the attribute
holds the whole key. -/
theorem cString_take_s3GetObjectIdXattrValue (path buf : Bytes) :
    cString ((s3GetObjectIdXattrValue path buf).take s3GetObjectIdXattrSize) =
      cString (s3GetObjectIdXattrValue path buf) := by
  have hlt : s3KeyLen path < s3GetObjectIdXattrSize := Nat.lt_succ_of_le (s3KeyLen_le path)
  by_cases hb : s3KeyLen path < buf.length
  · refine cString_take (k := s3KeyLen path) ?_ hlt
    rw [s3GetObjectIdXattrValue_eq]
    exact List.getElem?_set_self (by rw [length_s3KeyLoop]; exact hb)
  · rw [List.take_of_length_le]
    rw [length_s3GetObjectIdXattrValue]
    omega

/-! ## The key does not depend on what was in the buffer -/

/-- The characters of a key. -/
def s3Key (path : Bytes) : Bytes := ((path.take s3MaxKeySize).map s3KeyChar).reverse

theorem length_s3Key (path : Bytes) : (s3Key path).length = s3KeyLen path := by
  rw [s3Key, List.length_reverse, List.length_map, List.length_take, s3KeyLen, Nat.min_comm]

theorem getElem?_s3Key (path : Bytes) {j : ℕ} (hj : j < s3KeyLen path) :
    (s3Key path)[j]? = some (s3KeyChar (path.getD (s3KeyLen path - j - 1) 0)) := by
  have hlen : ((path.take s3MaxKeySize).map s3KeyChar).length = s3KeyLen path := by
    rw [List.length_map, List.length_take, s3KeyLen, Nat.min_comm]
  have hk : s3KeyLen path ≤ path.length := Nat.min_le_left _ _
  have hm := s3KeyLen_le path
  rw [s3Key, List.getElem?_reverse (by rw [hlen]; exact hj), hlen, List.getElem?_map,
    List.getElem?_take_of_lt (by omega), Nat.sub_right_comm, List.getD_eq_getElem?_getD,
    List.getElem?_eq_getElem (by omega)]
  rfl

/-- The loop puts the characters of the key in front of what it has not come to yet. -/
theorem s3KeyLoop_eq (path : Bytes) {n : ℕ} {buf : Bytes} (hn : n ≤ s3KeyLen path)
    (hb : s3KeyLen path < buf.length)
    (hdone : buf.take (s3KeyLen path - n) = (s3Key path).take (s3KeyLen path - n)) :
    s3KeyLoop path (s3KeyLen path) n buf = s3Key path ++ buf.drop (s3KeyLen path) := by
  induction n generalizing buf with
  | zero =>
    rw [Nat.sub_zero, List.take_of_length_le (l := s3Key path)
      (Nat.le_of_eq (length_s3Key path))] at hdone
    rw [s3KeyLoop, ← hdone, List.take_append_drop]
  | succ n ih =>
    let pos := s3KeyLen path - (n + 1)
    have hpos : s3KeyLen path - n = pos + 1 := by omega
    rw [s3KeyLoop, ih (by omega) (by rw [List.length_set]; exact hb),
      List.drop_set_of_lt (by omega)]
    rw [hpos, List.take_add_one, List.take_add_one, List.take_set_of_le (Nat.le_refl _), hdone,
      List.getElem?_set_self (by omega), getElem?_s3Key path (by omega)]

/-- **The buffer afterwards**: the key, its end, and whatever was there behind it. -/
theorem s3GetObjectIdXattrValue_eq_append {path buf : Bytes} (hb : buf.length = s3XattrSize) :
    s3GetObjectIdXattrValue path buf = s3Key path ++ 0 :: buf.drop (s3KeyLen path + 1) := by
  have hlt : s3KeyLen path < buf.length := by
    have := s3KeyLen_le path
    rw [hb, s3XattrSize]
    omega
  rw [s3GetObjectIdXattrValue_eq, s3KeyLoop_eq path (Nat.le_refl _) hlt (by simp),
    List.drop_eq_getElem_cons hlt, List.set_append_right _ _ (Nat.le_of_eq (length_s3Key path)),
      length_s3Key,
    Nat.sub_self]
  rfl

/-- **The key is a function of the path.** -/
theorem cString_s3GetObjectIdXattrValue {path buf : Bytes} (hb : buf.length = s3XattrSize) :
    cString (s3GetObjectIdXattrValue path buf) = cString (s3Key path) := by
  rw [s3GetObjectIdXattrValue_eq_append hb, cString, cString, List.takeWhile_append]
  split
  · next h =>
      rw [List.takeWhile_cons_of_neg (by simp), List.append_nil]
      exact (List.takeWhile_prefix _).eq_of_length h |>.symm
  · rfl

/-! ## Which paths share a key -/

theorem s3KeyChar_ne_zero {c : UInt8} (hc : c ≠ 0) : s3KeyChar c ≠ 0 := by
  rw [s3KeyChar]
  split
  · decide
  · exact hc

/-- The key of a path ends where the path ends. -/
theorem cString_s3Key {path : Bytes} (hpath : 0 ∉ path) : cString (s3Key path) = s3Key path := by
  refine List.takeWhile_eq_self_iff.mpr fun c hc => ?_
  obtain ⟨d, hd, rfl⟩ := List.mem_map.mp (List.mem_reverse.mp hc)
  have hne : d ≠ 0 := by
    rintro rfl
    exact hpath (List.mem_of_mem_take hd)
  simpa using s3KeyChar_ne_zero hne

/-- The keys of two paths differ where the paths do, position by position. -/
theorem s3Key_ne_iff (p q : Bytes) :
    s3Key p ≠ s3Key q ↔ ∃ i < s3MaxKeySize, (p[i]?).map s3KeyChar ≠ (q[i]?).map s3KeyChar := by
  have hkey : s3Key p = s3Key q ↔ ∀ i : ℕ, ((p.take s3MaxKeySize).map s3KeyChar)[i]? =
      ((q.take s3MaxKeySize).map s3KeyChar)[i]? := by
    rw [s3Key, s3Key, List.reverse_inj, List.ext_getElem?_iff]
  have hget : ∀ (r : Bytes) (i : ℕ), ((r.take s3MaxKeySize).map s3KeyChar)[i]? =
      if i < s3MaxKeySize then (r[i]?).map s3KeyChar else none := by
    intro r i
    rw [List.getElem?_map, List.getElem?_take]
    split <;> rfl
  rw [Ne, hkey, not_forall]
  constructor
  · rintro ⟨i, hi⟩
    rw [hget, hget] at hi
    by_cases hlt : i < s3MaxKeySize
    · rw [if_pos hlt, if_pos hlt] at hi
      exact ⟨i, hlt, hi⟩
    · rw [if_neg hlt, if_neg hlt] at hi
      exact absurd rfl hi
  · rintro ⟨i, hlt, hi⟩
    refine ⟨i, ?_⟩
    rw [hget, hget, if_pos hlt, if_pos hlt]
    exact hi

/-- What is in the buffer is an object id: a string of at most `S3_MAX_KEY_SIZE` bytes that ends in
the buffer. -/
def IsObjectId (buf : Bytes) : Prop := 0 ∈ buf ∧ (cString buf).length ≤ s3MaxKeySize

theorem isObjectId_s3GetObjectIdXattrValue (path : Bytes) {buf : Bytes}
    (hb : buf.length = s3XattrSize) :
    IsObjectId (s3GetObjectIdXattrValue path buf) := by
  constructor
  · rw [s3GetObjectIdXattrValue_eq_append hb]
    simp
  · rw [cString_s3GetObjectIdXattrValue hb]
    calc (cString (s3Key path)).length ≤ (s3Key path).length := (List.takeWhile_prefix _).length_le
      _ = s3KeyLen path := length_s3Key path
      _ ≤ s3MaxKeySize := s3KeyLen_le path

/-- **When object ids identify files.**  The ids of two paths are always ids, and they are distinct
if and only if the paths differ within the first `S3_MAX_KEY_SIZE` bytes, other than by `'/'`
against `'-'`. -/
theorem objectIds_distinct_iff {p q : Bytes} (hp : 0 ∉ p) (hq : 0 ∉ q) {buf buf' : Bytes}
    (hb : buf.length = s3XattrSize) (hb' : buf'.length = s3XattrSize) :
    IsObjectId (s3GetObjectIdXattrValue p buf) ∧ IsObjectId (s3GetObjectIdXattrValue q buf') ∧
        cString (s3GetObjectIdXattrValue p buf) ≠ cString (s3GetObjectIdXattrValue q buf') ↔
      ∃ i < s3MaxKeySize, (p[i]?).map s3KeyChar ≠ (q[i]?).map s3KeyChar := by
  rw [cString_s3GetObjectIdXattrValue hb, cString_s3GetObjectIdXattrValue hb', cString_s3Key hp,
    cString_s3Key hq, s3Key_ne_iff]
  exact ⟨fun h => h.2.2, fun h => ⟨isObjectId_s3GetObjectIdXattrValue p hb,
    isObjectId_s3GetObjectIdXattrValue q hb', h⟩⟩

/-- The files `/a` and `/b` have distinct ids. -/
theorem objectIds_distinct_a_b :
    IsObjectId (s3GetObjectIdXattrValue (ascii "/a") (List.replicate s3XattrSize 0)) ∧
      IsObjectId (s3GetObjectIdXattrValue (ascii "/b") (List.replicate s3XattrSize 0)) ∧
      cString (s3GetObjectIdXattrValue (ascii "/a") (List.replicate s3XattrSize 0)) ≠
        cString (s3GetObjectIdXattrValue (ascii "/b") (List.replicate s3XattrSize 0)) :=
  (objectIds_distinct_iff (by decide) (by decide) List.length_replicate List.length_replicate).mpr
    ⟨1, by decide, by decide⟩

/-- The files `/a/b` and `/a-b` share an id. -/
theorem objectIds_shared :
    ¬ ∀ p q buf buf' : Bytes, p ≠ q → p.head? = some 0x2f → q.head? = some 0x2f → 0 ∉ p → 0 ∉ q →
      buf.length = s3XattrSize → buf'.length = s3XattrSize →
      cString (s3GetObjectIdXattrValue p buf) ≠ cString (s3GetObjectIdXattrValue q buf') := by
  intro h
  have hlen : (List.replicate s3XattrSize (0 : UInt8)).length = s3XattrSize := List.length_replicate
  refine h (ascii "/a/b") (ascii "/a-b") _ _ (by decide) rfl rfl (by decide)
    (by decide) hlen hlen ?_
  rw [cString_s3GetObjectIdXattrValue hlen, cString_s3GetObjectIdXattrValue hlen]
  decide

end App

end CloudTiering
