import CloudTiering.App.ObjectId
import Mathlib.Data.List.GetD
import Mathlib.Data.List.Induction

/-!
# The object ids of earlier uploads

The object id is built in a thread-local buffer, and `upload_file` stores the whole buffer.  Behind
the end of the id there is what longer ids of earlier uploads have left.

* `bufAfter`, `objectIdAttribute`: the buffer after a history of uploads, and the attribute that the
  next upload stores.
* `leftBehind`: what a history has left at a position of the buffer.
* `objectIdAttribute_eq_iff`: two histories yield the same attribute exactly if they have left the
  same behind the end of the id.
-/

namespace CloudTiering

open Foundations

namespace App

/-! ## The buffer and the attribute -/

/-- The buffer after uploads of these paths by one thread, in this order.  An upload that does not
come to the object id leaves the buffer alone and is not part of the history. -/
def bufAfter (history : List Bytes) : Bytes :=
  history.foldl (fun buf path => s3GetObjectIdXattrValue path buf) (List.replicate s3XattrSize 0)

/-- What `upload_file` stores as the attribute of the file at `path`. -/
def objectIdAttribute (history : List Bytes) (path : Bytes) : Bytes :=
  (s3GetObjectIdXattrValue path (bufAfter history)).take s3GetObjectIdXattrSize

/-! ## What earlier uploads have left -/

/-- What the last id of the history that reaches position `k`, with its `'\0'`, has left there; `0`
if none does. -/
def leftBehind (history : List Bytes) (k : ℕ) : UInt8 :=
  (history.reverse.find? fun path => k ≤ s3KeyLen path).elim 0 fun path => (s3Key path).getD k 0

section

variable {history : List Bytes} {path : Bytes} {k : ℕ}

theorem length_bufAfter (history : List Bytes) : (bufAfter history).length = s3XattrSize := by
  induction history using List.reverseRecOn with
  | nil => exact List.length_replicate
  | append_singleton history path ih =>
    rw [bufAfter, List.foldl_append]
    exact (length_s3GetObjectIdXattrValue path _).trans ih

theorem leftBehind_concat :
    leftBehind (history ++ [path]) k =
      if k ≤ s3KeyLen path then (s3Key path).getD k 0 else leftBehind history k := by
  rw [leftBehind, List.reverse_append, List.reverse_singleton, List.singleton_append,
    List.find?_cons]
  by_cases hk : k ≤ s3KeyLen path
  · rw [if_pos hk, decide_eq_true hk]
    rfl
  · rw [if_neg hk, decide_eq_false hk]
    rfl

/-- The buffer behind a fresh id. -/
theorem getElem?_s3GetObjectIdXattrValue {buf : Bytes} (hb : buf.length = s3XattrSize) :
    (s3GetObjectIdXattrValue path buf)[k]? =
      if k ≤ s3KeyLen path then some ((s3Key path).getD k 0) else buf[k]? := by
  rw [s3GetObjectIdXattrValue_eq_append hb]
  rcases Nat.lt_trichotomy k (s3KeyLen path) with hk | rfl | hk
  · rw [if_pos hk.le, List.getElem?_append_left (by rw [length_s3Key]; exact hk),
      List.getElem?_eq_getElem (by rw [length_s3Key]; exact hk), List.getD_eq_getElem]
  · rw [if_pos (Nat.le_refl _), List.getElem?_append_right (by rw [length_s3Key]), length_s3Key,
      Nat.sub_self, List.getD_eq_default _ _ (by rw [length_s3Key])]
    rfl
  · obtain ⟨d, rfl⟩ := Nat.exists_eq_add_of_lt hk
    rw [if_neg (by omega), List.getElem?_append_right (by rw [length_s3Key]; omega), length_s3Key,
      show s3KeyLen path + d + 1 - s3KeyLen path = d + 1 from by omega, List.getElem?_cons_succ,
      List.getElem?_drop]
    exact congrArg (buf[·]?) (by omega)

/-- **The buffer, position by position.** -/
theorem getElem?_bufAfter (history : List Bytes) (hk : k < s3XattrSize) :
    (bufAfter history)[k]? = some (leftBehind history k) := by
  induction history using List.reverseRecOn with
  | nil =>
    show (List.replicate s3XattrSize (0 : UInt8))[k]? = some 0
    rw [List.getElem?_replicate, if_pos hk]
  | append_singleton history path ih =>
    have hstep : bufAfter (history ++ [path]) =
        s3GetObjectIdXattrValue path (bufAfter history) := by
      rw [bufAfter, List.foldl_append]
      rfl
    rw [hstep, getElem?_s3GetObjectIdXattrValue (length_bufAfter history), leftBehind_concat, ih]
    split <;> rfl

/-- The attribute, position by position. -/
theorem getElem?_objectIdAttribute (history : List Bytes) (path : Bytes) (hk : k < s3XattrSize) :
    (objectIdAttribute history path)[k]? =
      if k ≤ s3KeyLen path then some ((s3Key path).getD k 0) else some (leftBehind history k) := by
  rw [objectIdAttribute, List.getElem?_take_of_lt (show k < s3GetObjectIdXattrSize from hk),
    getElem?_s3GetObjectIdXattrValue (length_bufAfter history), getElem?_bufAfter history hk]

theorem length_objectIdAttribute (history : List Bytes) (path : Bytes) :
    (objectIdAttribute history path).length = s3XattrSize := by
  rw [objectIdAttribute, List.length_take, length_s3GetObjectIdXattrValue, length_bufAfter]
  rfl

end

/-! ## The result -/

/-- **When the attribute tells nothing about earlier uploads.**  After two histories `upload_file`
stores the same bytes for a path exactly if both have left the same behind the end of the path's
id. -/
theorem objectIdAttribute_eq_iff (path : Bytes) (history₁ history₂ : List Bytes) :
    objectIdAttribute history₁ path = objectIdAttribute history₂ path ↔
      ∀ k, s3KeyLen path < k → k < s3XattrSize → leftBehind history₁ k = leftBehind history₂ k := by
  constructor
  · intro h k hk hlt
    have hget := congrArg (fun value : Bytes => value[k]?) h
    rw [getElem?_objectIdAttribute _ _ hlt, getElem?_objectIdAttribute _ _ hlt,
      if_neg (Nat.not_le.mpr hk), if_neg (Nat.not_le.mpr hk)] at hget
    exact Option.some.inj hget
  · intro h
    refine List.ext_getElem? fun k => ?_
    by_cases hlt : k < s3XattrSize
    · rw [getElem?_objectIdAttribute _ _ hlt, getElem?_objectIdAttribute _ _ hlt]
      split
      · rfl
      next hk => rw [h k (Nat.lt_of_not_le hk) hlt]
    · rw [List.getElem?_eq_none (by rw [length_objectIdAttribute]; exact Nat.le_of_not_lt hlt),
        List.getElem?_eq_none (by rw [length_objectIdAttribute]; exact Nat.le_of_not_lt hlt)]

/-- **The attribute of `/a` tells of an earlier upload** of `/bcd`. -/
theorem objectIdAttribute_tells :
    ¬ ∀ (path : Bytes) (history₁ history₂ : List Bytes), path ∉ history₁ → path ∉ history₂ →
      objectIdAttribute history₁ path = objectIdAttribute history₂ path := by
  intro h
  have heq := h (ascii "/a") [] [ascii "/bcd"] (by decide) (by decide)
  have hget := congrArg (fun value : Bytes => value[3]?) heq
  rw [getElem?_objectIdAttribute _ _ (by decide),
    getElem?_objectIdAttribute _ _ (by decide)] at hget
  exact absurd hget (by decide)

end App

end CloudTiering
