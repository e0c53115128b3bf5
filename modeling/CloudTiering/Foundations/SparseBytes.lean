import Mathlib.Data.List.Basic

/-!
# Contents that can be resized and written at an offset

The content of a file is a list of cells.  Setting a new length cuts the list or fills it up with
default cells; writing past the end fills the gap likewise.  These are the rules that the transfer
of a content in pieces needs: pieces read one after the other give back a prefix, and pieces written
one after the other from position `0` are one write of their concatenation.

* `resize`, `readAt`, `writeAt`, with their lengths and their cells.
* `take_append_readAt`: reading on extends the prefix that has been read.
* `writeAt_writeAt`, `writeAt_append`: writing on extends what has been written.
-/

namespace CloudTiering
namespace Foundations

variable {β : Type} [Inhabited β]

/-- The content cut or filled up to length `n`. -/
def resize (d : List β) (n : ℕ) : List β := d.take n ++ List.replicate (n - d.length) default

/-- At most `n` cells from position `off` on; fewer where the content ends. -/
def readAt (d : List β) (off n : ℕ) : List β := (d.drop off).take n

/-- The content with the cells `bs` written at position `off`.  An empty write does nothing, also
past the end. -/
def writeAt (d : List β) (off : ℕ) : List β → List β
  | [] => d
  | b :: bs => resize d off ++ (b :: bs) ++ d.drop (off + (b :: bs).length)

/-! ## Lengths and cells -/

@[simp] theorem length_resize (d : List β) (n : ℕ) : (resize d n).length = n := by
  rw [resize, List.length_append, List.length_take, List.length_replicate]
  omega

theorem resize_zero (d : List β) : resize d 0 = [] := by
  simp [resize]

theorem resize_nil (n : ℕ) : resize ([] : List β) n = List.replicate n default := by
  rw [resize, List.take_nil, List.nil_append, List.length_nil, Nat.sub_zero]

theorem getElem?_resize (d : List β) (n i : ℕ) :
    (resize d n)[i]? = if i < n then some (d[i]?.getD default) else none := by
  by_cases hi : i < d.length
  · by_cases hn : i < n
    · rw [resize, List.getElem?_append_left (by rw [List.length_take]; omega),
        List.getElem?_take_of_lt hn, if_pos hn, List.getElem?_eq_getElem hi]
      rfl
    · rw [if_neg hn, List.getElem?_eq_none (by rw [length_resize]; omega)]
  · by_cases hn : i < n
    · rw [resize, List.getElem?_append_right (by rw [List.length_take]; omega), if_pos hn,
        List.getElem?_replicate, if_pos (by rw [List.length_take]; omega),
        List.getElem?_eq_none (by omega : d.length ≤ i)]
      rfl
    · rw [if_neg hn, List.getElem?_eq_none (by rw [length_resize]; omega)]

@[simp] theorem writeAt_nil (d : List β) (off : ℕ) : writeAt d off [] = d := rfl

theorem writeAt_of_ne_nil (d : List β) (off : ℕ) {bs : List β} (h : bs ≠ []) :
    writeAt d off bs = resize d off ++ bs ++ d.drop (off + bs.length) := by
  cases bs with
  | nil => exact absurd rfl h
  | cons b bs => rfl

theorem length_writeAt (d : List β) (off : ℕ) {bs : List β} (h : bs ≠ []) :
    (writeAt d off bs).length = max d.length (off + bs.length) := by
  rw [writeAt_of_ne_nil d off h, List.length_append, List.length_append, length_resize,
    List.length_drop]
  omega

theorem length_le_length_writeAt (d : List β) (off : ℕ) (bs : List β) :
    d.length ≤ (writeAt d off bs).length := by
  by_cases h : bs = []
  · subst h
    exact Nat.le_refl _
  · rw [length_writeAt d off h]
    omega

/-- A cell after a write: the written cell where there is one, the old cell or the filling before
and after. -/
theorem getElem?_writeAt (d : List β) (off i : ℕ) {bs : List β} (h : bs ≠ []) :
    (writeAt d off bs)[i]? =
      if i < off then some (d[i]?.getD default)
      else if i < off + bs.length then bs[i - off]? else d[i]? := by
  rw [writeAt_of_ne_nil d off h]
  by_cases h1 : i < off
  · rw [List.append_assoc, List.getElem?_append_left (by rw [length_resize]; exact h1), if_pos h1,
      getElem?_resize, if_pos h1]
  · rw [if_neg h1, List.append_assoc, List.getElem?_append_right (by rw [length_resize]; omega),
      length_resize]
    by_cases h2 : i < off + bs.length
    · rw [if_pos h2, List.getElem?_append_left (by omega)]
    · rw [if_neg h2, List.getElem?_append_right (by omega), List.getElem?_drop]
      congr 1
      omega

omit [Inhabited β] in
theorem getElem?_readAt (d : List β) (off n i : ℕ) :
    (readAt d off n)[i]? = if i < n then d[off + i]? else none := by
  rw [readAt]
  by_cases h : i < n
  · rw [if_pos h, List.getElem?_take_of_lt h, List.getElem?_drop]
  · rw [if_neg h, List.getElem?_eq_none (by rw [List.length_take]; omega)]

/-! ## Reading on -/

omit [Inhabited β] in
theorem length_readAt (d : List β) (off n : ℕ) :
    (readAt d off n).length = min n (d.length - off) := by
  rw [readAt, List.length_take, List.length_drop]

omit [Inhabited β] in
theorem readAt_drop (d : List β) (k off n : ℕ) :
    readAt (d.drop k) off n = readAt d (k + off) n := by
  rw [readAt, readAt, List.drop_drop]

omit [Inhabited β] in
/-- What is read behind a prefix extends the prefix. -/
theorem take_append_readAt (d : List β) (r n : ℕ) :
    d.take r ++ readAt d r n = d.take (r + n) := by
  rw [readAt, List.take_add]

omit [Inhabited β] in
theorem prefix_append_readAt {d x : List β} (h : x <+: d) (n : ℕ) :
    x ++ readAt d x.length n <+: d := by
  have hx := List.prefix_iff_eq_take.mp h
  calc x ++ readAt d x.length n = d.take x.length ++ readAt d x.length n := by rw [← hx]
    _ = d.take (x.length + n) := take_append_readAt d x.length n
    _ <+: d := List.take_prefix _ _

omit [Inhabited β] in
theorem readAt_ne_nil {d : List β} {off n : ℕ} (hoff : off < d.length) (hn : 0 < n) :
    readAt d off n ≠ [] := by
  intro h
  have := congrArg List.length h
  rw [length_readAt, List.length_nil] at this
  omega

/-! ## Writing on -/

/-- **Two writes one behind the other are one write.** -/
theorem writeAt_writeAt (d x y : List β) (off : ℕ) :
    writeAt (writeAt d off x) (off + x.length) y = writeAt d off (x ++ y) := by
  by_cases hx : x = []
  · rw [hx, writeAt_nil, List.length_nil, Nat.add_zero, List.nil_append]
  by_cases hy : y = []
  · rw [hy, writeAt_nil, List.append_nil]
  have hlen : (resize d off ++ x).length = off + x.length := by
    rw [List.length_append, length_resize]
  have hcut : resize (resize d off ++ x ++ d.drop (off + x.length)) (off + x.length) =
      resize d off ++ x := by
    rw [resize, List.take_left' hlen, List.length_append, hlen,
      Nat.sub_eq_zero_of_le (Nat.le_add_right _ _)]
    exact List.append_nil _
  rw [writeAt_of_ne_nil _ _ hy, writeAt_of_ne_nil _ _ hx, writeAt_of_ne_nil _ _ (by simp [hx]),
    hcut, List.drop_append, hlen, List.drop_eq_nil_of_le (by omega), List.nil_append,
    List.drop_drop, List.length_append]
  simp only [List.append_assoc]
  congr 4
  omega

theorem writeAt_append (d x y : List β) :
    writeAt (writeAt d 0 x) x.length y = writeAt d 0 (x ++ y) := by
  have h := writeAt_writeAt d x y 0
  rwa [Nat.zero_add] at h

/-! ## Writing from the beginning -/

theorem writeAt_zero (d bs : List β) : writeAt d 0 bs = bs ++ d.drop bs.length := by
  by_cases h : bs = []
  · rw [h, writeAt_nil]
    rfl
  · rw [writeAt_of_ne_nil d 0 h, resize_zero, List.nil_append, Nat.zero_add]

/-- A write from the beginning that is long enough is the whole content. -/
theorem writeAt_zero_of_le {d bs : List β} (h : d.length ≤ bs.length) : writeAt d 0 bs = bs := by
  rw [writeAt_zero, List.drop_eq_nil_of_le h, List.append_nil]

theorem length_writeAt_zero (d bs : List β) :
    (writeAt d 0 bs).length = max d.length bs.length := by
  rw [writeAt_zero, List.length_append, List.length_drop]
  omega

/-- Writing the beginning of a content over a shorter one does not make it longer than that. -/
theorem length_writeAt_zero_le {d bs obj : List β} (hd : d.length ≤ obj.length) (hbs : bs <+: obj) :
    (writeAt d 0 bs).length ≤ obj.length := by
  have := hbs.length_le
  rw [length_writeAt_zero]
  omega

end Foundations
end CloudTiering
