import CloudTiering.Foundations.SparseBytes

/-!
# Buffered streams

A program that reads or writes a content through a stream does not meet the content itself at each
of its calls.  A stream that is read fetches cells ahead of what it has handed over; a stream that
is written keeps cells back.  When cells are fetched, or flushed, and how many at a time, is up to
the library behind the stream.

* `Reader`, `Reader.fetch`, `Reader.take`: a stream that is read.
* `Reader.Stands`: where it stands, whatever becomes of the content.
* `Reader.Follows`: what it hands over is the content, as long as nothing changes that has been
  fetched.
* `Writer`, `Writer.put`, `Writer.flush`: a stream that is written.
-/

namespace CloudTiering
namespace Foundations

variable {β : Type}

/-! ## Reading -/

/-- A stream that is read. -/
structure Reader (β : Type) where
  /-- How many cells have been fetched. -/
  pos : ℕ := 0
  /-- The cells that have been fetched and not handed over. -/
  ahead : List β := []
  /-- The end of the content has been met. -/
  atEnd : Bool := false

/-- At most `n` cells more are fetched from the content. -/
def Reader.fetch (r : Reader β) (d : List β) (n : ℕ) : Reader β where
  pos := r.pos + (readAt d r.pos n).length
  ahead := r.ahead ++ readAt d r.pos n
  atEnd := r.atEnd || (decide (0 < n) && (readAt d r.pos n).isEmpty)

/-- `n` cells are handed over: they have been fetched, or there are no more. -/
def Reader.take (r : Reader β) (n : ℕ) : Option (List β × Reader β) :=
  if n ≤ r.ahead.length ∨ r.atEnd = true then
    some (r.ahead.take n, { r with ahead := r.ahead.drop n })
  else none

namespace Reader

variable {r r' : Reader β} {d d' got bs : List β} {n k : ℕ}

theorem take_eq_some (h : r.take k = some (bs, r')) :
    (k ≤ r.ahead.length ∨ r.atEnd = true) ∧ bs = r.ahead.take k ∧
      r' = { r with ahead := r.ahead.drop k } := by
  obtain ⟨hk, hx⟩ := Option.ite_none_right_eq_some.mp h
  obtain ⟨rfl, rfl⟩ := Prod.mk.inj (Option.some.inj hx)
  exact ⟨hk, rfl, rfl⟩

/-- The stream has handed over `got`, and it has not met the end of a content of `n` cells too
early. -/
structure Stands (r : Reader β) (got : List β) (n : ℕ) : Prop where
  pos : r.pos = got.length + r.ahead.length
  atEnd : r.atEnd = true → n ≤ r.pos

theorem Stands.initial (n : ℕ) : ({} : Reader β).Stands [] n :=
  ⟨rfl, fun h => absurd h Bool.false_ne_true⟩

theorem Stands.fetch (h : r.Stands got n) (hn : n ≤ d.length) (k : ℕ) :
    (r.fetch d k).Stands got n := by
  refine ⟨?_, ?_⟩
  · show r.pos + _ = got.length + (r.ahead ++ _).length
    rw [h.pos, List.length_append, Nat.add_assoc]
  · intro hend
    show n ≤ r.pos + _
    rcases Bool.or_eq_true_iff.mp hend with hbefore | hnow
    · exact Nat.le_trans (h.atEnd hbefore) (Nat.le_add_right _ _)
    · obtain ⟨hk, hempty⟩ := Bool.and_eq_true_iff.mp hnow
      by_contra hlt
      refine readAt_ne_nil ?_ (of_decide_eq_true hk) (List.isEmpty_iff.mp hempty)
      omega

theorem Stands.take (h : r.Stands got n) (ht : r.take k = some (bs, r')) :
    r'.Stands (got ++ bs) n := by
  obtain ⟨-, rfl, rfl⟩ := take_eq_some ht
  refine ⟨?_, h.atEnd⟩
  show r.pos = (got ++ r.ahead.take k).length + (r.ahead.drop k).length
  rw [h.pos, List.length_append, List.length_take, List.length_drop]
  omega

/-- A stream that has not handed over `n` cells hands over some more. -/
theorem Stands.take_ne_nil (h : r.Stands got n) (hlt : got.length < n) (hk : 0 < k)
    (ht : r.take k = some (bs, r')) : bs ≠ [] := by
  obtain ⟨hbound, rfl, -⟩ := take_eq_some ht
  intro hnil
  have hlength := congrArg List.length hnil
  rw [List.length_take, List.length_nil] at hlength
  rcases hbound with hle | hend
  · omega
  · have hpos := h.pos
    have hn := h.atEnd hend
    omega

/-- What has been handed over, and what has been fetched ahead, is the beginning of the content. -/
def Follows (r : Reader β) (got d : List β) : Prop := got ++ r.ahead <+: d

theorem Follows.initial (d : List β) : ({} : Reader β).Follows [] d := List.nil_prefix

theorem Follows.fetch (h : r.Follows got d) (hs : r.Stands got n) (k : ℕ) :
    (r.fetch d k).Follows got d := by
  have hpos : r.pos = (got ++ r.ahead).length := by
    rw [hs.pos, List.length_append]
  show got ++ (r.ahead ++ readAt d r.pos k) <+: d
  rw [← List.append_assoc, hpos]
  exact prefix_append_readAt h k

theorem Follows.take (h : r.Follows got d) (ht : r.take k = some (bs, r')) :
    r'.Follows (got ++ bs) d := by
  obtain ⟨-, rfl, rfl⟩ := take_eq_some ht
  show got ++ r.ahead.take k ++ r.ahead.drop k <+: d
  rw [List.append_assoc, List.take_append_drop]
  exact h

/-- **A stream over a content that nobody changes** hands over what there is behind what it has
handed over. -/
theorem Follows.take_eq (h : r.Follows got d) (hs : r.Stands got d.length)
    (ht : r.take k = some (bs, r')) : bs = readAt d got.length k := by
  obtain ⟨hk, rfl, -⟩ := take_eq_some ht
  obtain ⟨rest, rfl⟩ := h
  have hbehind : (got ++ r.ahead ++ rest).drop got.length = r.ahead ++ rest := by
    rw [List.append_assoc, List.drop_left]
  rw [readAt, hbehind]
  rcases hk with hk | hend
  · exact (List.take_append_of_le_length hk).symm
  · have hpos := hs.pos
    have hle := hs.atEnd hend
    rw [List.length_append, List.length_append] at hle
    rw [List.length_eq_zero_iff.mp (by omega : rest.length = 0), List.append_nil]
/-- The content may change behind what has been fetched. -/
theorem Follows.change (h : r.Follows got d) (hs : r.Stands got n)
    (hsame : d'.take r.pos = d.take r.pos) : r.Follows got d' := by
  have hpos : r.pos = (got ++ r.ahead).length := by
    rw [hs.pos, List.length_append]
  rw [hpos] at hsame
  exact List.prefix_iff_eq_take.mpr ((List.prefix_iff_eq_take.mp h).trans hsame.symm)

theorem Follows.handed (h : r.Follows got d) : got <+: d := (List.prefix_append got r.ahead).trans h

end Reader

/-! ## Writing -/

/-- A stream that is written. -/
structure Writer (β : Type) where
  /-- How many cells have been flushed. -/
  pos : ℕ := 0
  /-- The cells that have not been flushed. -/
  pending : List β := []

/-- Cells are handed to the stream. -/
def Writer.put (w : Writer β) (bs : List β) : Writer β := { w with pending := w.pending ++ bs }

/-- The stream after the first `n` of the cells that it keeps back have gone to the content. -/
def Writer.flush (w : Writer β) (n : ℕ) : Writer β where
  pos := w.pos + (w.pending.take n).length
  pending := w.pending.drop n

end Foundations
end CloudTiering
