import CloudTiering.Foundations.SlotMemory

/-!
# Text printed piece by piece into a buffer

A buffer is the first `N` cells of a memory.  A piece is printed with a size, the number of cells
that may be written from its place on: as much of it as fits is followed by a terminator, and a size
of zero writes nothing.  When each piece is printed behind the whole length of those before it, with
the rest of the buffer as its size, the buffer holds the beginning of the text.

* `truncated`: what printing a piece writes.
* `HoldsText`: the buffer holds the beginning of a text, with a terminator.
* `HoldsText.of_lt`, `HoldsText.of_full`: one more piece, in a buffer with room and in a full one.
-/

namespace CloudTiering
namespace Foundations

variable {β : Type} (M N : ℕ) (z : β)

/-- What is written for a text when `size` cells may be written. -/
def truncated (size : ℕ) (text : List β) : List β :=
  if size = 0 then [] else text.take (size - 1) ++ [z]

/-- The buffer holds as much of the text as fits in front of a terminator. -/
def HoldsText (mem : ℕ → β) (text : List β) : Prop :=
  peek M mem 0 ((text.take (N - 1)).length + 1) = text.take (N - 1) ++ [z]

variable {M N z} {mem : ℕ → β} {text piece : List β} {size : ℕ}

@[simp] theorem truncated_zero : truncated z 0 text = [] := rfl

theorem truncated_of_pos (h : 0 < size) : truncated z size text = text.take (size - 1) ++ [z] :=
  if_neg (Nat.ne_of_gt h)

theorem length_truncated_le : (truncated z size text).length ≤ size := by
  rcases Nat.eq_zero_or_pos size with rfl | h
  · exact Nat.le_refl 0
  · rw [truncated_of_pos h, List.length_append, List.length_take, List.length_singleton]
    omega

/-- **A piece in a buffer with room for it to begin.** -/
theorem HoldsText.of_lt (hN : N ≤ M) (hlen : text.length < N)
    (hmem : peek M mem 0 text.length = text) :
    HoldsText M N z (poke M mem text.length (truncated z (N - text.length) piece))
      (text ++ piece) := by
  have htake : (text ++ piece).take (N - 1) = text ++ piece.take (N - text.length - 1) := by
    rw [List.take_append, List.take_of_length_le (by omega), Nat.sub_right_comm]
  have hwritten : truncated z (N - text.length) piece = piece.take (N - text.length - 1) ++ [z] :=
    truncated_of_pos (by omega)
  have hroom : (truncated z (N - text.length) piece).length ≤ N - text.length := length_truncated_le
  have hsize : ((text ++ piece).take (N - 1)).length + 1 =
      text.length + (truncated z (N - text.length) piece).length := by
    rw [htake, hwritten, List.length_append, List.length_append, List.length_singleton]
    omega
  have happart : Apart M 0 text.length text.length
      (truncated z (N - text.length) piece).length := by
    intro j hj k hk heq
    rw [Nat.mod_eq_of_lt (by omega), Nat.mod_eq_of_lt (by omega)] at heq
    omega
  rw [HoldsText, hsize, peek_append, peek_poke_of_apart happart, hmem, Nat.zero_add,
    peek_poke_self (by omega), htake, hwritten, List.append_assoc]

/-- **A piece behind a full buffer.** -/
theorem HoldsText.of_full (hlen : text.length = N) (h : HoldsText M N z mem text) :
    HoldsText M N z (poke M mem text.length (truncated z (N - text.length) piece))
      (text ++ piece) := by
  have htake : (text ++ piece).take (N - 1) = text.take (N - 1) :=
    List.take_append_of_le_length (by omega)
  rw [HoldsText, htake, hlen, Nat.sub_self, truncated_zero]
  exact h

/-- As long as there is room, the text is there whole. -/
theorem HoldsText.peek_eq (h : HoldsText M N z mem text) (hlen : text.length < N) :
    peek M mem 0 text.length = text := by
  rw [HoldsText, List.take_of_length_le (by omega)] at h
  have htake := congrArg (List.take text.length) h
  rwa [take_peek (Nat.le_succ _), List.take_left' rfl] at htake

/-- The buffer from its first cell on: what is held of the text, the terminator, the rest. -/
theorem HoldsText.peek_buffer (h : HoldsText M N z mem text) (hN : 0 < N) :
    ∃ rest, peek M mem 0 N = text.take (N - 1) ++ z :: rest := by
  have hlen : (text.take (N - 1)).length + 1 ≤ N := by
    rw [List.length_take]
    omega
  obtain ⟨k, hk⟩ := Nat.exists_eq_add_of_le hlen
  refine ⟨peek M mem (0 + ((text.take (N - 1)).length + 1)) k, ?_⟩
  conv_lhs => rw [hk]
  rw [peek_append, h, List.append_assoc]
  rfl

end Foundations
end CloudTiering
