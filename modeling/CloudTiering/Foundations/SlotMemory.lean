import Mathlib.Algebra.Order.Ring.Int
import Mathlib.Data.List.Basic
import Mathlib.Data.Nat.ModEq
import Mathlib.Logic.Function.Basic

/-!
# Slots in a memory whose addresses wrap around

A memory is a function on addresses, and an address is a number modulo `M`.  `N` slots of `s` cells
each stand one behind the other from a base address on; as long as `N * s` does not exceed `M`, they
do not overlap, wherever the base is.  Slot `j` of an endless sequence of slots is stored in slot `j
% N`.

* `peek`, `poke`: reading and writing consecutive cells.
* `Apart`: two ranges of cells have no address in common; writing to one is not seen in the other.
* `apart_slots`, `mod_ne_mod`: different slots are apart, and slots less than `N` steps from each
  other are different.
-/

namespace CloudTiering
namespace Foundations

variable {β : Type} (M : ℕ)

/-- The `n` cells from address `a` on. -/
def peek (mem : ℕ → β) (a n : ℕ) : List β := (List.range n).map fun k => mem ((a + k) % M)

/-- The memory after the cells from address `a` on have been written. -/
def poke (mem : ℕ → β) (a : ℕ) : List β → ℕ → β
  | [] => mem
  | b :: bs => poke (Function.update mem (a % M) b) (a + 1) bs

/-- The `m` cells from `a` on and the `n` cells from `b` on have no address in common. -/
def Apart (a m b n : ℕ) : Prop := ∀ j < m, ∀ k < n, (a + j) % M ≠ (b + k) % M

variable {M} {mem : ℕ → β} {a b m n : ℕ}

/-! ## Reading -/

@[simp] theorem length_peek : (peek M mem a n).length = n := by
  rw [peek, List.length_map, List.length_range]

theorem peek_mod : peek M mem (a % M) n = peek M mem a n := by
  simp only [peek, Nat.mod_add_mod]

theorem peek_append : peek M mem a (m + n) = peek M mem a m ++ peek M mem (a + m) n := by
  simp only [peek, List.range_add, List.map_append, List.map_map, Function.comp_def, Nat.add_assoc]

theorem peek_one : peek M mem a 1 = [mem (a % M)] := rfl

theorem take_peek (h : m ≤ n) : (peek M mem a n).take m = peek M mem a m := by
  obtain ⟨k, rfl⟩ := Nat.exists_eq_add_of_le h
  rw [peek_append, List.take_left' length_peek]

theorem drop_peek (h : m ≤ n) : (peek M mem a n).drop m = peek M mem (a + m) (n - m) := by
  obtain ⟨k, rfl⟩ := Nat.exists_eq_add_of_le h
  rw [peek_append, List.drop_left' length_peek, Nat.add_sub_cancel_left]

/-! ## Writing -/

theorem poke_append {xs ys : List β} :
    poke M mem a (xs ++ ys) = poke M (poke M mem a xs) (a + xs.length) ys := by
  induction xs generalizing mem a with
  | nil => rfl
  | cons x xs ih =>
    rw [List.cons_append, poke, ih, poke, List.length_cons, Nat.add_assoc, Nat.add_comm 1]

theorem poke_mod {bs : List β} : poke M mem (a % M) bs = poke M mem a bs := by
  induction bs generalizing mem a with
  | nil => rfl
  | cons b bs ih => rw [poke, poke, Nat.mod_mod, ← ih, Nat.mod_add_mod, ih]

theorem poke_of_ne {bs : List β} {x : ℕ} (h : ∀ k < bs.length, (a + k) % M ≠ x) :
    poke M mem a bs x = mem x := by
  induction bs generalizing mem a with
  | nil => rfl
  | cons b bs ih =>
    have h0 : a % M ≠ x := h 0 (Nat.succ_pos _)
    rw [poke, ih fun k hk => ?_, Function.update_of_ne h0.symm]
    have := h (k + 1) (Nat.succ_lt_succ hk)
    rwa [← Nat.add_assoc, Nat.add_right_comm] at this

/-- Writing is not seen elsewhere. -/
theorem peek_poke_of_apart {bs : List β} (h : Apart M a m b bs.length) :
    peek M (poke M mem b bs) a m = peek M mem a m := by
  rw [peek, peek]
  refine List.map_congr_left fun j hj => ?_
  exact poke_of_ne fun k hk => (h j (List.mem_range.mp hj) k hk).symm

/-- What has been written is read back. -/
theorem peek_poke_self {bs : List β} (h : bs.length ≤ M) :
    peek M (poke M mem a bs) a bs.length = bs := by
  induction bs generalizing mem a with
  | nil => rfl
  | cons b bs ih =>
    rw [List.length_cons] at h ⊢
    have hfirst : poke M (Function.update mem (a % M) b) (a + 1) bs (a % M) = b := by
      rw [poke_of_ne fun k hk heq => ?_, Function.update_self]
      have hcancel : (k + 1) % M = 0 % M := by
        have hmod : a + (k + 1) ≡ a + 0 [MOD M] := by
          rw [Nat.ModEq, Nat.add_zero a, ← heq, Nat.add_assoc, Nat.add_comm 1]
        exact Nat.ModEq.add_left_cancel' a hmod
      rw [Nat.mod_eq_of_lt (by omega), Nat.zero_mod] at hcancel
      omega
    rw [Nat.add_comm bs.length 1, peek_append, peek_one, poke, hfirst, ih (by omega)]
    rfl

/-! ## Slots -/

theorem Apart.sub {x y m' n' : ℕ} (h : Apart M a m b n) (hx : x + m' ≤ m) (hy : y + n' ≤ n) :
    Apart M (a + x) m' (b + y) n' := by
  intro j hj k hk
  rw [Nat.add_assoc, Nat.add_assoc]
  exact h (x + j) (by omega) (y + k) (by omega)

/-- Addresses less than `M` behind a base are different. -/
theorem eq_of_mod_eq {u v : ℕ} (hu : u < M) (hv : v < M) (h : (a + u) % M = (a + v) % M) : u = v :=
  Nat.ModEq.eq_of_lt_of_lt (Nat.ModEq.add_left_cancel' a h) hu hv

theorem slot_cell_lt {N s j k : ℕ} (hj : j < N) (hk : k < s) : j * s + k < N * s :=
  calc j * s + k < j * s + s := Nat.add_lt_add_left hk _
    _ = (j + 1) * s := (Nat.succ_mul j s).symm
    _ ≤ N * s := Nat.mul_le_mul_right s hj

/-- **Different slots are apart.** -/
theorem apart_slots {N s i j : ℕ} (hM : N * s ≤ M) (hi : i < N) (hj : j < N) (hij : i ≠ j) :
    Apart M (a + i * s) s (a + j * s) s := by
  intro k hk l hl h
  rw [Nat.add_assoc, Nat.add_assoc] at h
  have heq := eq_of_mod_eq (Nat.lt_of_lt_of_le (slot_cell_lt hi hk) hM)
    (Nat.lt_of_lt_of_le (slot_cell_lt hj hl) hM) h
  have hdiv : ∀ x y, y < s → (x * s + y) / s = x := fun x y hy => by
    rw [Nat.add_comm, Nat.add_mul_div_right _ _ (Nat.zero_lt_of_lt hy), Nat.div_eq_of_lt hy,
      Nat.zero_add]
  exact hij (by rw [← hdiv i k hk, heq, hdiv j l hl])

/-- Two indices less than `N` steps apart fall into different slots. -/
theorem mod_ne_mod {N p q : ℕ} (h : p < q) (hN : q < p + N) : p % N ≠ q % N := by
  intro heq
  obtain ⟨d, rfl⟩ := Nat.exists_eq_add_of_lt h
  have hcancel : (d + 1) % N = 0 % N := by
    have hmod : p + (d + 1) ≡ p + 0 [MOD N] := heq.symm
    exact Nat.ModEq.add_left_cancel' p hmod
  rw [Nat.mod_eq_of_lt (by omega), Nat.zero_mod] at hcancel
  omega

end Foundations
end CloudTiering
