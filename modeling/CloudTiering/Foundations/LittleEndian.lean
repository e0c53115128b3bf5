import Mathlib.Algebra.Order.Ring.Int

/-!
# Numbers as little-endian bytes

* `encodeLE w n`: the `w` low bytes of `n`, the lowest one first.
* `decodeLE`: the number that a list of bytes stands for.
* `decodeLE_inj`: lists of the same length stand for different numbers.
* `decodeLE_encodeLE_of_lt`: a number that fits is read back.
-/

namespace CloudTiering
namespace Foundations

/-- The `w` low bytes of a number. -/
def encodeLE : ℕ → ℕ → List UInt8
  | 0, _ => []
  | w + 1, n => UInt8.ofNat (n % 256) :: encodeLE w (n / 256)

/-- The number that the bytes stand for. -/
def decodeLE : List UInt8 → ℕ
  | [] => 0
  | b :: bs => b.toNat + 256 * decodeLE bs

@[simp] theorem length_encodeLE (w n : ℕ) : (encodeLE w n).length = w := by
  induction w generalizing n with
  | zero => rfl
  | succ w ih => rw [encodeLE, List.length_cons, ih]

theorem decodeLE_encodeLE (w n : ℕ) : decodeLE (encodeLE w n) = n % 256 ^ w := by
  induction w generalizing n with
  | zero => rw [pow_zero, Nat.mod_one]; rfl
  | succ w ih =>
    have hbyte : (UInt8.ofNat (n % 256)).toNat = n % 256 :=
      UInt8.toNat_ofNat_of_lt' (Nat.mod_lt _ (by decide))
    rw [encodeLE, decodeLE, ih, hbyte, pow_succ, Nat.mul_comm (256 ^ w), Nat.mod_mul]

theorem decodeLE_lt (bs : List UInt8) : decodeLE bs < 256 ^ bs.length := by
  induction bs with
  | nil => exact Nat.one_pos
  | cons b bs ih =>
    have hb : b.toNat < 256 := b.toNat_lt
    rw [decodeLE, List.length_cons, pow_succ]
    omega

/-- Lists of the same length stand for different numbers. -/
theorem decodeLE_inj {bs cs : List UInt8} (hlen : bs.length = cs.length)
    (h : decodeLE bs = decodeLE cs) : bs = cs := by
  induction bs generalizing cs with
  | nil => exact (List.length_eq_zero_iff.mp hlen.symm).symm
  | cons b bs ih =>
    obtain ⟨c, cs, rfl⟩ := List.exists_cons_of_length_eq_add_one hlen.symm
    have hb : b.toNat < 256 := b.toNat_lt
    have hc : c.toNat < 256 := c.toNat_lt
    rw [decodeLE, decodeLE] at h
    have hfirst : b.toNat = c.toNat := by omega
    have hrest : decodeLE bs = decodeLE cs := by omega
    rw [UInt8.toNat_inj.mp hfirst, ih (Nat.succ.inj hlen) hrest]

/-- **A number that fits is read back.** -/
theorem decodeLE_encodeLE_of_lt {w n : ℕ} (h : n < 256 ^ w) : decodeLE (encodeLE w n) = n := by
  rw [decodeLE_encodeLE, Nat.mod_eq_of_lt h]

end Foundations
end CloudTiering
