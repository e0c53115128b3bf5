import CloudTiering.Foundations.SparseBytes

/-!
# A content with holes

A file is cut off and filled up again, and some of its cells may be written anew with what they held
before.  Next to the content `d` that is there stands the content `full` that should be: a cell that
has been cut off is a hole, every other cell is as it should be.

* `Holes`: the two contents, and which cells have been cut off.
* `Holes.resize`, `Holes.writeAt`: cutting off and filling up, and writing what should be there
  anyway.
* `Holes.readAt_iff`: what can be read as if there were no holes.
-/

namespace CloudTiering
namespace Foundations

variable {β : Type} [Inhabited β]

/-- `d` is `full` without the cells that have been dropped: these are missing, or filled up. -/
structure Holes (d full : List β) (dropped : ℕ → Bool) : Prop where
  le : d.length ≤ full.length
  kept : ∀ j, dropped j = false → d[j]? = full[j]?
  hole : ∀ j, dropped j = true → j < d.length → d[j]? = some default

variable {d full bs : List β} {dropped : ℕ → Bool} {off n : ℕ}

theorem Holes.refl (d : List β) : Holes d d fun _ => false :=
  ⟨Nat.le_refl _, fun _ _ => rfl, fun _ h => absurd h Bool.false_ne_true⟩

/-- **Cutting off and filling up.** -/
theorem Holes.resize (h : Holes d full dropped) (hn : n ≤ full.length) :
    Holes (resize d n) full fun j => dropped j || (decide (n ≤ j) && decide (j < d.length)) := by
  refine ⟨by rwa [length_resize], fun j hj => ?_, fun j hj hlt => ?_⟩
  · obtain ⟨hkept, hcut⟩ := Bool.or_eq_false_iff.mp hj
    have hcell := h.kept j hkept
    have hbehind : n ≤ j → d.length ≤ j := fun hnj => by
      by_contra hjd
      simp [hnj, Nat.not_le.mp hjd] at hcut
    rw [getElem?_resize]
    split
    · rename_i hjn
      rw [hcell, List.getElem?_eq_getElem (Nat.lt_of_lt_of_le hjn hn)]
      rfl
    · rename_i hjn
      rw [← hcell, List.getElem?_eq_none (hbehind (Nat.not_lt.mp hjn))]
  · rw [length_resize] at hlt
    rw [getElem?_resize, if_pos hlt]
    by_cases hjd : j < d.length
    · have hdrop : dropped j = true := by simpa [hjd, Nat.not_le.mpr hlt] using hj
      rw [h.hole j hdrop hjd]
      rfl
    · rw [List.getElem?_eq_none (Nat.not_lt.mp hjd)]
      rfl

/-- A hole that is not written to stays one. -/
theorem Holes.hole_writeAt (h : Holes d full dropped) {j : ℕ}
    (hj : (dropped j && !(decide (off ≤ j) && decide (j < off + bs.length))) = true)
    (hlt : j < (writeAt d off bs).length) : (writeAt d off bs)[j]? = some default := by
  obtain ⟨hdrop, hout⟩ := Bool.and_eq_true_iff.mp hj
  by_cases hbs : bs = []
  · subst hbs
    exact h.hole j hdrop hlt
  rw [getElem?_writeAt d off j hbs]
  by_cases hbefore : j < off
  · rw [if_pos hbefore]
    by_cases hjd : j < d.length
    · rw [h.hole j hdrop hjd]
      rfl
    · rw [List.getElem?_eq_none (Nat.not_lt.mp hjd)]
      rfl
  · have hin : ¬ j < off + bs.length := by simpa [Nat.not_lt.mp hbefore] using hout
    rw [length_writeAt d off hbs] at hlt
    rw [if_neg hbefore, if_neg hin]
    exact h.hole j hdrop (by omega)

/-- Writing where the content is as it should be; what is written changes what should be there. -/
theorem Holes.writeAt_self (h : Holes d d dropped) :
    Holes (writeAt d off bs) (writeAt d off bs)
      fun j => dropped j && !(decide (off ≤ j) && decide (j < off + bs.length)) :=
  ⟨Nat.le_refl _, fun _ _ => rfl, fun _ hj hlt => h.hole_writeAt hj hlt⟩

/-- **Writing what should be there.** -/
theorem Holes.writeAt (h : Holes d full dropped) (hsame : writeAt full off bs = full) :
    Holes (writeAt d off bs) full fun j => dropped j &&
      !(decide (off ≤ j) && decide (j < off + bs.length)) := by
  refine ⟨?_, fun j hj => ?_, fun j hj hlt => h.hole_writeAt hj hlt⟩
  · by_cases hbs : bs = []
    · subst hbs
      exact h.le
    · have hlen := congrArg List.length hsame
      rw [length_writeAt full off hbs] at hlen
      have hle := h.le
      rw [length_writeAt d off hbs]
      omega
  · by_cases hbs : bs = []
    · subst hbs
      refine h.kept j ?_
      cases hdrop : dropped j with
      | false => rfl
      | true =>
        rw [hdrop, List.length_nil, Nat.add_zero] at hj
        have hin : off ≤ j ∧ j < off := by simpa using hj
        omega
    have hfull := getElem?_writeAt full off j hbs
    rw [hsame] at hfull
    rw [getElem?_writeAt d off j hbs]
    by_cases hbefore : j < off
    · have hkept : dropped j = false := by simpa [Nat.not_le.mpr hbefore] using hj
      have hpos : 0 < bs.length := List.length_pos_iff.mpr hbs
      have hlen := congrArg List.length hsame
      rw [length_writeAt full off hbs] at hlen
      rw [if_pos hbefore, h.kept j hkept, List.getElem?_eq_getElem (by omega)]
      rfl
    · rw [if_neg hbefore] at hfull ⊢
      by_cases hin : j < off + bs.length
      · rw [if_pos hin] at hfull ⊢
        exact hfull.symm
      · have hkept : dropped j = false := by simpa [hin] using hj
        rw [if_neg hin]
        exact h.kept j hkept

/-- **Reading as if there were no holes.**  The cells that are read are there, and those that have
been dropped should be filling anyway. -/
theorem Holes.readAt_iff (h : Holes d full dropped) :
    readAt d off n = readAt full off n ↔ ∀ k < n, off + k < full.length →
      off + k < d.length ∧ (dropped (off + k) = true → full[off + k]? = some default) := by
  have hcell : ∀ {k}, k < n → (readAt d off n)[k]? = d[off + k]? ∧
      (readAt full off n)[k]? = full[off + k]? := by
    intro k hk
    rw [getElem?_readAt, getElem?_readAt, if_pos hk, if_pos hk]
    exact ⟨rfl, rfl⟩
  constructor
  · intro heq k hk hlt
    have hsame : d[off + k]? = full[off + k]? := by
      rw [← (hcell hk).1, ← (hcell hk).2, heq]
    have hd : off + k < d.length := by
      by_contra hge
      rw [List.getElem?_eq_none (Nat.not_lt.mp hge), List.getElem?_eq_getElem hlt] at hsame
      exact Option.some_ne_none _ hsame.symm
    exact ⟨hd, fun hdrop => hsame.symm.trans (h.hole _ hdrop hd)⟩
  · intro hread
    refine List.ext_getElem? fun k => ?_
    by_cases hk : k < n
    · rw [(hcell hk).1, (hcell hk).2]
      by_cases hlt : off + k < full.length
      · obtain ⟨hd, hfill⟩ := hread k hk hlt
        cases hdrop : dropped (off + k) with
        | false => exact h.kept _ hdrop
        | true => exact (h.hole _ hdrop hd).trans (hfill hdrop).symm
      · have hle := h.le
        rw [List.getElem?_eq_none (by omega), List.getElem?_eq_none (by omega)]
    · rw [getElem?_readAt, getElem?_readAt, if_neg hk, if_neg hk]

end Foundations
end CloudTiering
