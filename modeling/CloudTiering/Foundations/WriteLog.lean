import CloudTiering.Foundations.SlotMemory

/-!
# The last write to an address

A memory after a sequence of writes, read through the log of the writes: every cell holds what the
last write that reaches it has left there.

* `pokes`: the memory after the writes of a log.
* `written`, `lastWritten`: what one write, and what a log, leaves at an address.
* `Spared`: no write of a log changes a byte of a range.
* `peek_pokes_iff`: a range is read back exactly if the log spares it.
-/

namespace CloudTiering
namespace Foundations

variable {β : Type} (M : ℕ)

/-- The memory after the writes of a log, each with its address and its cells. -/
def pokes (mem : ℕ → β) : List (ℕ × List β) → ℕ → β
  | [] => mem
  | w :: ws => pokes (poke M mem w.1 w.2) ws

/-- What a write from address `a` on leaves at an address, if it reaches it. -/
def written (a : ℕ) : List β → ℕ → Option β
  | [], _ => none
  | b :: bs, x => (written (a + 1) bs x).or (if a % M = x then some b else none)

/-- What the last write that reaches an address leaves there. -/
def lastWritten : List (ℕ × List β) → ℕ → Option β
  | [], _ => none
  | w :: ws, x => (lastWritten ws x).or (written M w.1 w.2 x)

/-- Where a write of the log reaches the cells `bs` from address `a` on, the last such write leaves
what is there. -/
def Spared (ws : List (ℕ × List β)) (a : ℕ) (bs : List β) : Prop :=
  ∀ k b, lastWritten M ws ((a + k) % M) = some b → ∀ b', bs[k]? = some b' → b = b'

variable {M} {mem : ℕ → β} {a x : ℕ} {bs : List β} {ws : List (ℕ × List β)}

theorem poke_apply : poke M mem a bs x = (written M a bs x).getD (mem x) := by
  induction bs generalizing mem a with
  | nil => rfl
  | cons b bs ih =>
    rw [poke, ih, written]
    cases written M (a + 1) bs x with
    | some b' => rfl
    | none =>
      by_cases hx : a % M = x
      · subst hx
        rw [if_pos rfl]
        exact Function.update_self _ _ _
      · rw [if_neg hx]
        exact Function.update_of_ne (fun h => hx h.symm) _ _

/-- **Every cell holds what the last write has left there.** -/
theorem pokes_apply : pokes M mem ws x = (lastWritten M ws x).getD (mem x) := by
  induction ws generalizing mem with
  | nil => rfl
  | cons w ws ih =>
    rw [pokes, ih, lastWritten, poke_apply]
    cases lastWritten M ws x with
    | some b => rfl
    | none => rfl

theorem pokes_append {ws' : List (ℕ × List β)} :
    pokes M mem (ws ++ ws') = pokes M (pokes M mem ws) ws' := by
  induction ws generalizing mem with
  | nil => rfl
  | cons w ws ih => exact ih

theorem getElem?_peek {n k : ℕ} (hk : k < n) : (peek M mem a n)[k]? = some (mem ((a + k) % M)) := by
  rw [peek, List.getElem?_map, List.getElem?_range hk]
  rfl

/-- **A range is read back exactly if it is spared.** -/
theorem peek_pokes_iff (h : peek M mem a bs.length = bs) :
    peek M (pokes M mem ws) a bs.length = bs ↔ Spared M ws a bs := by
  have hcell : ∀ k < bs.length, bs[k]? = some (mem ((a + k) % M)) := by
    intro k hk
    have hread : (peek M mem a bs.length)[k]? = some (mem ((a + k) % M)) := getElem?_peek hk
    rwa [h] at hread
  constructor
  · intro hback k b hb b' hb'
    have hk : k < bs.length := (List.getElem?_eq_some_iff.mp hb').1
    have hread : (peek M (pokes M mem ws) a bs.length)[k]? = some (pokes M mem ws ((a + k) % M)) :=
      getElem?_peek hk
    rw [hback, hb', pokes_apply, hb] at hread
    exact (Option.some.inj hread).symm
  · intro hspared
    refine List.ext_getElem? fun k => ?_
    by_cases hk : k < bs.length
    · rw [getElem?_peek hk, hcell k hk, pokes_apply]
      cases hb : lastWritten M ws ((a + k) % M) with
      | none => rfl
      | some b => exact congrArg some (hspared k b hb _ (hcell k hk))
    · rw [List.getElem?_eq_none (by rw [length_peek]; exact Nat.le_of_not_lt hk),
        List.getElem?_eq_none (Nat.le_of_not_lt hk)]

/-! ## Writes elsewhere -/

theorem written_eq_none (h : ∀ k < bs.length, (a + k) % M ≠ x) : written M a bs x = none := by
  induction bs generalizing a with
  | nil => rfl
  | cons b bs ih =>
    have hrest : ∀ k < bs.length, (a + 1 + k) % M ≠ x := by
      intro k hk
      rw [Nat.add_assoc, Nat.add_comm 1]
      exact h (k + 1) (Nat.succ_lt_succ hk)
    have hfirst : a % M ≠ x := h 0 (Nat.succ_pos _)
    rw [written, ih hrest, if_neg hfirst]
    rfl

theorem lastWritten_eq_none (h : ∀ w ∈ ws, written M w.1 w.2 x = none) :
    lastWritten M ws x = none := by
  induction ws with
  | nil => rfl
  | cons w ws ih =>
    rw [lastWritten, ih fun w hw => h w (List.mem_cons_of_mem _ hw), h w List.mem_cons_self]
    rfl

/-- Writes that do not reach an address may be left out. -/
theorem lastWritten_filter {ι : Type} {w : ι → Option (ℕ × List β)} {p : ι → Bool} {l : List ι}
    (h : ∀ i ∈ l, p i = false → ∀ v, w i = some v → written M v.1 v.2 x = none) :
    lastWritten M ((l.filter p).filterMap w) x = lastWritten M (l.filterMap w) x := by
  induction l with
  | nil => rfl
  | cons i l ih =>
    have hrest := ih fun j hj => h j (List.mem_cons_of_mem _ hj)
    by_cases hi : p i = true
    · rw [List.filter_cons_of_pos hi]
      cases hw : w i with
      | none => rw [List.filterMap_cons_none hw, List.filterMap_cons_none hw, hrest]
      | some v => rw [List.filterMap_cons_some hw, List.filterMap_cons_some hw, lastWritten,
          lastWritten, hrest]
    · rw [List.filter_cons_of_neg hi, hrest]
      cases hw : w i with
      | none => rw [List.filterMap_cons_none hw]
      | some v =>
        rw [List.filterMap_cons_some hw, lastWritten,
          h i List.mem_cons_self (Bool.eq_false_of_not_eq_true hi) v hw, Option.or_none]

/-- A range that is apart from every write is spared. -/
theorem spared_of_apart (h : ∀ w ∈ ws, Apart M a bs.length w.1 w.2.length) : Spared M ws a bs := by
  intro k b hb b' hb'
  have hk : k < bs.length := (List.getElem?_eq_some_iff.mp hb').1
  have hnone : lastWritten M ws ((a + k) % M) = none :=
    lastWritten_eq_none fun w hw => written_eq_none fun j hj heq => h w hw k hk j hj heq.symm
  rw [hnone] at hb
  exact absurd hb.symm (Option.some_ne_none b)

end Foundations
end CloudTiering
