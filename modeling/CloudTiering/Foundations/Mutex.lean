import Mathlib.Algebra.BigOperators.Group.Finset.Basic
import Mathlib.Data.Fintype.BigOperators
import Mathlib.Logic.Function.Basic

/-!
# Mutexes of threads with positions

Threads `T` stand at positions `P`, and a mutex records its owner.  `Owned` says that the threads
that hold the mutex, going by their positions, are exactly the one it records.  What a step of one
thread does to it, or to a total over all threads, depends on that thread's old and new position
alone.

A family of mutexes need not record its owners: it is enough that a mutex which is held can be seen
to be set.

* `Owned`: one mutex, its owner and the positions.
* `HeldAreSet`: a family of mutexes, which of them are set, and the positions.
* `sum_step`: a total over all threads.
-/

namespace CloudTiering
namespace Foundations

variable {T P : Type}

/-- The owner of the mutex is the one thread whose position says that it holds it. -/
def Owned (owner : Option T) (holds : P → Bool) (pc : T → P) : Prop :=
  ∀ t, owner = some t ↔ holds (pc t) = true

variable {owner : Option T} {holds : P → Bool} {pc : T → P} {t u : T} {p : P}

/-- Mutual exclusion. -/
theorem Owned.unique (h : Owned owner holds pc) (ht : holds (pc t) = true)
    (hu : holds (pc u) = true) : t = u :=
  Option.some.inj (((h t).mpr ht).symm.trans ((h u).mpr hu))

theorem Owned.ne_none (h : Owned owner holds pc) (ht : holds (pc t) = true) : owner ≠ none := by
  rw [(h t).mpr ht]
  exact Option.some_ne_none t

/-- Positions that are renamed without gaining or losing the mutex. -/
theorem Owned.map (h : Owned owner holds pc) {f : P → P} (hf : ∀ p, holds (f p) = holds p) :
    Owned owner holds fun t => f (pc t) := by
  intro t
  rw [hf]
  exact h t

/-- Nobody holds a free mutex. -/
theorem Owned.eq_false (h : Owned none holds pc) (t : T) : holds (pc t) = false :=
  Bool.eq_false_iff.mpr fun ht => h.ne_none ht rfl

/-- A mutex that nobody holds is free. -/
theorem Owned.eq_none (h : Owned owner holds pc) (hno : ∀ t, holds (pc t) = false) :
    owner = none := by
  cases owner with
  | none => rfl
  | some t => exact absurd ((hno t).symm.trans ((h t).mp rfl)) Bool.false_ne_true

variable [DecidableEq T]

/-- A step that neither takes nor releases the mutex. -/
theorem Owned.stay (h : Owned owner holds pc) (hp : holds p = holds (pc t)) :
    Owned owner holds (Function.update pc t p) := by
  intro u
  by_cases hu : u = t
  · rw [hu, Function.update_self, hp]
    exact h t
  · rw [Function.update_of_ne hu]
    exact h u

/-- A step that takes the mutex. -/
theorem Owned.lock (h : Owned none holds pc) (hp : holds p = true) :
    Owned (some t) holds (Function.update pc t p) := by
  intro u
  by_cases hu : u = t
  · rw [hu, Function.update_self]
    exact ⟨fun _ => hp, fun _ => rfl⟩
  · rw [Function.update_of_ne hu]
    refine ⟨fun heq => absurd (Option.some.inj heq).symm hu, fun hold => ?_⟩
    exact absurd ((h u).mpr hold).symm (Option.some_ne_none u)

/-- A step that releases the mutex. -/
theorem Owned.unlock (h : Owned owner holds pc) (ht : holds (pc t) = true) (hp : holds p = false) :
    Owned none holds (Function.update pc t p) := by
  intro u
  refine ⟨fun heq => absurd heq.symm (Option.some_ne_none u), fun hold => ?_⟩
  by_cases hu : u = t
  · rw [hu, Function.update_self] at hold
    exact absurd (hp.symm.trans hold) Bool.false_ne_true
  · rw [Function.update_of_ne hu] at hold
    exact absurd (h.unique hold ht) hu

/-! ## A family of mutexes -/

/-- Each mutex of the family has at most one holder, and is set while it has one. -/
def HeldAreSet {I : Type} (holds : I → P → Bool) (flag : I → Bool) (pc : T → P) : Prop :=
  ∀ i, ∃ owner, Owned owner (holds i) pc ∧ (owner.isSome = true → flag i = true)

section

variable {I : Type} {holds : I → P → Bool} {flag flag' : I → Bool} {i : I}

omit [DecidableEq T] in
theorem HeldAreSet.unique (h : HeldAreSet holds flag pc) (ht : holds i (pc t) = true)
    (hu : holds i (pc u) = true) : t = u := by
  obtain ⟨owner, ho, -⟩ := h i
  exact ho.unique ht hu

omit [DecidableEq T] in
/-- A mutex that is held is set. -/
theorem HeldAreSet.flag_eq_true (h : HeldAreSet holds flag pc) (ht : holds i (pc t) = true) :
    flag i = true := by
  obtain ⟨owner, ho, hset⟩ := h i
  exact hset (by rw [(ho t).mpr ht]; rfl)

/-- A step that neither takes nor releases a mutex. -/
theorem HeldAreSet.stay (h : HeldAreSet holds flag pc) (hset : ∀ j, flag j = true → flag' j = true)
    (hp : ∀ j, holds j p = holds j (pc t)) : HeldAreSet holds flag' (Function.update pc t p) := by
  intro j
  obtain ⟨owner, ho, hj⟩ := h j
  exact ⟨owner, ho.stay (hp j), fun hs => hset j (hj hs)⟩

/-- A holder remains after a step that neither takes nor releases its mutex. -/
theorem exists_holder_stay (h : ∃ u, holds i (pc u) = true) (hp : holds i p = holds i (pc t)) :
    ∃ u, holds i (Function.update pc t p u) = true := by
  obtain ⟨u, hu⟩ := h
  refine ⟨u, ?_⟩
  by_cases hut : u = t
  · rw [hut, Function.update_self, hp, ← hut]
    exact hu
  · rw [Function.update_of_ne hut]
    exact hu

/-- A step that takes a mutex, which was not set. -/
theorem HeldAreSet.lock (h : HeldAreSet holds flag pc) (hfree : flag i = false)
    (hi : holds i p = true)
    (hset : flag' i = true) (hother : ∀ j, j ≠ i → flag' j = flag j ∧ holds j p = holds j (pc t)) :
    HeldAreSet holds flag' (Function.update pc t p) := by
  intro j
  obtain ⟨owner, ho, hj⟩ := h j
  by_cases hji : j = i
  · subst hji
    cases owner with
    | none => exact ⟨some t, ho.lock hi, fun _ => hset⟩
    | some u => exact absurd ((hj rfl).symm.trans hfree) (by decide)
  · exact ⟨owner, ho.stay (hother j hji).2, fun hs => by rw [(hother j hji).1]; exact hj hs⟩

/-- A step that releases a mutex. -/
theorem HeldAreSet.unlock (h : HeldAreSet holds flag pc) (ht : holds i (pc t) = true)
    (hi : holds i p = false) (hother : ∀ j, j ≠ i → flag' j = flag j ∧ holds j p = holds j (pc t)) :
    HeldAreSet holds flag' (Function.update pc t p) := by
  intro j
  obtain ⟨owner, ho, hj⟩ := h j
  by_cases hji : j = i
  · subst hji
    exact ⟨none, ho.unlock ht hi, fun hs => absurd hs Bool.false_ne_true⟩
  · exact ⟨owner, ho.stay (hother j hji).2, fun hs => by rw [(hother j hji).1]; exact hj hs⟩

end

/-- A total over all threads after a step that changes the share of one of them. -/
theorem sum_step [Fintype T] {f g : T → ℕ} (h : ∀ u, u ≠ t → g u = f u) :
    ∑ u, g u + f t = ∑ u, f u + g t := by
  have hrest : ∑ u ∈ Finset.univ.erase t, g u = ∑ u ∈ Finset.univ.erase t, f u :=
    Finset.sum_congr rfl fun u hu => h u (Finset.ne_of_mem_erase hu)
  rw [← Finset.add_sum_erase _ g (Finset.mem_univ t),
    ← Finset.add_sum_erase _ f (Finset.mem_univ t), hrest]
  omega

end Foundations
end CloudTiering
