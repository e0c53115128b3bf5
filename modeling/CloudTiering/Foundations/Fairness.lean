import CloudTiering.Foundations.Threads
import Mathlib.Data.List.Defs

/-!
# Runs that go on for ever

What comes about in the end is a matter of runs without an end.  A thread that takes steps again and
again brings about what each of its steps comes closer to, as long as nobody else takes it further
away.

* `EndlessRun`: a run without an end; `EndlessRun.invariant`: what holds at all times.
* `exists_of_rank`: the rule for progress.
* `ThreadSystem.Label.thread`: whose step it is.
* `EndlessRun.ofLabels`: the run along a schedule that is possible everywhere.
-/

namespace CloudTiering
namespace Foundations

section

variable {σ L : Type} {step : σ → L → Option σ} {P : σ → L → Prop}

/-- A run without an end, whose steps meet `P`. -/
structure EndlessRun (step : σ → L → Option σ) (P : σ → L → Prop) where
  state : ℕ → σ
  label : ℕ → L
  step_eq : ∀ n, step (state n) (label n) = some (state (n + 1))
  meets : ∀ n, P (state n) (label n)

namespace EndlessRun

variable (r : EndlessRun step P)

/-- What holds at some time and is kept by every step holds from then on. -/
theorem invariant {I : σ → Prop} {m n : ℕ} (hmn : m ≤ n) (h : I (r.state m))
    (hstep : ∀ k, m ≤ k → I (r.state k) → I (r.state (k + 1))) : I (r.state n) := by
  induction hmn with
  | refl => exact h
  | step hmn ih => exact hstep _ hmn ih

/-- The states of the run are reachable if the first one is. -/
theorem reach {P' : σ → L → Prop} {s₀ : σ} (h : Reach step P' s₀ (r.state 0))
    (hP : ∀ s l, P s l → P' s l) (n : ℕ) :
    Reach step P' s₀ (r.state n) :=
  r.invariant (I := Reach step P' s₀) (Nat.zero_le n) h fun k _ hk =>
    hk.tail (hP _ _ (r.meets k)) (r.step_eq k)

/-- The states along a schedule; where a step is not possible, nothing happens. -/
def follow (step : σ → L → Option σ) (ls : ℕ → L) (s₀ : σ) : ℕ → σ
  | 0 => s₀
  | n + 1 => (step (follow step ls s₀ n) (ls n)).getD (follow step ls s₀ n)

/-- The run along a schedule all of whose steps are possible. -/
def ofLabels (ls : ℕ → L) (s₀ : σ) (h : ∀ n, (step (follow step ls s₀ n) (ls n)).isSome = true)
    (hP : ∀ n, P (follow step ls s₀ n) (ls n)) : EndlessRun step P where
  state := follow step ls s₀
  label := ls
  step_eq n := by
    obtain ⟨s, hs⟩ := Option.isSome_iff_exists.mp (h n)
    rw [follow, hs]
    rfl
  meets := hP

end EndlessRun

end

/-- **The rule for progress.**  Until `G` comes about, no step raises the rank, and the steps that
help take it down.  If such steps are made again and again, then `G` comes about. -/
theorem exists_of_rank {α : Type} {lt : α → α → Prop} (hwf : WellFounded lt) (rank : ℕ → α)
    (helps : ℕ → Prop) {G : ℕ → Prop}
    {m : ℕ} (hoften : ∀ n, m ≤ n → ∃ k, n ≤ k ∧ helps k)
    (hrank : ∀ n, m ≤ n → ¬ G n → ¬ G (n + 1) →
      lt (rank (n + 1)) (rank n) ∨ rank (n + 1) = rank n ∧ ¬ helps n) : ∃ n, m ≤ n ∧ G n := by
  by_contra hno
  have hnot : ∀ n, m ≤ n → ¬ G n := fun n hn hG => hno ⟨n, hn, hG⟩
  have hnever : ∀ a n, m ≤ n → rank n ≠ a := by
    intro a
    induction a using hwf.induction with
    | h a ih =>
      -- `d` steps before a step that helps
      have hsoon : ∀ d n, m ≤ n → helps (n + d) → rank n ≠ a := by
        intro d
        induction d with
        | zero =>
          rintro n hn hhelps rfl
          rcases hrank n hn (hnot n hn) (hnot _ (Nat.le_succ_of_le hn)) with hlt | ⟨-, hquiet⟩
          · exact ih _ hlt (n + 1) (Nat.le_succ_of_le hn) rfl
          · exact hquiet hhelps
        | succ d ihd =>
          rintro n hn hhelps rfl
          rcases hrank n hn (hnot n hn) (hnot _ (Nat.le_succ_of_le hn)) with hlt | ⟨heq, -⟩
          · exact ih _ hlt (n + 1) (Nat.le_succ_of_le hn) rfl
          · refine ihd (n + 1) (Nat.le_succ_of_le hn) ?_ heq
            rwa [Nat.add_right_comm]
      intro n hn
      obtain ⟨k, hk, hhelps⟩ := hoften n hn
      exact hsoon (k - n) n hn (by rwa [Nat.add_sub_cancel' hk])
  exact hnever (rank m) m (Nat.le_refl m) rfl

/-- Where the first element with a property stands: more elements with it and new ones at the end do
not move it back. -/
theorem findIdx_append_le {α : Type} {p q : α → Bool} {l : List α} (l' : List α)
    (hpq : ∀ x, p x = true → q x = true)
    (h : ∃ x ∈ l, p x = true) : (l ++ l').findIdx q ≤ l.findIdx p := by
  have hlt : l.findIdx p < l.length := List.findIdx_lt_length.mpr h
  refine Nat.le_of_not_lt fun hgt => ?_
  have hq := List.not_of_lt_findIdx hgt
  rw [List.getElem_append_left hlt] at hq
  exact Bool.false_ne_true (hq.symm.trans (hpq _ List.findIdx_getElem))

namespace ThreadSystem

/-- The thread whose step it is. -/
def Label.thread {T κ Λ E : Type} : Label T κ Λ E → Option T
  | .start t _ | .answer t _ => some t
  | .env _ => none

variable {C : Type} {R : C → Type} {α T W κ M Λ E : Type} [DecidableEq T]
  {S : ThreadSystem C R α T W κ M Λ E}

/-- The other threads do not move. -/
theorem thread_of_step {s s' : State C R α T W M} {l : Label T κ Λ E} {t : T}
    (h : S.step s l = some s')
    (ht : l.thread ≠ some t) : s'.thread t = s.thread t := by
  cases l with
  | start u l =>
    obtain ⟨a, p, m, -, -, rfl⟩ := step_start h
    exact s.thread_set_of_ne _ _ fun htu => ht (congrArg some htu.symm)
  | answer u k =>
    obtain ⟨c, f, r, w, -, -, rfl⟩ := step_answer h
    exact s.thread_set_of_ne _ _ fun htu => ht (congrArg some htu.symm)
  | env e =>
    obtain ⟨w, -, rfl⟩ := step_env h
    rfl

end ThreadSystem

end Foundations
end CloudTiering
