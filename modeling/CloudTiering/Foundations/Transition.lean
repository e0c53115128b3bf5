import Mathlib.Data.List.Basic
import Mathlib.Data.Option.Basic

/-!
# Labelled transition systems with a deterministic step

A system is a partial function `step : σ → L → Option σ`: the label says which party moves and how
the environment answers, so that a run is a list of labels and can be computed.  A guard `P : σ → L
→ Prop` restricts the runs to those whose every step meets a condition on the state before the step.

* `run`: the state after a list of labels.
* `Reach step P s₀ s`: some run from `s₀`, all of whose steps meet `P`, ends in `s`.
* `Reach.invariant`: what holds at first and is kept by every step holds in every reachable state.
* `Reach.of_run`, `Reach.exists_of_run`: a computed run witnesses reachability.
* `guardedBy`, `Reach.exists_of_guarded`: the same where the condition is computed along the run.
-/

namespace CloudTiering
namespace Foundations

variable {σ L : Type}

/-- The state after the labels `ls`, if every one of them is possible where it stands. -/
def run (step : σ → L → Option σ) (s : σ) : List L → Option σ
  | [] => some s
  | l :: ls => (step s l).bind fun t => run step t ls

@[simp] theorem run_nil (step : σ → L → Option σ) (s : σ) : run step s [] = some s := rfl

theorem run_cons (step : σ → L → Option σ) (s : σ) (l : L) (ls : List L) :
    run step s (l :: ls) = (step s l).bind fun t => run step t ls := rfl

/-- Some run from `s₀` whose steps all meet the condition `P` ends in the given state. -/
inductive Reach (step : σ → L → Option σ) (P : σ → L → Prop) (s₀ : σ) : σ → Prop
  | init : Reach step P s₀ s₀
  | tail {s t : σ} {l : L} (hs : Reach step P s₀ s) (hP : P s l) (hl : step s l = some t) :
      Reach step P s₀ t

namespace Reach

variable {step : σ → L → Option σ} {P : σ → L → Prop} {s₀ s t : σ}

/-- **The invariant rule.** -/
theorem invariant {I : σ → Prop} (h : Reach step P s₀ s) (h₀ : I s₀)
    (hstep : ∀ s l t, I s → P s l → step s l = some t → I t) : I s := by
  induction h with
  | init => exact h₀
  | tail _ hP hl ih => exact hstep _ _ _ ih hP hl

theorem head {l : L} (hP : P s₀ l) (hl : step s₀ l = some s) (h : Reach step P s t) :
    Reach step P s₀ t := by
  induction h with
  | init => exact .tail .init hP hl
  | tail _ hP' hl' ih => exact .tail ih hP' hl'

/-- Weaker conditions allow more runs. -/
theorem mono {P' : σ → L → Prop} (h : Reach step P s₀ s) (hPP' : ∀ s l, P s l → P' s l) :
    Reach step P' s₀ s := by
  induction h with
  | init => exact .init
  | tail _ hP hl ih => exact .tail ih (hPP' _ _ hP) hl

/-- A computed run reaches its last state. -/
theorem of_run {ls : List L} (hP : ∀ s, ∀ l ∈ ls, P s l)
    (h : Foundations.run step s₀ ls = some s) : Reach step P s₀ s := by
  induction ls generalizing s₀ with
  | nil =>
    obtain rfl := Option.some.inj h
    exact .init
  | cons l ls ih =>
    rw [run_cons] at h
    obtain ⟨t, ht, hrest⟩ := Option.bind_eq_some_iff.mp h
    exact head (hP _ l List.mem_cons_self) ht
      (ih (fun s l hl => hP s l (List.mem_cons_of_mem _ hl)) hrest)

/-- A computed run and a test on its last state. -/
theorem exists_of_run {ls : List L} {p : σ → Bool} (hP : ∀ s, ∀ l ∈ ls, P s l)
    (h : (Foundations.run step s₀ ls).any p = true) : ∃ s, Reach step P s₀ s ∧ p s = true := by
  obtain ⟨s, hs, hp⟩ := (Option.any_eq_true _ _).mp h
  exact ⟨s, of_run hP hs, hp⟩

end Reach

/-- The steps that meet a test on the state before them. -/
def guardedBy (p : σ → L → Bool) (step : σ → L → Option σ) (s : σ) (l : L) : Option σ :=
  if p s l then step s l else none

/-- A computed run whose steps pass a test. -/
theorem Reach.of_guarded {step : σ → L → Option σ} {P : σ → L → Prop} {s₀ s : σ} {p : σ → L → Bool}
    (hp : ∀ s l, p s l = true → P s l) {ls : List L}
    (h : Foundations.run (guardedBy p step) s₀ ls = some s) : Reach step P s₀ s := by
  induction ls generalizing s₀ with
  | nil =>
    obtain rfl := Option.some.inj h
    exact .init
  | cons l ls ih =>
    rw [run_cons] at h
    obtain ⟨t, ht, hrest⟩ := Option.bind_eq_some_iff.mp h
    obtain ⟨htest, hstep⟩ := Option.ite_none_right_eq_some.mp ht
    exact Reach.head (hp _ l htest) hstep (ih hrest)

/-- Such a run, and a test on its last state. -/
theorem Reach.exists_of_guarded {step : σ → L → Option σ} {P : σ → L → Prop} {s₀ : σ}
    {p : σ → L → Bool} {q : σ → Bool} (hp : ∀ s l, p s l = true → P s l) {ls : List L}
    (h : (Foundations.run (guardedBy p step) s₀ ls).any q = true) :
    ∃ s, Reach step P s₀ s ∧ q s = true := by
  obtain ⟨s, hs, hq⟩ := (Option.any_eq_true _ _).mp h
  exact ⟨s, of_guarded hp hs, hq⟩

end Foundations
end CloudTiering
