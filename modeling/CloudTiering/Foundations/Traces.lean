import CloudTiering.Foundations.Threads

/-!
# Traces

What the users of a system see of a run are the events that its steps emit.

* `Trace`: the events of a run whose steps meet a condition.
* `Trace.simulate`: a simulation carries every trace over to another system.
* `Trace.accepted`: the same where the other system reads the events themselves.
* `ThreadSystem.events`, `ThreadSystem.accepted`: the rule for threads that run programs.
-/

namespace CloudTiering
namespace Foundations

section

variable {σ τ L L' E : Type}

/-- A run from `s₀` to a state, with the events that its steps emit. -/
inductive Trace (step : σ → L → Option σ) (P : σ → L → Prop)
    (events : σ → L → σ → List E) (s₀ : σ) :
    List E → σ → Prop
  | nil : Trace step P events s₀ [] s₀
  | snoc {tr : List E} {s t : σ} {l : L} (h : Trace step P events s₀ tr s) (hP : P s l)
    (hl : step s l = some t) :
      Trace step P events s₀ (tr ++ events s l t) t

variable {step : σ → L → Option σ} {P : σ → L → Prop} {events : σ → L → σ → List E} {s₀ s t : σ}
  {tr tr' : List E}

/-- One step. -/
theorem Trace.single {l : L} (hP : P s l) (hl : step s l = some t) :
    Trace step P events s (events s l t) t :=
  .snoc .nil hP hl

/-- One trace after the other. -/
theorem Trace.append (h : Trace step P events s₀ tr s) (h' : Trace step P events s tr' t) :
    Trace step P events s₀ (tr ++ tr') t := by
  induction h' with
  | nil =>
    rw [List.append_nil]
    exact h
  | snoc _ hP hl ih =>
    rw [← List.append_assoc]
    exact ih.snoc hP hl

/-- A computed run, whose steps pass a test, has a trace.  What the test does not see is in the
invariant `I`. -/
theorem exists_trace_of_guarded {I : σ → Prop} {p : σ → L → Bool} (h₀ : I s₀)
    (hp : ∀ s l t, I s → p s l = true → step s l = some t → P s l ∧ I t) {ls : List L}
    (h : run (guardedBy p step) s₀ ls = some s) : ∃ tr, Trace step P events s₀ tr s := by
  induction ls generalizing s₀ with
  | nil =>
    obtain rfl := Option.some.inj h
    exact ⟨[], .nil⟩
  | cons l ls ih =>
    obtain ⟨t, ht, hrest⟩ := Option.bind_eq_some_iff.mp h
    obtain ⟨htest, hstep⟩ := Option.ite_none_right_eq_some.mp ht
    obtain ⟨hP, hI⟩ := hp _ l t h₀ htest hstep
    obtain ⟨tr, htr⟩ := ih hI hrest
    exact ⟨_, (Trace.single hP hstep).append htr⟩

/-- **Simulation.**  If related states stay related when one system makes a step and the other emits
the same events, every trace of the one is a trace of the other. -/
theorem Trace.simulate {step' : τ → L' → Option τ} {P' : τ → L' → Prop}
    {events' : τ → L' → τ → List E}
    {R : σ → τ → Prop} {a₀ : τ} (h : Trace step P events s₀ tr s) (h₀ : R s₀ a₀)
    (hstep : ∀ s a l t, R s a → P s l → step s l = some t →
      ∃ b, Trace step' P' events' a (events s l t) b ∧ R t b) :
    ∃ a, Trace step' P' events' a₀ tr a ∧ R s a := by
  induction h with
  | nil => exact ⟨a₀, .nil, h₀⟩
  | snoc _ hP hl ih =>
    obtain ⟨a, htr, hR⟩ := ih
    obtain ⟨b, htr', hR'⟩ := hstep _ a _ _ hR hP hl
    exact ⟨b, htr.append htr', hR'⟩

/-- Events that are read one after the other. -/
theorem run_append {accept : τ → E → Option τ} {a b : τ} {es es' : List E}
    (h : run accept a es = some b) :
    run accept a (es ++ es') = run accept b es' := by
  induction es generalizing a with
  | nil =>
    obtain rfl := Option.some.inj h
    rfl
  | cons e es ih =>
    obtain ⟨a', ha, hrest⟩ := Option.bind_eq_some_iff.mp h
    rw [List.cons_append, run_cons, ha]
    exact ih hrest

/-- Simulation by a system that reads the events. -/
theorem Trace.accepted {accept : τ → E → Option τ} {R : σ → τ → Prop} {a₀ : τ}
    (h : Trace step P events s₀ tr s)
    (h₀ : R s₀ a₀)
    (hstep : ∀ s a l t, R s a → P s l → step s l = some t → ∃ b,
      run accept a (events s l t) = some b ∧ R t b) :
    ∃ a, run accept a₀ tr = some a ∧ R s a := by
  induction h with
  | nil => exact ⟨a₀, rfl, h₀⟩
  | snoc _ hP hl ih =>
    obtain ⟨a, hrun, hR⟩ := ih
    obtain ⟨b, hrun', hR'⟩ := hstep _ a _ _ hR hP hl
    exact ⟨b, (run_append hrun).trans hrun', hR'⟩

end

/-! ## Threads -/

namespace ThreadSystem

variable {C : Type} {R : C → Type} {α T W κ M Λ E V τ : Type}

/-- The events of an answered call, going by the monitor of the thread. -/
def events (S : ThreadSystem C R α T W κ M Λ E) (emit : M → (c : C) → R c → List V)
    (s : State C R α T W M)
    (l : Label T κ Λ E) (_ : State C R α T W M) : List V :=
  match l with
  | .answer t k => match (s.thread t).prog with
    | .call c _ => match S.exec t s.world k c with
      | some (r, _) => emit (s.thread t).mon c r
      | none => []
    | .ret _ => []
  | _ => []

variable [DecidableEq T] {S : ThreadSystem C R α T W κ M Λ E}

/-- **The rule for threads** whose events another system reads: `I` relates its state to the world
and the monitors. -/
theorem accepted {K : Calls C R M} {Q : α → M → Prop} {emit : M → (c : C) → R c → List V}
    {accept : τ → V → Option τ}
    {I : W → (T → M) → τ → Prop} {P : State C R α T W M → Label T κ Λ E → Prop}
    {s₀ s : State C R α T W M}
    {tr : List V} {a₀ : τ} (h : Trace S.step P (S.events emit) s₀ tr s) (h₀ : I s₀.world s₀.mons a₀)
    (hc₀ : Checked K Q s₀)
    (hanswer : ∀ (s : State C R α T W M) (a : τ) (t : T) (k : κ) (c : C) (f : R c → Prog C R α)
      (r : R c) (w : W),
      I s.world s.mons a → P s (.answer t k) → (s.thread t).prog = .call c f → K.pre (s.mons t) c →
      S.exec t s.world k c = some (r, w) →
      K.post (s.mons t) c r (S.observe s.world (s.mons t) c r) ∧
        ∃ b, run accept a (emit (s.mons t) c r) = some b ∧
        I w (Function.update s.mons t (S.observe s.world (s.mons t) c r)) b)
    (hstart : ∀ (s : State C R α T W M) (a : τ) (t : T) (l : Λ) (o : α) (p : Prog C R α) (m : M),
      I s.world s.mons a → P s (.start t l) → (s.thread t).prog = .ret o → Q o (s.mons t) →
      S.next t s.world o (s.mons t) l = some (p, m) → p.wp K Q m ∧
        I s.world (Function.update s.mons t m) a)
    (henv : ∀ (s : State C R α T W M) (a : τ) (e : E) (w : W), I s.world s.mons a → P s (.env e) →
      S.env e s.world = some w → I w s.mons a) :
    ∃ a, run accept a₀ tr = some a ∧ I s.world s.mons a := by
  have hall : ∃ a, run accept a₀ tr = some a ∧ I s.world s.mons a ∧ Checked K Q s := by
    refine h.accepted (R := fun s a => I s.world s.mons a ∧ Checked K Q s) ⟨h₀, hc₀⟩ ?_
    rintro s a l s' ⟨hI, hc⟩ hP hl
    cases l with
    | start t l =>
      obtain ⟨o, p, m, hp, hn, rfl⟩ := step_start hl
      have hQ : Q o (s.mons t) := by
        have ht := hc t
        rw [hp] at ht
        exact ht
      obtain ⟨hwp, hI'⟩ := hstart s a t l o p m hI hP hp hQ hn
      exact ⟨a, rfl, by rw [State.mons_set]; exact hI', hc.set hwp⟩
    | answer t k =>
      obtain ⟨c, f, r, w, hp, he, rfl⟩ := step_answer hl
      have ht := hc t
      rw [hp] at ht
      obtain ⟨hpost, b, hrun, hI'⟩ := hanswer s a t k c f r w hI hP hp ht.1 he
      refine ⟨b, ?_, by rw [State.mons_set]; exact hI', hc.set (Prog.wp_call ht hpost)⟩
      rw [events, hp]
      dsimp only
      rw [he]
      exact hrun
    | env e =>
      obtain ⟨w, hw, rfl⟩ := step_env hl
      exact ⟨a, rfl, henv s a e w hI hP hw, hc⟩
  obtain ⟨a, hrun, hI, -⟩ := hall
  exact ⟨a, hrun, hI⟩

end ThreadSystem

end Foundations
end CloudTiering
