import CloudTiering.Foundations.Program
import CloudTiering.Foundations.Transition

/-!
# Threads that run programs against one world

Each thread runs a program of `Foundations.Program`; the threads share a world, and a step is one
call of one thread.  With each thread goes a *monitor*: a value computed from the calls the thread
has made and their answers, which the program itself cannot see.  The monitors are where a proof, or
the condition on a run, reads off how far a thread has come.

* `ThreadSystem`: how calls are answered, what the monitors record, what a thread may run next when
  its program has returned, and what the world does by itself.
* `ThreadSystem.step`: the labelled step; a schedule is a list of labels.
* `ThreadSystem.reach_inv`: **the proof rule.**  Each thread's program is checked by itself, by `wp`
  over its monitor; the world and the monitors are related by one global invariant, which has to be
  kept by the single calls.  No case distinction over the positions of the other threads is made.
-/

namespace CloudTiering
namespace Foundations

/-- A thread: what is left of its program, and its monitor. -/
structure Thread (C : Type) (R : C → Type) (α M : Type) where
  prog : Prog C R α
  mon : M

/-- A system of threads `T` over the world `W`. -/
structure ThreadSystem (C : Type) (R : C → Type) (α T W κ M Λ E : Type) where
  /-- The answer to a call of a thread, as the environment's choice says. -/
  exec : T → W → κ → (c : C) → Option (R c × W)
  /-- What the monitor records of an answered call; the world is the one before the call. -/
  observe : W → M → (c : C) → R c → M
  /-- What a thread may run after its program has returned. -/
  next : T → W → α → M → Λ → Option (Prog C R α × M)
  /-- What the world does by itself. -/
  env : E → W → Option W

namespace ThreadSystem

/-- The labels of the steps: a thread goes on to its next program, a thread's call is answered, the
world moves by itself. -/
inductive Label (T κ Λ E : Type)
  | start (t : T) (l : Λ)
  | answer (t : T) (k : κ)
  | env (e : E)

/-- The world and the threads. -/
structure State (C : Type) (R : C → Type) (α T W M : Type) where
  world : W
  thread : T → Thread C R α M

variable {C : Type} {R : C → Type} {α T W κ M Λ E : Type} [DecidableEq T]
variable (S : ThreadSystem C R α T W κ M Λ E)

/-- Thread `t` after a step. -/
def State.set (s : State C R α T W M) (w : W) (t : T) (th : Thread C R α M) :
    State C R α T W M :=
  ⟨w, Function.update s.thread t th⟩

@[simp] theorem State.thread_set_self (s : State C R α T W M) (w : W) (t : T)
    (th : Thread C R α M) :
    (s.set w t th).thread t = th := Function.update_self _ _ _

theorem State.thread_set_of_ne (s : State C R α T W M) (w : W) {t u : T} (th : Thread C R α M)
    (h : u ≠ t) :
    (s.set w t th).thread u = s.thread u := Function.update_of_ne h _ _

/-- One step of the system. -/
def step (s : State C R α T W M) : Label T κ Λ E → Option (State C R α T W M)
  | .start t l =>
      match (s.thread t).prog with
      | .ret a => (S.next t s.world a (s.thread t).mon l).map fun p => s.set s.world t ⟨p.1, p.2⟩
      | .call _ _ => none
  | .answer t k =>
      match (s.thread t).prog with
      | .ret _ => none
      | .call c f => (S.exec t s.world k c).map fun a =>
          s.set a.2 t ⟨f a.1, S.observe s.world (s.thread t).mon c a.1⟩
  | .env e => (S.env e s.world).map fun w => ⟨w, s.thread⟩

/-- The monitors of all threads. -/
def State.mons (s : State C R α T W M) : T → M := fun t => (s.thread t).mon

variable {S}

theorem step_start {s s' : State C R α T W M} {t : T} {l : Λ}
    (h : S.step s (.start t l) = some s') :
    ∃ a p m, (s.thread t).prog = .ret a ∧ S.next t s.world a (s.thread t).mon l = some (p, m) ∧
      s' = s.set s.world t ⟨p, m⟩ := by
  unfold step at h
  dsimp only at h
  cases hp : (s.thread t).prog with
  | ret a =>
    rw [hp] at h
    obtain ⟨⟨p, m⟩, hn, rfl⟩ := Option.map_eq_some_iff.mp h
    exact ⟨a, p, m, rfl, hn, rfl⟩
  | call c f =>
    rw [hp] at h
    exact absurd h (by simp)

theorem step_answer {s s' : State C R α T W M} {t : T} {k : κ}
    (h : S.step s (.answer t k) = some s') :
    ∃ c f r w, (s.thread t).prog = .call c f ∧ S.exec t s.world k c = some (r, w) ∧
      s' = s.set w t ⟨f r, S.observe s.world (s.thread t).mon c r⟩ := by
  unfold step at h
  dsimp only at h
  cases hp : (s.thread t).prog with
  | ret a =>
    rw [hp] at h
    exact absurd h (by simp)
  | call c f =>
    rw [hp] at h
    obtain ⟨⟨r, w⟩, hr, rfl⟩ := Option.map_eq_some_iff.mp h
    exact ⟨c, f, r, w, rfl, hr, rfl⟩

theorem step_env {s s' : State C R α T W M} {e : E} (h : S.step s (.env e) = some s') :
    ∃ w, S.env e s.world = some w ∧ s' = ⟨w, s.thread⟩ := by
  obtain ⟨w, hw, rfl⟩ := Option.map_eq_some_iff.mp h
  exact ⟨w, hw, rfl⟩

omit [DecidableEq T] in
theorem State.mons_set [DecidableEq T] (s : State C R α T W M) (w : W) (t : T)
    (th : Thread C R α M) : (s.set w t th).mons = Function.update s.mons t th.mon := by
  funext u
  by_cases hu : u = t
  · subst hu
    simp [State.mons, State.set]
  · simp [State.mons, State.set, hu]

/-- Every thread's program satisfies its specification from its monitor. -/
def Checked (K : Calls C R M) (Q : α → M → Prop) (s : State C R α T W M) : Prop :=
  ∀ t, (s.thread t).prog.wp K Q (s.thread t).mon

omit [DecidableEq T] in
theorem Checked.set [DecidableEq T] {K : Calls C R M} {Q : α → M → Prop}
    {s : State C R α T W M} (h : Checked K Q s) {w : W} {t : T} {th : Thread C R α M}
    (ht : th.prog.wp K Q th.mon) : Checked K Q (s.set w t th) := by
  intro u
  by_cases hu : u = t
  · subst hu
    simpa [State.set] using ht
  · simpa [State.set, hu] using h u

/-- **The proof rule for threads.**  `I` relates the world to the monitors.  Every answer that
`exec` can give to a permitted call must be one the thread's specification `K` foresees, and must
keep `I`; starting a program must establish its specification and keep `I`; the world's own steps
must keep `I`. -/
theorem reach_inv {K : Calls C R M} {Q : α → M → Prop} {I : W → (T → M) → Prop}
    {P : State C R α T W M → Label T κ Λ E → Prop} {s₀ s : State C R α T W M}
    (h : Reach S.step P s₀ s) (h₀ : I s₀.world s₀.mons) (hc₀ : Checked K Q s₀)
    (hanswer : ∀ (s : State C R α T W M) (t : T) (k : κ) (c : C) (f : R c → Prog C R α) (r : R c)
      (w : W), I s.world s.mons → P s (.answer t k) → (s.thread t).prog = .call c f →
      K.pre (s.mons t) c → S.exec t s.world k c = some (r, w) →
      K.post (s.mons t) c r (S.observe s.world (s.mons t) c r) ∧
        I w (Function.update s.mons t (S.observe s.world (s.mons t) c r)))
    (hstart : ∀ (s : State C R α T W M) (t : T) (l : Λ) (a : α) (p : Prog C R α) (m : M),
      I s.world s.mons → P s (.start t l) → (s.thread t).prog = .ret a → Q a (s.mons t) →
      S.next t s.world a (s.mons t) l = some (p, m) →
      p.wp K Q m ∧ I s.world (Function.update s.mons t m))
    (henv : ∀ (s : State C R α T W M) (e : E) (w : W), I s.world s.mons → P s (.env e) →
      S.env e s.world = some w → I w s.mons) :
    I s.world s.mons ∧ Checked K Q s := by
  refine h.invariant (I := fun s => I s.world s.mons ∧ Checked K Q s) ⟨h₀, hc₀⟩ ?_
  rintro s l s' ⟨hI, hc⟩ hP hl
  cases l with
  | start t l =>
    obtain ⟨a, p, m, hp, hn, rfl⟩ := step_start hl
    have hQ : Q a (s.mons t) := by
      have ht := hc t
      rw [hp] at ht
      exact ht
    obtain ⟨hwp, hI'⟩ := hstart s t l a p m hI hP hp hQ hn
    exact ⟨by rw [State.mons_set]; exact hI', hc.set hwp⟩
  | answer t k =>
    obtain ⟨c, f, r, w, hp, he, rfl⟩ := step_answer hl
    have ht := hc t
    rw [hp] at ht
    obtain ⟨hpost, hI'⟩ := hanswer s t k c f r w hI hP hp ht.1 he
    exact ⟨by rw [State.mons_set]; exact hI', hc.set (Prog.wp_call ht hpost)⟩
  | env e =>
    obtain ⟨w, hw, rfl⟩ := step_env hl
    exact ⟨henv s e w hI hP hw, hc⟩

end ThreadSystem

end Foundations
end CloudTiering
