import CloudTiering.Foundations.Traces
import Mathlib.Logic.Function.Basic

/-!
# Objects whose operations take effect at one moment

What the users of a concurrent object see of it are the calls and the returns.  The object is
*linearizable* if every trace of calls and returns is also one of the atomic object, in which each
operation takes effect in a single step somewhere between its call and its return.

* `AtomicObject`, `atomicStep`: the atomic object for a sequential specification.
* `Linearizable`: the definition, with what the state of the object says about the state of the
  implementation.
* `Implements`, `linearizable_of_simulation`: a simulation in which the state says whether an
  operation has taken effect, with its moves and the rule.
-/

namespace CloudTiering
namespace Foundations

/-! ## Atomic objects -/

section

variable {T O R S σ L : Type}

/-- What the users of an object see. -/
inductive Event (T O R : Type)
  | call (t : T) (op : O)
  | ret (t : T) (r : R)

/-- How far a thread is with an operation. -/
inductive Status (O R : Type)
  | idle
  | called (op : O)
  /-- The operation has taken effect, and `r` will be returned. -/
  | done (r : R)

/-- The atomic object: its value and how far the threads are. -/
structure AtomicObject (T O R S : Type) where
  value : S
  status : T → Status O R

/-- The labels of its steps. -/
inductive AtomicLabel (T O : Type)
  | call (t : T) (op : O)
  | act (t : T)
  | ret (t : T)

/-- Nobody has called an operation yet. -/
def AtomicObject.fresh (T : Type) {O : Type} (R : Type) {S : Type} (value : S) :
    AtomicObject T O R S := ⟨value, fun _ => .idle⟩

variable [DecidableEq T]

/-- A step of the atomic object.  `apply` gives the result of an operation and the value afterwards;
an operation that it does not answer has to wait. -/
def atomicStep (apply : S → O → Option (R × S)) (a : AtomicObject T O R S) :
    AtomicLabel T O → Option (AtomicObject T O R S)
  | .call t op => match a.status t with
    | .idle => some { a with status := Function.update a.status t (.called op) }
    | _ => none
  | .act t => match a.status t with
    | .called op => (apply a.value op).map fun p => ⟨p.2, Function.update a.status t (.done p.1)⟩
    | _ => none
  | .ret t => match a.status t with
    | .done _ => some { a with status := Function.update a.status t .idle }
    | _ => none

/-- The calls and returns. -/
def atomicEvents (a : AtomicObject T O R S) (l : AtomicLabel T O) (_ : AtomicObject T O R S) :
    List (Event T O R) :=
  match l with
  | .call t op => [.call t op]
  | .act _ => []
  | .ret t => match a.status t with
    | .done r => [.ret t r]
    | _ => []

/-- The traces of the atomic object. -/
abbrev AtomicTrace (apply : S → O → Option (R × S)) (a : AtomicObject T O R S) :
    List (Event T O R) → AtomicObject T O R S → Prop :=
  Trace (atomicStep apply) (fun _ _ => True) atomicEvents a

variable {apply : S → O → Option (R × S)} {a : AtomicObject T O R S} {t : T} {op : O}
  {r : R} {v : S}

theorem atomicTrace_call (h : a.status t = .idle) :
    AtomicTrace apply a [.call t op]
      { a with status := Function.update a.status t (.called op) } := by
  have hl : atomicStep apply a (.call t op) =
      some { a with status := Function.update a.status t (.called op) } := by
    rw [atomicStep, h]
  exact .single trivial hl

theorem atomicTrace_act (h : a.status t = .called op) (happly : apply a.value op = some (r, v)) :
    AtomicTrace apply a [] ⟨v, Function.update a.status t (.done r)⟩ := by
  have hl : atomicStep apply a (.act t) = some ⟨v, Function.update a.status t (.done r)⟩ := by
    rw [atomicStep, h]
    dsimp only
    rw [happly]
    rfl
  exact .single trivial hl

theorem atomicTrace_ret (h : a.status t = .done r) :
    AtomicTrace apply a [.ret t r] { a with status := Function.update a.status t .idle } := by
  have hl : atomicStep apply a (.ret t) =
      some { a with status := Function.update a.status t .idle } := by
    rw [atomicStep, h]
  have htr : AtomicTrace apply a (atomicEvents a (.ret t) _) _ := .single trivial hl
  rwa [atomicEvents, h] at htr

/-- **Linearizable**: every trace of calls and returns, in a run whose steps meet `P`, is one of the
atomic object, whose value then agrees with the state of the implementation. -/
def Linearizable (step : σ → L → Option σ) (P : σ → L → Prop)
    (events : σ → L → σ → List (Event T O R)) (s₀ : σ)
    (apply : S → O → Option (R × S)) (value : S) (agree : σ → S → Prop) : Prop :=
  ∀ tr s, Trace step P events s₀ tr s →
    ∃ a, AtomicTrace apply (AtomicObject.fresh T R value) tr a ∧ agree s a.value

/-! ## Fixed moments -/

/-- The atomic object that belongs to a state of the implementation: its value is related to the
state by `I`, and how far the threads are can be seen there. -/
structure Implements (I : σ → S → Prop) (status : σ → T → Status O R) (s : σ)
    (a : AtomicObject T O R S) : Prop where
  inv : I s a.value
  status_eq : a.status = status s

variable {I : σ → S → Prop} {status : σ → T → Status O R} {s s' : σ}

omit [DecidableEq T] in
/-- A step that nobody sees. -/
theorem Implements.quiet (h : Implements I status s a) (hI : I s' a.value)
    (hstatus : status s' = status s) :
    Implements I status s' a :=
  ⟨hI, h.status_eq.trans hstatus.symm⟩

/-- A step in which a thread calls an operation. -/
theorem Implements.called (h : Implements I status s a) (hI : I s' a.value)
    (ht : status s t = .idle)
    (hstatus : status s' = Function.update (status s) t (.called op)) :
    ∃ b, AtomicTrace apply a [.call t op] b ∧ Implements I status s' b := by
  refine ⟨_, atomicTrace_call (by rw [h.status_eq, ht]), hI, ?_⟩
  rw [hstatus, h.status_eq]

/-- A step in which an operation takes effect. -/
theorem Implements.takesEffect (h : Implements I status s a) (ht : status s t = .called op)
    (happly : apply a.value op = some (r, v)) (hI : I s' v)
    (hstatus : status s' = Function.update (status s) t (.done r)) :
    ∃ b, AtomicTrace apply a [] b ∧ Implements I status s' b := by
  refine ⟨_, atomicTrace_act (by rw [h.status_eq, ht]) happly, hI, ?_⟩
  rw [hstatus, h.status_eq]

/-- A step in which an operation returns. -/
theorem Implements.returns (h : Implements I status s a) (hI : I s' a.value)
    (ht : status s t = .done r)
    (hstatus : status s' = Function.update (status s) t .idle) :
    ∃ b, AtomicTrace apply a [.ret t r] b ∧ Implements I status s' b := by
  refine ⟨_, atomicTrace_ret (by rw [h.status_eq, ht]), hI, ?_⟩
  rw [hstatus, h.status_eq]

/-- A step in which a call takes effect and returns at once. -/
theorem Implements.atOnce (h : Implements I status s a) (hI : I s' v) (ht : status s t = .idle)
    (happly : apply a.value op = some (r, v)) (hstatus : status s' = status s) :
    ∃ b, AtomicTrace apply a [.call t op, .ret t r] b ∧ Implements I status s' b := by
  have hcall : AtomicTrace apply a [.call t op] _ := atomicTrace_call (h.status_eq ▸ ht)
  have hact : AtomicTrace apply { a with status := Function.update a.status t (.called op) } [] _ :=
    atomicTrace_act (Function.update_self _ _ _) happly
  have hret : AtomicTrace apply
      ⟨v, Function.update (Function.update a.status t (.called op)) t (.done r)⟩ [.ret t r] _ :=
    atomicTrace_ret (Function.update_self _ _ _)
  refine ⟨_, hcall.append (hact.append hret), hI, ?_⟩
  show Function.update (Function.update (Function.update a.status t _) t _) t _ = status s'
  rw [Function.update_idem, Function.update_idem, hstatus, ← ht, h.status_eq,
    Function.update_eq_self]

/-- **The rule.** -/
theorem linearizable_of_simulation {step : σ → L → Option σ} {P : σ → L → Prop}
    {events : σ → L → σ → List (Event T O R)} {s₀ : σ}
    {agree : σ → S → Prop} (h₀ : I s₀ v) (hidle : ∀ t, status s₀ t = .idle)
    (hstep : ∀ s a l s', Implements I status s a → P s l → step s l = some s' →
      ∃ b, AtomicTrace apply a (events s l s') b ∧ Implements I status s' b)
    (hagree : ∀ s v, I s v → agree s v) : Linearizable step P events s₀ apply v agree := by
  intro tr s htr
  have hfresh : Implements I status s₀ (AtomicObject.fresh T R v) := ⟨h₀, (funext hidle).symm⟩
  obtain ⟨a, ha, hs⟩ := htr.simulate hfresh hstep
  exact ⟨a, ha, hagree s a.value hs.inv⟩

end

end Foundations
end CloudTiering
