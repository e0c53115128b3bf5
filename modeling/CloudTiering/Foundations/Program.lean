import Mathlib.Data.List.Basic
import Mathlib.Logic.Function.Basic
import Mathlib.Order.Basic

/-!
# Programs over a signature of calls

A program is a tree: it either returns a value or makes one call and goes on with the answer.  What
a call *does* is not part of the tree.  That is the point: one and the same program is run alone,
run with failing calls, cut off in the middle, or interleaved with others, and only the reading of
the calls changes.

* `Prog C R α`: programs that make calls `c : C` answered in `R c` and return an `α`; a monad.
* `Prog.Rest`: what is left of a program after its first call; `Prog.wellFounded_rest`: it makes
  finitely many.
* `Prog.AllCalls P`: every call the program can make satisfies `P`.
* `Prog.runWith`: the run of a program that has the world to itself.
* `Prog.translate`: the program over other calls, each call replaced by a program.
* `Prog.scripted`: the run in which a list of choices says how the calls are answered.
* `Prog.step`: one call of a program, answered as a choice says.
* `Prog.wp`: the weakest precondition for a nondeterministic reading `Calls C R σ` of the calls,
  with the rule for sequencing, its preservation by an answered call, and what it says about
  `Prog.runWith`; `Prog.Triple` is the same for a single call.
-/

namespace CloudTiering
namespace Foundations

/-- A program that returns an `α` and may make the calls `c : C`, each answered in `R c`. -/
inductive Prog (C : Type) (R : C → Type) (α : Type) : Type
  | ret (a : α) : Prog C R α
  | call (c : C) (k : R c → Prog C R α) : Prog C R α

namespace Prog

variable {C : Type} {R : C → Type} {α β γ : Type}

/-- Sequencing: `f` goes on where the first program returns. -/
def bind : Prog C R α → (α → Prog C R β) → Prog C R β
  | .ret a, f => f a
  | .call c k, f => .call c fun r => (k r).bind f

instance : Monad (Prog C R) where
  pure := .ret
  bind := bind

theorem bind_pure (p : Prog C R α) : (p >>= fun a => pure a) = p := by
  induction p with
  | ret a => rfl
  | call c k ih => exact congrArg (Prog.call c) (funext ih)

theorem bind_assoc (p : Prog C R α) (f : α → Prog C R β) (g : β → Prog C R γ) :
    p >>= f >>= g = p >>= fun a => f a >>= g := by
  induction p with
  | ret a => rfl
  | call c k ih => exact congrArg (Prog.call c) (funext ih)

instance : LawfulMonad (Prog C R) :=
  LawfulMonad.mk' _ bind_pure (fun _ _ => rfl) bind_assoc

/-- The program that makes one call and returns its answer. -/
def ask (c : C) : Prog C R (R c) := .call c .ret

/-- What a program has returned. -/
def result : Prog C R α → Option α
  | .ret a => some a
  | .call _ _ => none

theorem result_eq_some {p : Prog C R α} {a : α} (h : p.result = some a) : p = .ret a := by
  cases p with
  | ret b => exact congrArg Prog.ret (Option.some.inj h)
  | call c k => exact absurd h.symm (Option.some_ne_none a)

/-- What is left of a program after its first call. -/
inductive Rest : Prog C R α → Prog C R α → Prop
  | answered (c : C) (k : R c → Prog C R α) (r : R c) : Rest (k r) (.call c k)

/-- A program makes finitely many calls. -/
theorem wellFounded_rest : WellFounded (Rest : Prog C R α → Prog C R α → Prop) := by
  refine ⟨fun p => ?_⟩
  induction p with
  | ret a => exact ⟨_, fun q h => nomatch h⟩
  | call c k ih =>
    refine ⟨_, fun q h => ?_⟩
    cases h with
    | answered _ _ r => exact ih r

/-! ## The calls a program makes -/

/-- Every call the program can make, whatever the answers, satisfies `P`. -/
def AllCalls (P : C → Prop) : Prog C R α → Prop
  | .ret _ => True
  | .call c k => P c ∧ ∀ r, (k r).AllCalls P

theorem allCalls_ask {P : C → Prop} {c : C} (h : P c) : (ask c : Prog C R (R c)).AllCalls P :=
  ⟨h, fun _ => trivial⟩

theorem AllCalls.mono {P P' : C → Prop} {p : Prog C R α} (h : p.AllCalls P) (hP : ∀ c, P c → P' c) :
    p.AllCalls P' := by
  induction p with
  | ret a => trivial
  | call c k ih => exact ⟨hP c h.1, fun r => ih r (h.2 r)⟩

theorem AllCalls.bind {P : C → Prop} {p : Prog C R α} {f : α → Prog C R β}
    (hp : p.AllCalls P) (hf : ∀ a, (f a).AllCalls P) : (p >>= f).AllCalls P := by
  induction p with
  | ret a => exact hf a
  | call c k ih => exact ⟨hp.1, fun r => ih r (hp.2 r)⟩

/-! ## Running alone -/

/-- The run of a program whose calls are answered by `answer`; `none` where it gives no answer. -/
def runWith {σ : Type} (answer : σ → (c : C) → Option (R c × σ)) :
    Prog C R α → σ → Option (α × σ)
  | .ret a, s => some (a, s)
  | .call c k, s => (answer s c).bind fun a => (k a.1).runWith answer a.2

/-- A run of a sequence is a run of its parts. -/
theorem runWith_bind {σ : Type} {answer : σ → (c : C) → Option (R c × σ)} (p : Prog C R α)
    (f : α → Prog C R β) (s : σ) :
    (p >>= f).runWith answer s = (p.runWith answer s).bind fun a => (f a.1).runWith answer a.2 := by
  induction p generalizing s with
  | ret a => rfl
  | call c k ih =>
    show (answer s c).bind (fun a => (k a.1 >>= f).runWith answer a.2) =
      ((answer s c).bind fun a => (k a.1).runWith answer a.2).bind _
    rw [Option.bind_assoc]
    exact congrArg _ (funext fun a => ih a.1 a.2)

theorem runWith_map {σ : Type} {answer : σ → (c : C) → Option (R c × σ)} (p : Prog C R α)
    (f : α → β) (s : σ) :
    (f <$> p).runWith answer s = (p.runWith answer s).map fun a => (f a.1, a.2) := by
  rw [← bind_pure_comp, runWith_bind, Option.map_eq_bind]
  rfl

/-- The program with every call replaced by a program over other calls. -/
def translate {C' : Type} {R' : C' → Type} (f : (c : C) → Prog C' R' (R c)) :
    Prog C R α → Prog C' R' α
  | .ret a => .ret a
  | .call c k => (f c).bind fun r => (k r).translate f

/-- A run of the translation is a run in which each call is answered by running what replaces it. -/
theorem runWith_translate {C' : Type} {R' : C' → Type} {σ : Type}
    {answer : σ → (c : C') → Option (R' c × σ)} (f : (c : C) → Prog C' R' (R c))
    (p : Prog C R α) (s : σ) :
    (p.translate f).runWith answer s = p.runWith (fun s c => (f c).runWith answer s) s := by
  induction p generalizing s with
  | ret a => rfl
  | call c k ih =>
    show (f c >>= fun r => (k r).translate f).runWith answer s = _
    rw [runWith_bind]
    exact congrArg _ (funext fun a => ih a.1 a.2)

/-! ## One call at a time -/

/-- One call of the program, answered as the choice `k` of the environment says; `none` when the
program has returned or the call has no such answer. -/
def step {σ κ : Type} (exec : σ → κ → (c : C) → Option (R c × σ)) (k : κ) :
    Prog C R α → σ → Option (Prog C R α × σ)
  | .ret _, _ => none
  | .call c f, s => (exec s k c).map fun a => (f a.1, a.2)

/-- Calls answered by a script: the next choice of the list is the environment's choice at the next
call. -/
def scripted {σ κ : Type} (exec : σ → κ → (c : C) → Option (R c × σ)) (s : σ × List κ) (c : C) :
    Option (R c × (σ × List κ)) :=
  match s.2 with
  | [] => none
  | k :: ks => (exec s.1 k c).map fun a => (a.1, (a.2, ks))

theorem scripted_eq_some {σ κ : Type} {exec : σ → κ → (c : C) → Option (R c × σ)}
    {s s' : σ × List κ} {c : C} {r : R c} (h : scripted exec s c = some (r, s')) :
    ∃ k, s.2 = k :: s'.2 ∧ exec s.1 k c = some (r, s'.1) := by
  obtain ⟨w, ks⟩ := s
  cases ks with
  | nil => exact absurd h (by simp [scripted])
  | cons k ks =>
    obtain ⟨⟨r', w'⟩, he, heq⟩ := Option.map_eq_some_iff.mp h
    obtain ⟨rfl, rfl⟩ := Prod.mk.inj heq
    exact ⟨k, rfl, he⟩

/-- Two entries of a record, one somewhere before the other, after one more entry. -/
theorem pair_sublist_concat {α : Type} {a b c : α} {l : List α} :
    [a, b].Sublist (l ++ [c]) ↔ [a, b].Sublist l ∨ (a ∈ l ∧ b = c) := by
  constructor
  · intro h
    obtain ⟨l₁, l₂, heq, h₁, h₂⟩ := List.sublist_append_iff.mp h
    rcases List.sublist_singleton.mp h₂ with rfl | rfl
    · rw [List.append_nil] at heq
      exact .inl (heq ▸ h₁)
    · rcases l₁ with _ | ⟨x, _ | ⟨y, l₁⟩⟩
      · exact absurd (congrArg List.length heq) (by simp)
      · obtain ⟨rfl, hb⟩ := List.cons.inj heq
        exact .inr ⟨h₁.subset List.mem_cons_self, (List.cons.inj hb).1⟩
      · exact absurd (congrArg List.length heq) (by simp)
  · rintro (h | ⟨ha, rfl⟩)
    · exact h.trans (List.sublist_append_left l [c])
    · exact (List.singleton_sublist.mpr ha).append (List.Sublist.refl [b])

theorem step_eq_some {σ κ : Type} {exec : σ → κ → (c : C) → Option (R c × σ)} {k : κ}
    {p p' : Prog C R α} {s s' : σ} (h : p.step exec k s = some (p', s')) :
    ∃ c f r, p = .call c f ∧ exec s k c = some (r, s') ∧ p' = f r := by
  cases p with
  | ret a => exact absurd h (by simp [step])
  | call c f =>
    obtain ⟨⟨r, t⟩, hr, he⟩ := Option.map_eq_some_iff.mp h
    obtain ⟨hp, hs⟩ := Prod.mk.inj he
    dsimp only at hp hs
    exact ⟨c, f, r, rfl, hs ▸ hr, hp.symm⟩

end Prog

/-! ## Weakest preconditions -/

/-- A reading of the calls over states `σ`: which calls may be made in a state, and to which states
an answer can lead. -/
structure Calls (C : Type) (R : C → Type) (σ : Type) where
  /-- The call may be made. -/
  pre : σ → C → Prop
  /-- The call can be answered so, and leads there. -/
  post : σ → (c : C) → R c → σ → Prop

namespace Prog

variable {C : Type} {R : C → Type} {α β σ : Type} (K : Calls C R σ)

/-- Every call the program makes from `s` may be made, and where it returns, `Q` holds. -/
def wp : Prog C R α → (α → σ → Prop) → σ → Prop
  | .ret a, Q, s => Q a s
  | .call c k, Q, s => K.pre s c ∧ ∀ r s', K.post s c r s' → (k r).wp Q s'

variable {K}

theorem wp_bind {p : Prog C R α} {f : α → Prog C R β} {Q : β → σ → Prop} {s : σ} :
    (p >>= f).wp K Q s ↔ p.wp K (fun a t => (f a).wp K Q t) s := by
  induction p generalizing s with
  | ret a => exact Iff.rfl
  | call c k ih =>
    exact and_congr Iff.rfl (forall_congr' fun r => forall_congr' fun s' =>
      imp_congr Iff.rfl (ih r))

theorem wp_mono {p : Prog C R α} {Q Q' : α → σ → Prop} {s : σ} (h : p.wp K Q s)
    (hQ : ∀ a t, Q a t → Q' a t) : p.wp K Q' s := by
  induction p generalizing s with
  | ret a => exact hQ a s h
  | call c k ih => exact ⟨h.1, fun r s' hr => ih r (h.2 r s' hr)⟩

/-- **A program of neutral calls.**  Where no call of the program moves the state, the program is a
`return` as far as `wp` can see. -/
theorem wp_of_allCalls {P : C → Prop} {p : Prog C R α} {Q : α → σ → Prop} {s : σ}
    (hp : p.AllCalls P) (hpre : ∀ c, P c → K.pre s c)
    (hpost : ∀ c r s', P c → K.post s c r s' → s' = s) (hQ : ∀ a, Q a s) : p.wp K Q s := by
  induction p with
  | ret a => exact hQ a
  | call c k ih =>
    refine ⟨hpre c hp.1, fun r s' hr => ?_⟩
    rw [hpost c r s' hp.1 hr]
    exact ih r (hp.2 r)

/-- A program whose calls all keep an assertion. -/
theorem wp_of_allCalls_keep {P : C → Prop} {I : σ → Prop} {p : Prog C R α} {s : σ}
    (hp : p.AllCalls P) (hpre : ∀ s c, P c → I s → K.pre s c)
    (hpost : ∀ s c r s', P c → I s → K.post s c r s' → I s') (hs : I s) :
    p.wp K (fun _ => I) s := by
  induction p generalizing s with
  | ret a => exact hs
  | call c k ih =>
    exact ⟨hpre s c hp.1 hs, fun r s' hr => ih r (hp.2 r) (hpost s c r s' hp.1 hs hr)⟩

/-- The reading in which every call may be made and be answered in any way. -/
def anyAnswer : Calls C R Unit where
  pre _ _ := True
  post _ _ _ _ := True

theorem wp_anyAnswer {p : Prog C R α} {Q : α → Unit → Prop} {t : Unit} (hQ : ∀ a t, Q a t) :
    p.wp anyAnswer Q t := by
  induction p generalizing t with
  | ret a => exact hQ a t
  | call c k ih => exact ⟨trivial, fun r _ _ => ih r⟩

/-- What a single call does: from `P` it may be made, and whatever the answer is, `Q` holds. -/
def Triple (K : Calls C R σ) (P : σ → Prop) (c : C) (Q : R c → σ → Prop) : Prop :=
  ∀ s, P s → K.pre s c ∧ ∀ r t, K.post s c r t → Q r t

/-- A fact that does not depend on the state. -/
theorem Triple.lift {φ : Prop} {P : σ → Prop} {c : C} {Q : R c → σ → Prop}
    (h : φ → Triple K P c Q) : Triple K (fun s => φ ∧ P s) c Q :=
  fun s hs => h hs.1 s hs.2

theorem Triple.mono {P : σ → Prop} {c : C} {Q Q' : R c → σ → Prop} (h : Triple K P c Q)
    (hQ : ∀ r t, Q r t → Q' r t) : Triple K P c Q' :=
  fun s hs => ⟨(h s hs).1, fun r t hr => hQ r t ((h s hs).2 r t hr)⟩

/-- A program that begins with a call. -/
theorem Triple.bind {P : σ → Prop} {c : C} {Q : R c → σ → Prop} {f : R c → Prog C R β}
    {Q' : β → σ → Prop} (h : Triple K P c Q) {s : σ} (hs : P s)
    (hf : ∀ r t, Q r t → (f r).wp K Q' t) : (ask c >>= f).wp K Q' s :=
  wp_bind.mpr ⟨(h s hs).1, fun r t hr => hf r t ((h s hs).2 r t hr)⟩

/-- The weakest precondition is carried along a call. -/
theorem wp_call {c : C} {f : R c → Prog C R α} {Q : α → σ → Prop} {s s' : σ} {r : R c}
    (h : (Prog.call c f).wp K Q s) (hr : K.post s c r s') : (f r).wp K Q s' :=
  h.2 r s' hr

/-- **What `wp` says about a run alone.**  Where every call that may be made is answered within `K`,
the program returns, and the postcondition holds. -/
theorem wp_runWith {τ : Type} {answer : τ → (c : C) → Option (R c × τ)} (view : τ → σ)
    (hK : ∀ t c, K.pre (view t) c →
      ∃ r t', answer t c = some (r, t') ∧ K.post (view t) c r (view t'))
    {p : Prog C R α} {Q : α → σ → Prop} {t : τ} (h : p.wp K Q (view t)) :
    ∃ a t', p.runWith answer t = some (a, t') ∧ Q a (view t') := by
  induction p generalizing t with
  | ret a => exact ⟨a, t, rfl, h⟩
  | call c k ih =>
    obtain ⟨r, t', hr, hpost⟩ := hK t c h.1
    obtain ⟨a, u, hu, hQ⟩ := ih r (h.2 r _ hpost)
    exact ⟨a, u, by rw [runWith, hr]; exact hu, hQ⟩

/-- **A run in which every call is answered.**  The program returns. -/
theorem wp_anyAnswer_runWith {τ : Type} (answer : τ → (c : C) → R c × τ) {p : Prog C R α}
    {Q : α → Prop} (h : p.wp anyAnswer (fun a _ => Q a) ()) (t : τ) :
    ∃ a t', p.runWith (fun t c => some (answer t c)) t = some (a, t') ∧ Q a :=
  wp_runWith (fun _ => ()) (fun t c _ => ⟨(answer t c).1, (answer t c).2, rfl, trivial⟩) h

/-- **What `wp` says about a run that is given.**  No call has to be possible. -/
theorem wp_of_runWith {τ : Type} {answer : τ → (c : C) → Option (R c × τ)} (view : τ → σ)
    (hK : ∀ t c r t', answer t c = some (r, t') → K.post (view t) c r (view t'))
    {p : Prog C R α} {Q : α → σ → Prop} {t t' : τ} {a : α} (h : p.wp K Q (view t))
    (hrun : p.runWith answer t = some (a, t')) : Q a (view t') := by
  induction p generalizing t with
  | ret b =>
    obtain ⟨rfl, rfl⟩ := Prod.mk.inj (Option.some.inj hrun)
    exact h
  | call c k ih =>
    obtain ⟨⟨r, u⟩, hr, hrest⟩ := Option.bind_eq_some_iff.mp hrun
    exact ih r (h.2 r _ (hK t c r u hr)) hrest

/-- The same for a run that ends well: every step of it is one in which the rest of the run can
still end well. -/
theorem wp_of_runWith_good {τ : Type} {answer : τ → (c : C) → Option (R c × τ)} {G : τ → Prop}
    (view : τ → σ) (hG : ∀ t c r t', answer t c = some (r, t') → G t' → G t)
    (hK : ∀ t c r t', answer t c = some (r, t') → G t' → K.post (view t) c r (view t'))
    {p : Prog C R α} {Q : α → σ → Prop} {t t' : τ} {a : α} (h : p.wp K Q (view t))
    (hrun : p.runWith answer t = some (a, t')) (hgood : G t') : Q a (view t') := by
  have hstart : ∀ (p : Prog C R α) (t : τ), p.runWith answer t = some (a, t') → G t := by
    intro p
    induction p with
    | ret b =>
      intro t hrun
      obtain ⟨-, rfl⟩ := Prod.mk.inj (Option.some.inj hrun)
      exact hgood
    | call c k ih =>
      intro t hrun
      obtain ⟨⟨r, u⟩, hr, hrest⟩ := Option.bind_eq_some_iff.mp hrun
      exact hG t c r u hr (ih r u hrest)
  induction p generalizing t with
  | ret b =>
    obtain ⟨rfl, rfl⟩ := Prod.mk.inj (Option.some.inj hrun)
    exact h
  | call c k ih =>
    obtain ⟨⟨r, u⟩, hr, hrest⟩ := Option.bind_eq_some_iff.mp hrun
    exact ih r (h.2 r _ (hK t c r u hr (hstart _ _ hrest))) hrest

/-- The reading of the calls that a script of choices gives. -/
def scriptCalls {κ : Type} (exec : σ → κ → (c : C) → Option (R c × σ)) :
    Calls C R (σ × List κ) where
  pre _ _ := True
  post s c r s' := scripted exec s c = some (r, s')

/-- What a single call does under a script, one choice after the other. -/
theorem triple_scripted {κ : Type} {exec : σ → κ → (c : C) → Option (R c × σ)}
    {P : σ × List κ → Prop} {c : C} {Q : R c → σ × List κ → Prop}
    (h : ∀ w k ks r w', P (w, k :: ks) → exec w k c = some (r, w') → Q r (w', ks)) :
    Triple (scriptCalls exec) P c Q := by
  rintro ⟨w, ks⟩ hP
  refine ⟨trivial, fun r t ht => ?_⟩
  obtain ⟨k, hk, he⟩ := scripted_eq_some ht
  dsimp only at hk
  subst hk
  exact h w k t.2 r t.1 hP he

end Prog

end Foundations
end CloudTiering
