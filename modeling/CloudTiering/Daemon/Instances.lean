import CloudTiering.Daemon.Start
import CloudTiering.Foundations.Traces

/-!
# `daemon.c`: several daemons

Any number of processes run `main` at the same time, with configurations of their own.  The shared
memory object of the primary download queue decides which of them becomes the daemon.

* `ProcCall`, `byProcess`, `daemons`: the processes against one system.
* `Monitor`: whether a process has created the object.
* `wp_main_owns`: along the code, a process removes the object only if it has created it.
* `daemon_single`: whoever gets to `monitor_threads` is the only one to do so, and keeps its object.
-/

namespace CloudTiering

open Foundations App

namespace Daemon
namespace Start

/-! ## The processes -/

/-- A call of the start, and the process that makes it. -/
abbrev ProcCall := ℕ × StartCall

/-- How such a call is answered. -/
abbrev ProcRep (c : ProcCall) : Type := StartRep c.2

/-- The code in process `self`. -/
def byProcess {α : Type} (self : ℕ) (p : StartProg α) : Prog ProcCall ProcRep α :=
  p.translate fun c => Prog.ask (self, c)

/-- A process, and whether it has the object: it has created it, and has not tried to remove it. -/
structure Monitor where
  self : ℕ
  owns : Bool

/-- The monitor after an answer. -/
def Monitor.after (m : Monitor) (c : StartCall) (r : StartRep c) : Monitor :=
  match c with
  | .shmOpen _ => { m with owns := r.isSome }
  | .shmUnlink _ => { m with owns := false }
  | _ => m

/-- The arguments of `main`, and what it finds. -/
structure Invocation where
  argc : ℕ
  env : ConfEnv
  lines : List OptionLine
  stop : Option ℕ

/-- The processes.  The environment says which calls fail.  A process that has returned from `main`
may be followed by another one with its number; `monitor_threads` does not return. -/
def daemons : ThreadSystem ProcCall ProcRep Outcome ℕ StartWorld Bool Monitor Invocation Empty where
  exec _ w fails c := some (answer c.1 { w with fails := [fails] } c.2)
  observe _ m c r := m.after c.2 r
  next self _ a _ i := match a with
    | .exitFailure => some (byProcess self (main i.argc i.env i.lines i.stop), ⟨self, false⟩)
    | .monitorThreads => none
  env e _ := e.elim

/-- The processes and the system. -/
abbrev DaemonsState := ThreadSystem.State ProcCall ProcRep Outcome ℕ StartWorld Monitor

/-- No process has begun. -/
def noDaemon (w : StartWorld) : DaemonsState := ⟨w, fun self => ⟨.ret .exitFailure, ⟨self, false⟩⟩⟩

/-- The reading of the calls: a process creates the object only if it does not have it, and removes
it only if it has it. -/
def procCalls : Calls ProcCall ProcRep Monitor where
  pre m c := c.1 = m.self ∧ match c.2 with
    | .shmOpen name => name = queueShmObj ∧ m.owns = false
    | .shmUnlink name => name = queueShmObj ∧ m.owns = true
    | _ => True
  post m c r m' := m' = m.after c.2 r

/-- The same for the code of one process. -/
def ownCalls (self : ℕ) : Calls StartCall StartRep Monitor where
  pre m c := procCalls.pre m (self, c)
  post m c r m' := procCalls.post m (self, c) r m'

section

variable {α : Type} {self : ℕ} {m : Monitor} {c : StartCall} {Q : α → Monitor → Prop}

theorem wp_byProcess {p : StartProg α} (h : p.wp (ownCalls self) Q m) :
    (byProcess self p).wp procCalls Q m := by
  induction p generalizing m with
  | ret a => exact h
  | call c k ih => exact ⟨h.1, fun r m' hr => ih r (h.2 r m' hr)⟩

/-! ## The code -/

/-- The calls that do not concern the object. -/
def StartCall.apart : StartCall → Bool
  | .shmOpen _ | .shmUnlink _ => false
  | _ => true

theorem pre_apart (hself : m.self = self) (hc : c.apart = true) : (ownCalls self).pre m c := by
  refine ⟨hself.symm, ?_⟩
  cases c with
  | shmOpen name => exact absurd hc Bool.false_ne_true
  | shmUnlink name => exact absurd hc Bool.false_ne_true
  | _ => trivial

theorem after_apart (hc : c.apart = true) (r : StartRep c) : m.after c r = m := by
  cases c <;> first | rfl | exact absurd hc Bool.false_ne_true

/-- What is known of the monitor. -/
def Status.Monitors (self : ℕ) : Status → Monitor → Prop
  | .clean, m => m = ⟨self, false⟩
  | .held, m | .stuck, m => m = ⟨self, true⟩
  | .ended, m => m.self = self

theorem Status.Monitors.self_eq {st : Status} (h : st.Monitors self m) : m.self = self := by
  cases st with
  | ended => exact h
  | _ =>
    obtain rfl := h
    rfl

/-- A call that does not concern the object. -/
theorem triple_apart {st : Status} (hc : c.apart = true) :
    Prog.Triple (ownCalls self) (st.Monitors self) c fun _ => st.Monitors self := by
  intro m hst
  refine ⟨pre_apart hst.self_eq hc, ?_⟩
  rintro r m' rfl
  rw [after_apart hc]
  exact hst

/-- The outline of the start, going by the monitor of the process. -/
def ownOutline (self : ℕ) : StartOutline (ownCalls self) where
  Holds st := st.Monitors self
  ended_of_clean _ hst := hst.self_eq
  ended_of_stuck _ hst := hst.self_eq
  neutral st c hc := triple_apart (by cases c <;> first | rfl | exact absurd hc Bool.false_ne_true)
  shmOpen := by
    rintro m rfl
    refine ⟨⟨rfl, rfl, rfl⟩, ?_⟩
    rintro r m' rfl
    cases r with
    | none => exact .inl ⟨rfl, rfl⟩
    | some u => exact .inr ⟨rfl, rfl⟩
  shmUnlink := by
    rintro m rfl
    refine ⟨⟨rfl, rfl, rfl⟩, ?_⟩
    rintro r m' rfl
    rfl
  pthreadCreate routine := by
    intro m hst
    refine ⟨(triple_apart rfl m hst).1, fun r m' hr => ?_⟩
    have hst' := (triple_apart rfl m hst).2 r m' hr
    cases r with
    | none => exact .inl ⟨rfl, hst'⟩
    | some u => exact .inr ⟨rfl, hst'⟩

/-- **`main`** gets to `monitor_threads` with the object only. -/
theorem wp_main_owns {argc : ℕ} {env : ConfEnv} {lines : List OptionLine} {stop : Option ℕ} :
    (main argc env lines stop).wp (ownCalls self) (fun a m' => a = .monitorThreads → m'.owns = true)
      ⟨self, false⟩ := by
  refine Prog.wp_mono ((ownOutline self).wp_main rfl) ?_
  rintro a m (⟨rfl, -⟩ | ⟨rfl, hst⟩)
  · exact fun h => Outcome.noConfusion h
  · obtain rfl : m = ⟨self, true⟩ := hst
    exact fun _ => rfl

end

/-! ## The runs -/

/-- The object of a process that has it is its own. -/
structure Owners (w : StartWorld) (mons : ℕ → Monitor) : Prop where
  self : ∀ t, (mons t).self = t
  object : ∀ t, (mons t).owns = true → w.shm queueShmObj = some t

section

variable {w w' : StartWorld} {mons : ℕ → Monitor} {t : ℕ} {c : StartCall} {r : StartRep c}

/-- A process whose monitor says that it does not have the object. -/
theorem Owners.update {owns : Bool} (h : Owners w mons)
    (hobject : owns = true → w'.shm queueShmObj = some t)
    (hothers : ∀ u, u ≠ t → (mons u).owns = true → w'.shm queueShmObj = some u) :
    Owners w' (Function.update mons t ⟨t, owns⟩) := by
  refine ⟨fun u => ?_, fun u hu => ?_⟩
  · by_cases hut : u = t
    · rw [hut, Function.update_self]
    · rw [Function.update_of_ne hut]
      exact h.self u
  · by_cases hut : u = t
    · rw [hut, Function.update_self] at hu
      rw [hut]
      exact hobject hu
    · rw [Function.update_of_ne hut] at hu
      exact hothers u hut hu

theorem shm_of_apart {a : StartVal c × (Bytes → Option ℕ)} (hc : c.apart = true)
    (hp : perform t w c = some a) : a.2 = w.shm := by
  cases c with
  | shmOpen name => exact absurd hc Bool.false_ne_true
  | shmUnlink name => exact absurd hc Bool.false_ne_true
  | _ =>
    obtain rfl := Option.some.inj hp
    rfl

/-- **One call of one process.** -/
theorem Owners.answer (h : Owners w mons) (hpre : procCalls.pre (mons t) (t, c))
    (he : Start.answer t w c = (r, w')) :
    Owners w' (Function.update mons t ((mons t).after c r)) := by
  have hm : mons t = ⟨t, (mons t).owns⟩ := congrArg (Monitor.mk · (mons t).owns) (h.self t)
  have hothers : w'.shm queueShmObj = w.shm queueShmObj → ∀ u, u ≠ t → (mons u).owns = true →
      w'.shm queueShmObj = some u := fun hshm u _ hu => hshm.trans (h.object u hu)
  by_cases hc : c.apart = true
  · have hshm : w'.shm = w.shm := by
      rcases answer_cases he with ⟨-, hshm, -⟩ | ⟨v, shm, hp, -, hshm, -⟩ | ⟨-, -, hshm, -⟩
      · exact hshm
      · exact hshm.trans (shm_of_apart hc hp)
      · exact hshm
    rw [after_apart hc, hm]
    refine h.update (fun ho => ?_) (hothers (congrFun hshm _))
    exact (congrFun hshm _).trans (h.object t ho)
  cases c with
  | shmOpen name =>
    obtain ⟨-, rfl, -⟩ := hpre
    rw [Monitor.after, h.self]
    rcases answer_cases he with ⟨rfl, hshm, -⟩ | ⟨v, shm, hp, rfl, hshm, -⟩ | ⟨-, rfl, hshm, -⟩
    · exact h.update (fun ho => absurd ho Bool.false_ne_true) (hothers (congrFun hshm _))
    · -- nobody has the object before
      obtain ⟨hnone, hx⟩ := Option.ite_none_right_eq_some.mp hp
      obtain ⟨-, rfl⟩ := Prod.mk.inj (Option.some.inj hx)
      refine h.update (fun _ => ?_) fun u _ hu => ?_
      · rw [hshm]
        exact Function.update_self _ _ _
      · rw [h.object u hu] at hnone
        exact absurd hnone (Option.some_ne_none u)
    · exact h.update (fun ho => absurd ho Bool.false_ne_true) (hothers (congrFun hshm _))
  | shmUnlink name =>
    obtain ⟨-, rfl, hown⟩ := hpre
    rw [Monitor.after, h.self]
    refine h.update (fun ho => absurd ho Bool.false_ne_true) fun u hu ho => ?_
    -- the process itself has the object, so that no other one has
    exact absurd (Option.some.inj ((h.object u ho).symm.trans (h.object t hown))) hu
  | _ => exact absurd rfl hc

end

/-- Whoever is in `monitor_threads` has the object. -/
theorem object_of_monitorThreads {w : StartWorld} {s : DaemonsState} {t : ℕ}
    (h : Reach daemons.step (fun _ _ => True) (noDaemon w) s)
    (ht : (s.thread t).prog = .ret .monitorThreads) :
    s.world.shm queueShmObj = some t := by
  have hinv : Owners s.world s.mons ∧
      ThreadSystem.Checked procCalls (fun a m => a = .monitorThreads → m.owns = true) s := by
    refine ThreadSystem.reach_inv h ⟨fun _ => rfl, fun _ ho => absurd ho Bool.false_ne_true⟩
      (fun _ ha => Outcome.noConfusion ha) ?_ ?_ fun s e => e.elim
    · rintro s t fails ⟨u, c⟩ f r w hI - - hpre he
      obtain rfl : u = t := hpre.1.trans (hI.self t)
      refine ⟨rfl, ?_⟩
      have hsame : Owners { s.world with fails := [fails] } s.mons := ⟨hI.self, hI.object⟩
      exact hsame.answer hpre (Option.some.inj he)
    · intro s t i a p m hI _ _ _ hn
      cases a with
      | monitorThreads => exact absurd hn.symm (Option.some_ne_none _)
      | exitFailure =>
        obtain ⟨rfl, rfl⟩ := Prod.mk.inj (Option.some.inj hn)
        exact ⟨wp_byProcess wp_main_owns,
          hI.update (fun ho => absurd ho Bool.false_ne_true) fun u _ hu => hI.object u hu⟩
  have hchecked := hinv.2 t
  rw [ht] at hchecked
  exact hinv.1.object t (hchecked rfl)

/-- `monitor_threads` does not return. -/
theorem step_monitorThreads {s s' : DaemonsState} {t : ℕ}
    {l : ThreadSystem.Label ℕ Bool Invocation Empty}
    (ht : (s.thread t).prog = .ret .monitorThreads) (hs : daemons.step s l = some s') :
    (s'.thread t).prog = .ret .monitorThreads := by
  have hother : ∀ u w th, u ≠ t → ((s.set w u th).thread t).prog = .ret .monitorThreads := by
    intro u w th hu
    show (Function.update s.thread u th t).prog = _
    rw [Function.update_of_ne hu.symm]
    exact ht
  cases l with
  | start u i =>
    obtain ⟨a, p, m, hp, hn, rfl⟩ := ThreadSystem.step_start hs
    refine hother _ _ _ ?_
    rintro rfl
    obtain rfl := Prog.ret.inj (hp.symm.trans ht)
    exact absurd hn.symm (Option.some_ne_none _)
  | answer u k =>
    obtain ⟨c, f, r, w, hp, -, rfl⟩ := ThreadSystem.step_answer hs
    refine hother _ _ _ ?_
    rintro rfl
    exact absurd (hp.symm.trans ht) (by simp)
  | env e => exact e.elim

/-- **There is one daemon.**  Whatever calls fail, in whatever order the processes run: once a
process has got to `monitor_threads`, the shared memory object is its own from then on, and no other
process ever gets there. -/
theorem daemon_single {w : StartWorld} {s s' : DaemonsState} {t : ℕ}
    (h : Reach daemons.step (fun _ _ => True) (noDaemon w) s)
    (ht : (s.thread t).prog = .ret .monitorThreads)
    (h' : Reach daemons.step (fun _ _ => True) s s') :
    s'.world.shm queueShmObj = some t ∧ (s'.thread t).prog = .ret .monitorThreads ∧
      ∀ u, (s'.thread u).prog = .ret .monitorThreads → u = t := by
  obtain ⟨hreach, ht'⟩ : Reach daemons.step (fun _ _ => True) (noDaemon w) s' ∧
      (s'.thread t).prog = .ret .monitorThreads :=
    h'.invariant (I := fun s => Reach daemons.step (fun _ _ => True) (noDaemon w) s ∧
      (s.thread t).prog = .ret .monitorThreads) ⟨h, ht⟩ fun s l s' hI _ hs =>
        ⟨hI.1.tail trivial hs, step_monitorThreads hI.2 hs⟩
  have hobject := object_of_monitorThreads hreach ht'
  refine ⟨hobject, ht', fun u hu => ?_⟩
  exact Option.some.inj ((object_of_monitorThreads hreach hu).symm.trans hobject)

/-- Two processes start at the same time, and one of them gets through. -/
def twoStarts : List (ThreadSystem.Label ℕ Bool Invocation Empty) :=
  .start 1 ⟨2, confEnv, startLines, none⟩ :: .start 2 ⟨2, confEnv, startLines, none⟩ ::
    .answer 2 false ::
    List.replicate 13 (.answer 1 false)

/-- The other one finds the object there and gives up, and so does a third one. -/
theorem daemon_single_three :
    ∃ s s' : DaemonsState, Reach daemons.step (fun _ _ => True) (noDaemon (startWorld [])) s ∧
      (s.thread 1).prog = .ret .monitorThreads ∧ Reach daemons.step (fun _ _ => True) s s' ∧
      (s'.thread 3).prog = .ret .exitFailure ∧
      s'.world.shm queueShmObj = some 1 ∧ (s'.thread 1).prog = .ret .monitorThreads ∧
        ∀ u, (s'.thread u).prog = .ret .monitorThreads → u = 1 := by
  have hfirst : ((run daemons.step (noDaemon (startWorld [])) twoStarts).any
      fun s => (s.thread 1).prog.result == some .monitorThreads) = true := by
    decide +kernel
  have hall : ((run daemons.step (noDaemon (startWorld [])) (twoStarts ++ [.answer 2 false,
      .start 3 ⟨2, confEnv, startLines, none⟩, .answer 3 false, .answer 3 false])).any
        fun s => (s.thread 3).prog.result == some .exitFailure) = true := by
    decide +kernel
  obtain ⟨s, hs, hp⟩ := (Option.any_eq_true _ _).mp hfirst
  obtain ⟨s', hs', hp'⟩ := (Option.any_eq_true _ _).mp hall
  have h : Reach daemons.step (fun _ _ => True) (noDaemon (startWorld [])) s :=
    .of_run (fun _ _ _ => trivial) hs
  have h' : Reach daemons.step (fun _ _ => True) s s' :=
    .of_run (fun _ _ _ => trivial) ((run_append hs).symm.trans hs')
  have ht := Prog.result_eq_some (beq_iff_eq.mp hp)
  exact ⟨s, s', h, ht, h', Prog.result_eq_some (beq_iff_eq.mp hp'), daemon_single h ht h'⟩

end Start
end Daemon

end CloudTiering
