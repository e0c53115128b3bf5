import CloudTiering.Foundations.AtomicObject
import CloudTiering.Queue.Fifo

/-!
# The queue is linearizable

To its users the queue is a bounded queue whose operations take effect at one moment each.  A push
takes effect when it counts its element, a pop when it counts it out, and an operation that is
refused when it finds the queue full, empty, or its front element too large.

* `Answer`, `boundedQueue`: what an operation returns, and the bounded queue.
* `queueEvents`: the calls and returns in a run of the machine.
* `Pc.status`: whether the operation of a thread has taken effect.
* `Pc.Fits`, `QueueInv`: what the positions say beyond `Data`, and the invariant.
* `queue_linearizable`: the result.
-/

namespace CloudTiering

open Foundations

namespace Queue

/-! ## The bounded queue -/

/-- What an operation returns, and the bytes that a pop has put into the buffer. -/
structure Answer where
  ret : Int
  data : Option Bytes

/-- The bounded queue of at most `n` elements of at most `d` bytes; `none` where an operation has to
wait. -/
def boundedQueue (n d : ℕ) (els : List Bytes) : Op → Option (Answer × List Bytes)
  | .push a =>
      if a.bytes.length = 0 ∨ a.bytes.length > d then some (⟨-1, none⟩, els)
      else if els.length = n then if a.shouldWait then none else some (⟨-1, none⟩, els)
      else some (⟨0, none⟩, els ++ [a.bytes])
  | .pop a =>
      match els with
      | [] => if a.shouldWait then none else some (⟨-1, none⟩, [])
      | e :: rest => if a.dataSize < e.length then some (⟨-1, none⟩, e :: rest)
          else some (⟨0, some e⟩, rest)

section

variable {T : Type}

/-- The return of a thread that is outside again; `data` is what is in its buffer. -/
def returnEvent (t : T) (data : Option Bytes) : Pc → List (Event T Op Answer)
  | .outside (some ret) => [.ret t ⟨ret, data⟩]
  | _ => []

/-- The calls and returns. -/
def queueEvents (s : Machine T) (l : Label T) (s' : Machine T) : List (Event T Op Answer) :=
  match l with
  | .call t op => .call t op :: returnEvent t none (s'.pc t)
  | .go t => match s.pc t with
    | .pop k _ _ => returnEvent t (s.headLog[k]?).join (s'.pc t)
    | _ => returnEvent t none (s'.pc t)
  | .spurious _ => []

/-! ## How far an operation is -/

/-- Whether the operation of a thread has taken effect. -/
def Pc.status (headLog : List (Option Bytes)) : Pc → Status Op Answer
  | .outside _ => .idle
  | .pushStart a => .called (.push a)
  | .push _ _ .refuse | .push _ _ .refuseTail => .done ⟨-1, none⟩
  | .push _ _ .leave | .push _ _ .leaveTail => .done ⟨0, none⟩
  | .push _ a _ => .called (.push a)
  | .popStart a => .called (.pop a)
  | .pop _ _ .refuse | .pop _ _ .refuseHead | .pop _ _ .small => .done ⟨-1, none⟩
  | .pop k _ .leave | .pop k _ .leaveHead => .done ⟨0, (headLog[k]?).join⟩
  | .pop _ a _ => .called (.pop a)

/-- How far the operations of the threads are. -/
def Machine.status (s : Machine T) (t : T) : Status Op Answer := (s.pc t).status s.headLog

theorem wakeless_status (headLog : List (Option Bytes)) : Wakeless (Pc.status headLog) :=
  ⟨fun _ _ => rfl, fun _ _ => rfl⟩

/-- The log matters to a popper alone. -/
theorem status_of_not_holdsHead {pc : Pc} (h : pc.holdsHead = false)
    (log log' : List (Option Bytes)) :
    pc.status log = pc.status log' := by
  rcases pc with _ | _ | ⟨_, _, _ | _ | _⟩ | _ | _
  case pop => exact absurd h (by simp [Pc.holdsHead])
  all_goals rfl

/-- What the positions say about the arguments: the element that is being pushed is not empty, and
the element that is being popped fits the buffer. -/
def Pc.Fits : Pc → Prop
  | .pushStart a | .push _ a _ => a.bytes.length ≠ 0
  | .pop _ a (.copy _ elemSz _) => elemSz ≤ a.dataSize
  | .pop _ a (.count bytes) => bytes.length ≤ a.dataSize
  | _ => True

theorem wakeless_fits : Wakeless Pc.Fits := ⟨fun _ _ => rfl, fun _ _ => rfl⟩

/-- The invariant. -/
structure QueueInv (n d b : ℕ) (s : Machine T) (els : List Bytes) : Prop where
  guarded : s.Guarded
  data : Data n d b s els
  fits : ∀ t, (s.pc t).Fits

end

section

variable {T : Type} [DecidableEq T] {n d b : ℕ} {s s' : Machine T} {els els' : List Bytes}
  {t : T} {p p₀ : Pc}
  {l : Label T}

/-- In a step thread `t` comes to `p`, and others wake up at most; the log of pops stays as it is
unless `t` is the only popper. -/
structure ComesTo (s s' : Machine T) (t : T) (p : Pc) : Prop where
  pc : s'.pc = Function.update s.pc t p ∨ ∃ e, s'.pc = Function.update (s.woken e) t p
  headLog : s'.headLog = s.headLog ∨ ∀ u, u ≠ t → (s.pc u).holdsHead = false

/-- What does not depend on being awake stays as it is for the other threads. -/
theorem ComesTo.others {α : Type} {f : Pc → α} {u : T} (h : ComesTo s s' t p) (hf : Wakeless f)
    (hu : u ≠ t) : f (s'.pc u) = f (s.pc u) := by
  rcases h.pc with hpc | ⟨e, hpc⟩
  · rw [hpc, Function.update_of_ne hu]
  · rw [hpc, Function.update_of_ne hu, hf.woken]

/-- Where the thread is. -/
theorem ComesTo.self (h : ComesTo s s' t p) : s'.pc t = p := by
  rcases h.pc with hpc | ⟨e, hpc⟩
  all_goals rw [hpc, Function.update_self]

/-- The step concerns the operation of `t` alone. -/
theorem ComesTo.status (h : ComesTo s s' t p) :
    s'.status = Function.update s.status t (p.status s'.headLog) := by
  funext u
  by_cases hu : u = t
  · rw [hu, Function.update_self, Machine.status, h.self]
  · rw [Function.update_of_ne hu, Machine.status, h.others (wakeless_status _) hu, Machine.status]
    rcases h.headLog with hlog | hother
    · rw [hlog]
    · exact status_of_not_holdsHead (hother u hu) _ _

/-- The invariant after a step; the elements in the queue are those pushed less those popped. -/
theorem QueueInv.step (h : QueueInv n d b s els) (hs : step s l = some s') (hc : ComesTo s s' t p)
    (hp : p.Fits) (hels : s'.pushed = s'.popped ++ els') : QueueInv n d b s' els' := by
  obtain ⟨els'', hd⟩ := step_data h.data h.guarded hs
  obtain rfl : els'' = els' := List.append_cancel_left (hd.history.symm.trans hels)
  refine ⟨step_guarded h.guarded hs, hd, fun u => ?_⟩
  by_cases hu : u = t
  · rw [hu, hc.self]
    exact hp
  · exact (hc.others wakeless_fits hu).mpr (h.fits u)

/-- The atomic queue that belongs to a state. -/
abbrev ImplementsQueue (n d b : ℕ) (s : Machine T) (a : AtomicObject T Op Answer (List Bytes)) :
    Prop :=
  Implements (QueueInv n d b) Machine.status s a

variable {a : AtomicObject T Op Answer (List Bytes)}

/-- A step between the moments. -/
theorem ImplementsQueue.inside (h : ImplementsQueue n d b s a) (hs : Queue.step s l = some s')
    (hc : ComesTo s s' t p)
    (hp : p.Fits) (hlogs : s'.pushed = s.pushed ∧ s'.popped = s.popped)
    (hstatus : p.status s'.headLog = s.status t) :
    ∃ b', AtomicTrace (boundedQueue n d) a [] b' ∧ ImplementsQueue n d b s' b' := by
  have hels : s'.pushed = s'.popped ++ a.value := by
    rw [hlogs.1, hlogs.2]
    exact h.inv.data.history
  refine ⟨a, .nil, h.quiet (h.inv.step hs hc hp hels) ?_⟩
  rw [hc.status, hstatus, Function.update_eq_self]

/-- The moment at which an operation takes effect. -/
theorem ImplementsQueue.moment {op : Op} {r : Answer} (h : ImplementsQueue n d b s a)
    (hs : Queue.step s l = some s')
    (hc : ComesTo s s' t p) (hp : p.Fits) (ht : s.status t = .called op)
    (happly : boundedQueue n d a.value op = some (r, els')) (hels : s'.pushed = s'.popped ++ els')
    (hstatus : p.status s'.headLog = .done r) :
    ∃ b', AtomicTrace (boundedQueue n d) a [] b' ∧ ImplementsQueue n d b s' b' :=
  h.takesEffect ht happly (h.inv.step hs hc hp hels) (by rw [hc.status, hstatus])

/-- The step in which an operation returns. -/
theorem ImplementsQueue.leaves {r : Answer} {ret : Option Int} (h : ImplementsQueue n d b s a)
    (hs : Queue.step s l = some s') (hc : ComesTo s s' t (.outside ret))
    (hlogs : s'.pushed = s.pushed ∧ s'.popped = s.popped) (ht : s.status t = .done r) :
    ∃ b', AtomicTrace (boundedQueue n d) a [.ret t r] b' ∧ ImplementsQueue n d b s' b' := by
  have hels : s'.pushed = s'.popped ++ a.value := by
    rw [hlogs.1, hlogs.2]
    exact h.inv.data.history
  exact h.returns (h.inv.step hs hc trivial hels) ht hc.status

/-! ## The steps -/

theorem comesTo_goto {m : Machine T} (heq : m.goto t p = s') (hpc : m.pc = s.pc)
    (hlog : m.headLog = s.headLog) :
    ComesTo s s' t p := by
  subst heq
  refine ⟨.inl ?_, .inl hlog⟩
  rw [Machine.goto, hpc]

/-- A thread calls an operation. -/
theorem ImplementsQueue.call {op : Op} (h : ImplementsQueue n d b s a)
    (hs : Queue.step s (.call t op) = some s') :
    ∃ b', AtomicTrace (boundedQueue n d) a (queueEvents s (.call t op) s') b' ∧
      ImplementsQueue n d b s' b' := by
  obtain ⟨ret, hpc, rfl⟩ := step_call hs
  have ht : s.status t = .idle := by rw [Machine.status, hpc]; rfl
  have hc : ComesTo s (s.goto t (op.start s.q)) t (op.start s.q) := comesTo_goto rfl rfl rfl
  have hself : (s.goto t (op.start s.q)).pc t = op.start s.q := Function.update_self _ _ _
  have hd : s.q.dataMaxSize = d := h.inv.data.ring.layout.dataMaxSize
  rw [queueEvents, hself]
  cases op with
  | pop arg =>
    have hinv := h.inv.step hs hc trivial h.inv.data.history
    exact h.called hinv ht hc.status
  | push arg =>
    by_cases hbad : arg.bytes.length = 0 ∨ arg.bytes.length > s.q.dataMaxSize
    · have hstart : Op.start s.q (.push arg) = .outside (some (-1)) := if_pos hbad
      rw [hstart] at hs hc ⊢
      have hinv := h.inv.step hs hc trivial h.inv.data.history
      refine h.atOnce (r := ⟨-1, none⟩) hinv ht ?_ ?_
      · rw [boundedQueue, if_pos (hd ▸ hbad)]
      · rw [hc.status]
        show Function.update s.status t .idle = s.status
        rw [← ht, Function.update_eq_self]
    · have hstart : Op.start s.q (.push arg) = .pushStart arg := if_neg hbad
      rw [hstart] at hs hc ⊢
      have hinv := h.inv.step hs hc (fun hzero => hbad (.inl hzero)) h.inv.data.history
      exact h.called hinv ht hc.status

/-- A thread takes `tail_mutex`. -/
theorem ImplementsQueue.lockTail {arg : Push} (h : ImplementsQueue n d b s a)
    (hpc : s.pc t = .pushStart arg)
    (hs : Queue.step s l = some s')
    (heq : s' = { s with tailMutex := some t, tailLog := s.tailLog ++ [none] }.goto t
      (.push s.tailLog.length arg .test)) :
    ∃ b', AtomicTrace (boundedQueue n d) a (returnEvent t none (s'.pc t)) b' ∧
      ImplementsQueue n d b s' b' := by
  have hfits := h.inv.fits t
  rw [hpc] at hfits
  have hst : s.status t = .called (.push arg) := by rw [Machine.status, hpc]; rfl
  have hc := comesTo_goto (s := s) heq.symm rfl rfl
  subst heq
  rw [hc.self]
  exact h.inside hs hc hfits ⟨reduceOption_append_none, rfl⟩ hst.symm

omit [DecidableEq T] in
/-- What the position of a thread says about the atomic queue. -/
theorem ImplementsQueue.status_eq_of (hpc : s.pc t = p₀) : s.status t = p₀.status s.headLog := by
  rw [Machine.status, hpc]

/-- A step in `queue_push_common`. -/
theorem ImplementsQueue.push {k : ℕ} {arg : Push} {at' : PushAt} (h : ImplementsQueue n d b s a)
    (hpc : s.pc t = .push k arg at') (hs : Queue.step s l = some s')
    (hstep : pushStep s t k arg at' = some s') :
    ∃ b', AtomicTrace (boundedQueue n d) a (returnEvent t none (s'.pc t)) b' ∧
      ImplementsQueue n d b s' b' := by
  have hfits := h.inv.fits t
  rw [hpc] at hfits
  have hok := h.inv.data.threads t
  rw [hpc] at hok
  have hvalid : ¬ (arg.bytes.length = 0 ∨ arg.bytes.length > d) := fun hbad =>
    hbad.elim hfits (Nat.not_lt_of_le hok.1)
  have hlen := h.inv.data.ring.curSize
  have hmax := h.inv.data.ring.layout.maxSize
  have hst := ImplementsQueue.status_eq_of hpc
  cases at' with
  | test =>
    have heq := Option.some.inj (Option.ite_none_left_eq_some.mp hstep).2
    have hc : ComesTo s s' t (.push k arg (pushTested s.q arg)) := comesTo_goto heq rfl rfl
    obtain rfl := heq
    rw [hc.self]
    by_cases hfull : s.q.curSize = s.q.maxSize
    · cases hwait : arg.shouldWait with
      | true =>
        have hto : pushTested s.q arg = .wait := by rw [pushTested, if_pos hfull, hwait]; rfl
        rw [hto] at hs hc ⊢
        exact h.inside hs hc hfits ⟨rfl, rfl⟩ hst.symm
      | false =>
        have hto : pushTested s.q arg = .refuse := by rw [pushTested, if_pos hfull, hwait]; rfl
        rw [hto] at hs hc ⊢
        have happly : boundedQueue n d a.value (.push arg) = some (⟨-1, none⟩, a.value) := by
          rw [boundedQueue, if_neg hvalid, if_pos (hlen.symm.trans (hfull.trans hmax)), hwait]
          rfl
        exact h.moment hs hc hfits hst happly h.inv.data.history rfl
    · have hto : pushTested s.q arg = .room := if_neg hfull
      rw [hto] at hs hc ⊢
      exact h.inside hs hc hfits ⟨rfl, rfl⟩ hst.symm
  | wait | refuse | room | leave =>
    have hc := comesTo_goto (s := s) (Option.some.inj hstep) rfl rfl
    obtain rfl := Option.some.inj hstep
    rw [hc.self]
    exact h.inside hs hc hfits ⟨rfl, rfl⟩ hst.symm
  | sleep => exact absurd hstep (by simp [pushStep])
  | refuseTail | leaveTail =>
    have hc := comesTo_goto (s := s) (Option.some.inj hstep) rfl rfl
    obtain rfl := Option.some.inj hstep
    rw [hc.self]
    exact h.leaves hs hc ⟨rfl, rfl⟩ hst
  | copy ptr i =>
    unfold pushStep at hstep
    dsimp only at hstep
    split at hstep
    all_goals
      have hc := comesTo_goto (s := s) (Option.some.inj hstep) rfl rfl
      obtain rfl := Option.some.inj hstep
      rw [hc.self]
      exact h.inside hs hc hfits ⟨rfl, rfl⟩ hst.symm
  | count =>
    have heq := Option.some.inj (Option.ite_none_left_eq_some.mp hstep).2
    have hc : ComesTo s s' t (.push k arg .leave) := by
      subst heq
      exact ⟨.inr ⟨.tail, rfl⟩, .inl rfl⟩
    obtain rfl := heq
    obtain ⟨hpend, hroom, -⟩ := hok.2
    have happly : boundedQueue n d a.value (.push arg) =
        some (⟨0, none⟩, a.value ++ [arg.bytes]) := by
      rw [boundedQueue, if_neg hvalid, if_neg (Nat.ne_of_lt hroom)]
    have hels : (s.tailLog.set k (some arg.bytes)).reduceOption = s.popped ++
        (a.value ++ [arg.bytes]) := by
      rw [hpend.reduceOption_set, ← List.append_assoc, ← h.inv.data.history]
      rfl
    rw [hc.self]
    exact h.moment hs hc hfits hst happly hels rfl

/-- A thread takes `head_mutex`. -/
theorem ImplementsQueue.lockHead {arg : Pop} (h : ImplementsQueue n d b s a)
    (hpc : s.pc t = .popStart arg)
    (hfree : s.headMutex = none) (hs : Queue.step s l = some s')
    (heq : s' = { s with headMutex := some t, headLog := s.headLog ++ [none] }.goto t
      (.pop s.headLog.length arg .test)) :
    ∃ b', AtomicTrace (boundedQueue n d) a (returnEvent t none (s'.pc t)) b' ∧
      ImplementsQueue n d b s' b' := by
  have hhead := h.inv.guarded.head
  rw [hfree] at hhead
  have hst : s.status t = .called (.pop arg) := by rw [Machine.status, hpc]; rfl
  have hc : ComesTo s s' t (.pop s.headLog.length arg .test) := by
    subst heq
    exact ⟨.inl rfl, .inr fun u _ => hhead.eq_false u⟩
  subst heq
  rw [hc.self]
  exact h.inside hs hc trivial ⟨rfl, reduceOption_append_none⟩ hst.symm

/-- A call that has not counted its element yet has none. -/
theorem Pending.join {log : List (Option Bytes)} {k : ℕ} (h : Pending log k) :
    (log[k]?).join = none := by
  obtain ⟨l, rfl, rfl⟩ := h
  rw [List.getElem?_append_right (Nat.le_refl _), Nat.sub_self]
  rfl

/-- A call that has counted its element has it. -/
theorem Pending.join_set {log : List (Option Bytes)} {k : ℕ} (h : Pending log k) (e : Bytes) :
    ((log.set k (some e))[k]?).join = some e := by
  obtain ⟨l, rfl, rfl⟩ := h
  rw [List.getElem?_set_self (by rw [List.length_append]; exact Nat.lt_succ_self _)]
  rfl

omit [DecidableEq T] in
/-- The size that is stored in front of the first element. -/
theorem ImplementsQueue.decodeLE_first {e : Bytes} {rest : List Bytes}
    (h : ImplementsQueue n d b s a)
    (hels : a.value = e :: rest) : decodeLE ((image e).take sizeofSizeT) = e.length := by
  have hring := h.inv.data.ring
  have hmem : e ∈ a.value := by rw [hels]; exact List.mem_cons_self
  have hsize := hring.size_le e hmem
  rw [hels] at hring
  exact decodeLE_take_image (hring.size_lt hring.pos hsize)

/-- A step in `queue_pop_common`. -/
theorem ImplementsQueue.pop {k : ℕ} {arg : Pop} {at' : PopAt} (h : ImplementsQueue n d b s a)
    (hpc : s.pc t = .pop k arg at') (hs : Queue.step s l = some s')
    (hstep : popStep s t k arg at' = some s') :
    ∃ b', AtomicTrace (boundedQueue n d) a (returnEvent t (s.headLog[k]?).join (s'.pc t)) b' ∧
      ImplementsQueue n d b s' b' := by
  have hfits := h.inv.fits t
  rw [hpc] at hfits
  have hok := h.inv.data.threads t
  rw [hpc] at hok
  have hlen := h.inv.data.ring.curSize
  have hst := ImplementsQueue.status_eq_of hpc
  cases at' with
  | test =>
    have heq := Option.some.inj (Option.ite_none_left_eq_some.mp hstep).2
    have hc : ComesTo s s' t (.pop k arg (popTested s.q arg)) := comesTo_goto heq rfl rfl
    obtain rfl := heq
    rw [hc.self]
    by_cases hempty : s.q.curSize = 0
    · cases hwait : arg.shouldWait with
      | true =>
        have hto : popTested s.q arg = .wait := by rw [popTested, if_pos hempty, hwait]; rfl
        rw [hto] at hs hc ⊢
        exact h.inside hs hc trivial ⟨rfl, rfl⟩ hst.symm
      | false =>
        have hto : popTested s.q arg = .refuse := by rw [popTested, if_pos hempty, hwait]; rfl
        rw [hto] at hs hc ⊢
        have hnil : a.value = [] := List.eq_nil_of_length_eq_zero (hlen.symm.trans hempty)
        have happly : boundedQueue n d a.value (.pop arg) = some (⟨-1, none⟩, a.value) := by
          rw [hnil, boundedQueue, hwait]
          rfl
        exact h.moment hs hc trivial hst happly h.inv.data.history rfl
    · have hto : popTested s.q arg = .element := if_neg hempty
      rw [hto] at hs hc ⊢
      exact h.inside hs hc trivial ⟨rfl, rfl⟩ hst.symm
  | wait | refuse | element | leave =>
    have hc := comesTo_goto (s := s) (Option.some.inj hstep) rfl rfl
    obtain rfl := Option.some.inj hstep
    rw [hc.self]
    exact h.inside hs hc trivial ⟨rfl, rfl⟩ hst.symm
  | sleep => exact absurd hstep (by simp [popStep])
  | refuseHead | small =>
    have hc := comesTo_goto (s := s) (Option.some.inj hstep) rfl rfl
    obtain rfl := Option.some.inj hstep
    rw [hc.self, hok.1.join]
    exact h.leaves hs hc ⟨rfl, rfl⟩ hst
  | leaveHead =>
    have hc := comesTo_goto (s := s) (Option.some.inj hstep) rfl rfl
    obtain rfl := Option.some.inj hstep
    rw [hc.self]
    exact h.leaves hs hc ⟨rfl, rfl⟩ hst
  | readSize ptr acc =>
    obtain ⟨hpend, -, -, e, he, hle, hacc⟩ := hok
    obtain ⟨rest, hels⟩ := List.head?_eq_some_iff.mp he
    unfold popStep at hstep
    dsimp only at hstep
    split at hstep
    case isTrue hlt =>
      have hc := comesTo_goto (s := s) (Option.some.inj hstep) rfl rfl
      obtain rfl := Option.some.inj hstep
      rw [hc.self]
      exact h.inside hs hc trivial ⟨rfl, rfl⟩ hst.symm
    case isFalse hlt =>
      have hsize : decodeLE acc = e.length := by
        rw [hacc, Nat.le_antisymm hle (Nat.le_of_not_lt hlt), h.decodeLE_first hels]
      split at hstep
      case isTrue hsmall =>
        have hc := comesTo_goto (s := s) (Option.some.inj hstep) rfl rfl
        obtain rfl := Option.some.inj hstep
        rw [hc.self]
        have happly : boundedQueue n d a.value (.pop arg) = some (⟨-1, none⟩, a.value) := by
          rw [hels, boundedQueue, if_pos (hsize ▸ hsmall)]
        exact h.moment hs hc trivial hst happly h.inv.data.history rfl
      case isFalse hbig =>
        have hc := comesTo_goto (s := s) (Option.some.inj hstep) rfl rfl
        obtain rfl := Option.some.inj hstep
        rw [hc.self]
        exact h.inside hs hc (Nat.le_of_not_lt hbig) ⟨rfl, rfl⟩ hst.symm
  | copy ptr elemSz acc =>
    obtain ⟨-, -, -, e, he, hsz, hle, hacc⟩ := hok
    unfold popStep at hstep
    dsimp only at hstep
    split at hstep
    all_goals
      have hc := comesTo_goto (s := s) (Option.some.inj hstep) rfl rfl
      obtain rfl := Option.some.inj hstep
      rw [hc.self]
    · exact h.inside hs hc hfits ⟨rfl, rfl⟩ hst.symm
    · have hcopied : acc.length ≤ arg.dataSize := Nat.le_trans (hle.trans_eq hsz.symm) hfits
      exact h.inside hs hc hcopied ⟨rfl, rfl⟩ hst.symm
  | count bytes =>
    have heq := Option.some.inj (Option.ite_none_left_eq_some.mp hstep).2
    obtain ⟨hpend, -, he⟩ := hok
    obtain ⟨rest, hels⟩ := List.head?_eq_some_iff.mp he
    have hhold : (s.pc t).holdsHead = true := by rw [hpc]; rfl
    have hc : ComesTo s s' t (.pop k arg .leave) := by
      subst heq
      exact ⟨.inr ⟨.head, rfl⟩, .inr fun u hu => holdsHead_of_ne h.inv.guarded hhold hu⟩
    obtain rfl := heq
    have happly : boundedQueue n d a.value (.pop arg) = some (⟨0, some bytes⟩, rest) := by
      rw [hels, boundedQueue, if_neg (Nat.not_lt_of_le hfits)]
    have hrest : s.pushed = (s.headLog.set k (some bytes)).reduceOption ++ rest := by
      rw [hpend.reduceOption_set, List.append_assoc]
      exact h.inv.data.history.trans (congrArg _ hels)
    have hstatus : (Pc.pop k arg .leave).status (s.headLog.set k (some bytes)) =
        .done ⟨0, some bytes⟩ := by
      rw [Pc.status, hpend.join_set]
    rw [hc.self]
    exact h.moment hs hc trivial hst happly hrest hstatus

/-- A spurious wakeup. -/
theorem ImplementsQueue.spurious (h : ImplementsQueue n d b s a)
    (hs : Queue.step s (.spurious t) = some s') :
    ∃ b', AtomicTrace (boundedQueue n d) a [] b' ∧ ImplementsQueue n d b s' b' := by
  have hfits := h.inv.fits t
  obtain ⟨k, arg, hpc, heq⟩ | ⟨k, arg, hpc, heq⟩ := step_spurious hs
  all_goals
    have hst := ImplementsQueue.status_eq_of hpc
    have hc := comesTo_goto (s := s) heq.symm rfl rfl
    subst heq
    rw [hpc] at hfits
    exact h.inside hs hc hfits ⟨rfl, rfl⟩ hst.symm

/-- Every step of the machine. -/
theorem ImplementsQueue.step (h : ImplementsQueue n d b s a) (hs : Queue.step s l = some s') :
    ∃ b', AtomicTrace (boundedQueue n d) a (queueEvents s l s') b' ∧
      ImplementsQueue n d b s' b' := by
  cases l with
  | call t op => exact h.call hs
  | go t =>
    have hgo := step_go hs
    obtain ⟨arg, hpc, -, heq⟩ | ⟨k, arg, at', hpc, hstep⟩ | ⟨arg, hpc, hfree, heq⟩ |
      ⟨k, arg, at', hpc, hstep⟩ := hgo
    all_goals rw [queueEvents, hpc]
    · exact h.lockTail hpc hs heq
    · exact h.push hpc hs hstep
    · exact h.lockHead hpc hfree hs heq
    · exact h.pop hpc hs hstep
  | spurious t => exact h.spurious hs

/-- **The queue is linearizable**: whatever any number of threads call, in whatever order their
steps come, the calls and returns are those of the bounded queue whose operations take effect at one
moment each, and `cur_size` is the number of its elements, which are the ones pushed less the ones
popped. -/
theorem queue_linearizable {pageSize : ℕ} {mem : ℕ → UInt8}
    (hfits : n * (sizeofSizeT + d) < sizeTMod) :
    Linearizable Queue.step (fun _ _ => True) queueEvents (initial T (queueInit pageSize n d mem))
      (boundedQueue n d) []
      fun s els => s.q.curSize = els.length ∧ s.pushed = s.popped ++ els :=
  linearizable_of_simulation (I := QueueInv n d (sizeofQueueT + sizeofQueueT % pageSize))
    ⟨guarded_initial _, data_initial hfits, fun _ => trivial⟩ (fun _ => rfl)
    (fun _ _ _ _ (h : ImplementsQueue n d _ _ _) _ hs => h.step hs) fun _ _ h =>
      ⟨h.data.ring.curSize, h.data.history⟩

/-- One thread pushes an element and is filling the slot of a second one while another thread
pops. -/
theorem queue_linearizable_two_threads :
    ∃ tr, ∃ s : Machine Bool, Trace Queue.step (fun _ _ => True) queueEvents
      (initial Bool (queueInit 4096 2 1 fun _ => 0)) tr s ∧
      (s.popped == [[7]] && (s.pc true).fills.isSome) = true ∧
      ∃ a, AtomicTrace (boundedQueue 2 1) (AtomicObject.fresh Bool Answer []) tr a ∧
        s.q.curSize = a.value.length ∧ s.pushed = s.popped ++ a.value := by
  have hfits : 2 * (sizeofSizeT + 1) < sizeTMod := by decide
  have hrun : ((run (guardedBy (fun _ _ => true) step)
      (initial Bool (queueInit 4096 2 1 fun _ => 0))
      (Label.call true (.push ⟨[7], true⟩) :: List.replicate 16 (Label.go true) ++
        Label.call true (.push ⟨[8], false⟩) :: List.replicate 5 (Label.go true) ++
        Label.call false (.pop ⟨1, true⟩) :: List.replicate 16 (Label.go false))).any fun s =>
          s.popped == [[7]] && (s.pc true).fills.isSome) = true := by decide +kernel
  obtain ⟨s, hs, hp⟩ := (Option.any_eq_true _ _).mp hrun
  obtain ⟨tr, htr⟩ : ∃ tr, Trace step (fun _ _ => True) queueEvents
      (initial Bool (queueInit 4096 2 1 fun _ => 0)) tr s :=
    exists_trace_of_guarded (I := fun _ => True) trivial (fun _ _ _ _ _ _ => ⟨trivial, trivial⟩) hs
  exact ⟨tr, s, htr, hp, queue_linearizable hfits tr s htr⟩

end

end Queue

end CloudTiering
