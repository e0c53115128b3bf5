import CloudTiering.Queue.Capacity

/-!
# `transfer_files_loop` and its two queues

The loop of a transfer thread, byte by byte: one buffer and one size serve two queues, and producers
push between any two steps of it.  An operation on a queue is one step, which is how concurrent
operations on a queue behave.

* `Loop`, `Loop.step`: the queues, the variables of the loop, and what has happened so far.
* `initData`: the queues as `init_data` makes them.
* `Loop.Orderly`: every path that is popped is acted on, whole and in order, an attempt fails only
  on an empty queue, and the secondary queue only has its turn when the primary queue is empty.
* `Loop.Kept`, `Loop.Stage`: the invariant.
* `reach_orderly`: every run is orderly, if the sizes of the queues do not wrap.
-/

namespace CloudTiering

open Foundations Queue

namespace Daemon

/-! ## The loop -/

/-- The two queues of a pair. -/
inductive Which
  | primary | secondary
  deriving DecidableEq

/-- Where the thread stands within an iteration. -/
inductive LoopPhase
  | begin | tryPrimary | trySecondary | act
  deriving DecidableEq

/-- An attempt to pop: the iteration it was made in, whether the queue held no element, and what it
has returned. -/
structure Attempt where
  iteration : ℕ
  which : Which
  wasEmpty : Bool
  ret : Int
  deriving DecidableEq

/-- The state of `transfer_files_loop`: the pair of queues, the local variables, and the history. -/
structure Loop where
  queue : Which → Option QueueT
  path : Bytes
  pathSize : ℕ
  popRes : Int
  phase : LoopPhase
  /-- The number of iterations begun. -/
  iteration : ℕ
  /-- The elements that have been pushed, and how many of them have been popped. -/
  pushed : Which → List Bytes
  popped : Which → ℕ
  /-- The queue of the element in hand. -/
  source : Option Which
  /-- The strings that `action` has been called with. -/
  acted : List (Option Which × Bytes)
  attempts : List Attempt

/-- The elements that a queue holds. -/
def Loop.held (s : Loop) (w : Which) : List Bytes := (s.pushed w).drop (s.popped w)

/-- `queue_try_pop(queue, path, &path_size)`. -/
def Loop.tryPop (s : Loop) (w : Which) (q : QueueT) : Option Loop :=
  (queueTryPop q true true (some s.pathSize)).map fun (r : Result) =>
    { s with
      queue := Function.update s.queue w (some r.queue)
      path := r.data.getD [] ++ s.path.drop (r.data.getD []).length
      pathSize := r.dataSize.getD s.pathSize
      popRes := r.ret
      popped := if r.ret = 0 then Function.update s.popped w (s.popped w + 1) else s.popped
      source := if r.ret = 0 then some w else s.source
      attempts := s.attempts ++ [⟨s.iteration, w, decide (s.held w = []), r.ret⟩] }

/-- The next step of the thread.  `action` may return anything, and the loop goes on. -/
def Loop.advance (pathMax : ℕ) (s : Loop) : Option Loop :=
  match s.phase with
  | .begin => some { s with
      popRes := -1, pathSize := pathMax, phase := .tryPrimary, iteration := s.iteration + 1 }
  | .tryPrimary =>
      match s.queue .primary with
      | some q => (s.tryPop .primary q).map fun s => { s with phase := .trySecondary }
      | none => some { s with phase := .trySecondary }
  | .trySecondary =>
      match s.queue .secondary with
      | some q =>
          if s.popRes = -1 then (s.tryPop .secondary q).map fun s => { s with phase := .act }
          else some { s with phase := .act }
      | none => some { s with phase := .act }
  | .act =>
      if s.popRes = -1 then some { s with phase := .begin }
      else some { s with
        phase := .begin, source := none, acted := s.acted ++ [(s.source, cString s.path)] }

/-- A push of a producer, by `queue_push` or `queue_try_push`: a path with its `'\0'`, and any bytes
behind it. -/
def Loop.push (s : Loop) (w : Which) (data : ℕ → UInt8) (dataSize : ℕ) (shouldWait : Bool) :
    Option Loop :=
  if 0 ∈ bytesAt data dataSize then
    (s.queue w).bind fun q =>
      (queuePushCommon q true (some data) dataSize shouldWait).map fun (r : Result) =>
      { s with
        queue := Function.update s.queue w (some r.queue)
        pushed := if r.ret = 0 then
            Function.update s.pushed w (s.pushed w ++ [bytesAt data dataSize])
          else s.pushed }
  else none

/-- The steps. -/
inductive LoopLabel
  | push (w : Which) (data : ℕ → UInt8) (dataSize : ℕ) (shouldWait : Bool)
  | thread

/-- A step of a producer or of the thread. -/
def Loop.step (pathMax : ℕ) (s : Loop) : LoopLabel → Option Loop
  | .push w data dataSize shouldWait => s.push w data dataSize shouldWait
  | .thread => s.advance pathMax

/-- The queues of a pair, as `init_data` makes them; a queue without a maximum size is `NULL`. -/
def initData (mmap : ℕ → Bool) (pageSize pathMax : ℕ) (maxSize : Which → Option ℕ)
    (mem : Which → ℕ → UInt8) (w : Which) : Option (Option QueueT) :=
  match maxSize w with
  | none => some none
  | some n => (queueInitMapped mmap pageSize n pathMax (mem w)).map fun a => some a.1

/-- The start of `transfer_files_loop` on two queues. -/
def Loop.initial (queue : Which → Option QueueT) (path : Bytes) : Loop :=
  { queue := queue, path := path, pathSize := 0, popRes := -1, phase := .begin, iteration := 0,
    pushed := fun _ => [], popped := fun _ => 0, source := none, acted := [], attempts := [] }

/-! ## What the loop is for -/

/-- The strings from one queue that have been acted on. -/
def Loop.actedFrom (s : Loop) (w : Which) : List Bytes :=
  (s.acted.filter fun a => a.1 = some w).map Prod.snd

/-- The string from a queue that has been popped and is about to be acted on. -/
def Loop.inHand (s : Loop) (w : Which) : List Bytes :=
  if s.source = some w then [cString s.path] else []

/-- An attempt on the primary queue found it empty in this iteration. -/
def Loop.PrimaryEmpty (s : Loop) (iteration : ℕ) : Prop :=
  s.queue .primary = none ∨ (⟨iteration, .primary, true, -1⟩ : Attempt) ∈ s.attempts

/-- **Every path is acted on once, whole and in order.** -/
structure Loop.Orderly (s : Loop) : Prop where
  acted : ∀ w, s.actedFrom w ++ s.inHand w = ((s.pushed w).take (s.popped w)).map cString
  empty : ∀ a ∈ s.attempts, a.ret = -1 → a.wasEmpty = true
  turn : ∀ a ∈ s.attempts, a.which = .secondary → a.ret = 0 → s.PrimaryEmpty a.iteration

/-! ## The invariant -/

/-- What is known of the variables where the thread stands. -/
def Loop.Stage (pathMax : ℕ) (s : Loop) : Prop :=
  match s.phase with
  | .begin => s.source = none
  | .tryPrimary => s.source = none ∧ s.popRes = -1 ∧ s.pathSize = pathMax
  | .trySecondary =>
      (s.source = none ∧ s.popRes = -1 ∧ s.pathSize = pathMax ∧ s.PrimaryEmpty s.iteration) ∨
        (s.source = some .primary ∧ s.popRes = 0)
  | .act => (s.source = none ∧ s.popRes = -1) ∨ (s.source.isSome = true ∧ s.popRes = 0)

/-- The queues hold what has been pushed and not popped, in elements that are paths. -/
structure Loop.Kept (pathMax : ℕ) (s : Loop) : Prop where
  holds : ∀ w q, s.queue w = some q → ∃ n b, Holds n pathMax b q (s.held w)
  counted : ∀ w, s.popped w ≤ (s.pushed w).length
  paths : ∀ w, ∀ e ∈ s.pushed w, 0 ∈ e
  orderly : s.Orderly

section

variable {pathMax : ℕ} {s s' : Loop} {w : Which} {q : QueueT}

/-- The string at the start of a buffer is the string in its front part, if there is a `'\0'`
there. -/
theorem cString_append {e rest : Bytes} (h : 0 ∈ e) : cString (e ++ rest) = cString e := by
  induction e with
  | nil => exact absurd h List.not_mem_nil
  | cons x e ih =>
    by_cases hx : x = 0
    · subst hx
      rfl
    · have he : 0 ∈ e := (List.mem_cons.mp h).resolve_left fun hx' => hx hx'.symm
      show List.takeWhile _ (x :: (e ++ rest)) = List.takeWhile _ (x :: e)
      rw [List.takeWhile_cons_of_pos (by simpa using hx),
        List.takeWhile_cons_of_pos (by simpa using hx)]
      exact congrArg (x :: ·) (ih he)

/-- After an attempt on an empty queue. -/
def Loop.missed (s : Loop) (w : Which) : Loop :=
  { s with popRes := -1, attempts := s.attempts ++ [⟨s.iteration, w, true, -1⟩] }

/-- After an attempt that has yielded the element `e` and left the queue `q`. -/
def Loop.taken (s : Loop) (w : Which) (q : QueueT) (e : Bytes) : Loop :=
  { s with
    queue := Function.update s.queue w (some q)
    path := e ++ s.path.drop e.length
    pathSize := e.length
    popRes := 0
    popped := Function.update s.popped w (s.popped w + 1)
    source := some w
    attempts := s.attempts ++ [⟨s.iteration, w, false, 0⟩] }

/-- What an attempt on a queue does, with a size as large as the elements may be. -/
theorem Loop.tryPop_cases {n b : ℕ} (hq : s.queue w = some q)
    (hholds : Holds n pathMax b q (s.held w))
    (hsize : s.pathSize = pathMax) (h : s.tryPop w q = some s') :
    (s.held w = [] ∧ s' = s.missed w) ∨
    ∃ e rest q', s.held w = e :: rest ∧ Holds n pathMax b q' rest ∧ s' = s.taken w q' e := by
  rw [Loop.tryPop, hsize] at h
  cases hheld : s.held w with
  | nil =>
    rw [hheld] at hholds h
    rw [hholds.tryPop_empty] at h
    obtain rfl := Option.some.inj h
    refine .inl ⟨rfl, ?_⟩
    have hqueue : Function.update s.queue w (some q) = s.queue := by
      rw [← hq, Function.update_eq_self]
    subst hsize
    simp only [hqueue]
    rfl
  | cons e rest =>
    rw [hheld] at hholds h
    have ⟨_, hring, _, _⟩ := hholds
    obtain ⟨q', j, hpop, hq'⟩ := hholds.pop false (hring.size_le e List.mem_cons_self)
    rw [queueTryPop, hpop] at h
    obtain rfl := Option.some.inj h
    exact .inr ⟨e, rest, q', rfl, hq', rfl⟩

/-- What the attempts say about earlier iterations stays true. -/
theorem Loop.PrimaryEmpty.mono {i : ℕ} (h : s.PrimaryEmpty i) (hqueue : s.queue .primary = none →
    s'.queue .primary = none) (hattempts : ∀ a ∈ s.attempts, a ∈ s'.attempts) : s'.PrimaryEmpty i :=
  h.imp hqueue (hattempts _)

/-- A queue that is `NULL` stays `NULL`. -/
theorem update_eq_none {f : Which → Option QueueT} {v : Which} (hq : f w ≠ none) (h : f v = none) :
    Function.update f w (some q) v = none := by
  rw [Function.update_of_ne, h]
  rintro rfl
  exact hq h

theorem Loop.primaryEmpty_taken {e : Bytes} {i : ℕ} (hq : s.queue w ≠ none) (h : s.PrimaryEmpty i) :
    (s.taken w q e).PrimaryEmpty i :=
  h.mono (update_eq_none hq) fun _ ha => List.mem_append_left _ ha

theorem Loop.held_taken_self {e : Bytes} {rest : List Bytes} (h : s.held w = e :: rest) :
    (s.taken w q e).held w = rest := by
  show (s.pushed w).drop (Function.update s.popped w (s.popped w + 1) w) = rest
  rw [Function.update_self, List.drop_add_one_eq_tail_drop,
    show (s.pushed w).drop (s.popped w) = _ from h,
    List.tail_cons]

theorem Loop.held_taken_of_ne {e : Bytes} {v : Which} (h : v ≠ w) :
    (s.taken w q e).held v = s.held v := by
  show (s.pushed v).drop (Function.update s.popped w (s.popped w + 1) v) = _
  rw [Function.update_of_ne h, Loop.held]

/-- A string that is popped is the next one of its queue. -/
theorem take_succ_map {e : Bytes} {rest l : List Bytes} {k : ℕ} (h : l.drop k = e :: rest) :
    (l.take (k + 1)).map cString = (l.take k).map cString ++ [cString e] := by
  have hk : l[k]? = some e := by
    rw [← Nat.add_zero k, ← List.getElem?_drop, h]
    rfl
  rw [List.take_add_one, hk, List.map_append]
  rfl

/-- The strings of a queue with the next one in hand. -/
theorem Loop.acted_taken {e : Bytes} {rest : List Bytes} (hsource : s.source = none)
    (hacted : ∀ v, s.actedFrom v ++ s.inHand v = ((s.pushed v).take (s.popped v)).map cString)
    (hheld : s.held w = e :: rest) (hpath : 0 ∈ e) (v : Which) :
    (s.taken w q e).actedFrom v ++ (s.taken w q e).inHand v =
      (((s.taken w q e).pushed v).take ((s.taken w q e).popped v)).map cString := by
  have hbefore := hacted v
  rw [Loop.inHand, hsource, if_neg (Option.some_ne_none v).symm, List.append_nil] at hbefore
  show s.actedFrom v ++ (if some w = some v then [cString (e ++ s.path.drop e.length)] else []) =
    ((s.pushed v).take (Function.update s.popped w (s.popped w + 1) v)).map cString
  by_cases hvw : v = w
  · subst hvw
    rw [if_pos rfl, Function.update_self, take_succ_map hheld, hbefore, cString_append hpath]
  · rw [if_neg fun heq => hvw (Option.some.inj heq).symm, Function.update_of_ne hvw, hbefore,
      List.append_nil]

/-- **An attempt that finds the queue empty.** -/
theorem Loop.Kept.missed (h : s.Kept pathMax) : (s.missed w).Kept pathMax := by
  refine ⟨h.holds, h.counted, h.paths, h.orderly.acted, ?_, ?_⟩
  · intro a ha hret
    rcases List.mem_append.mp ha with ha | ha
    · exact h.orderly.empty a ha hret
    · rw [List.mem_singleton.mp ha]
  · intro a ha hw hret
    rcases List.mem_append.mp ha with ha | ha
    · exact (h.orderly.turn a ha hw hret).mono id fun a' ha' => List.mem_append_left _ ha'
    · rw [List.mem_singleton.mp ha] at hret
      exact absurd (show (-1 : Int) = 0 from hret) (by decide)

/-- **An attempt that yields an element.** -/
theorem Loop.Kept.taken {n b : ℕ} {q' : QueueT} {e : Bytes} {rest : List Bytes} (h : s.Kept pathMax)
    (hsource : s.source = none) (hturn : w = .secondary → s.PrimaryEmpty s.iteration)
    (hq : s.queue w = some q) (hheld : s.held w = e :: rest) (hq' : Holds n pathMax b q' rest) :
    (s.taken w q' e).Kept pathMax := by
  have hsome : s.queue w ≠ none := by
    rw [hq]
    exact Option.some_ne_none q
  have hpath : 0 ∈ e := by
    refine h.paths w e (List.mem_of_mem_drop (i := s.popped w) ?_)
    rw [show (s.pushed w).drop (s.popped w) = e :: rest from hheld]
    exact List.mem_cons_self
  refine ⟨?_, ?_, h.paths, Loop.acted_taken hsource h.orderly.acted hheld hpath, ?_, ?_⟩
  · intro v q₀ hv
    replace hv : Function.update s.queue w (some q') v = some q₀ := hv
    by_cases hvw : v = w
    · subst hvw
      rw [Function.update_self] at hv
      obtain rfl := Option.some.inj hv
      rw [Loop.held_taken_self hheld]
      exact ⟨n, b, hq'⟩
    · rw [Function.update_of_ne hvw] at hv
      rw [Loop.held_taken_of_ne hvw]
      exact h.holds v q₀ hv
  · intro v
    show Function.update s.popped w (s.popped w + 1) v ≤ (s.pushed v).length
    by_cases hvw : v = w
    · subst hvw
      have hlen := congrArg List.length hheld
      rw [Loop.held, List.length_drop, List.length_cons] at hlen
      rw [Function.update_self]
      omega
    · rw [Function.update_of_ne hvw]
      exact h.counted v
  · intro a ha hret
    rcases List.mem_append.mp ha with ha | ha
    · exact h.orderly.empty a ha hret
    · rw [List.mem_singleton.mp ha] at hret
      exact absurd (show (0 : Int) = -1 from hret) (by decide)
  · intro a ha hw hret
    rcases List.mem_append.mp ha with ha | ha
    · exact Loop.primaryEmpty_taken hsome (h.orderly.turn a ha hw hret)
    · rw [List.mem_singleton.mp ha] at hw ⊢
      exact Loop.primaryEmpty_taken hsome (hturn hw)

/-- After a push of the element `e`, which leaves the queue `q`. -/
def Loop.given (s : Loop) (w : Which) (q : QueueT) (e : Bytes) : Loop :=
  { s with
    queue := Function.update s.queue w (some q)
    pushed := Function.update s.pushed w (s.pushed w ++ [e]) }

/-- What a push does. -/
theorem Loop.push_cases {n b : ℕ} {data : ℕ → UInt8} {dataSize : ℕ} {shouldWait : Bool}
    (hq : s.queue w = some q) (hholds : Holds n pathMax b q (s.held w))
    (h : s.push w data dataSize shouldWait = some s') :
    s' = s ∨ ∃ q', 0 ∈ bytesAt data dataSize ∧
      Holds n pathMax b q' (s.held w ++ [bytesAt data dataSize]) ∧
      s' = s.given w q' (bytesAt data dataSize) := by
  obtain ⟨hnul, hpush⟩ := Option.ite_none_right_eq_some.mp h
  rw [hq] at hpush
  obtain ⟨r, hr, heq⟩ := Option.map_eq_some_iff.mp hpush
  rcases hholds.push_cases hr with ⟨hret, hholds'⟩ | ⟨hret, hqueue⟩
  · rw [if_pos hret] at heq
    exact .inr ⟨r.queue, hnul, hholds', heq.symm⟩
  · rw [if_neg (by rw [hret]; decide), hqueue, ← hq, Function.update_eq_self] at heq
    exact .inl heq.symm

/-- **A push** keeps the books. -/
theorem Loop.Kept.given {n b : ℕ} {q' : QueueT} {e : Bytes} (h : s.Kept pathMax) (hpath : 0 ∈ e)
    (hq : s.queue w = some q) (hq' : Holds n pathMax b q' (s.held w ++ [e])) :
    (s.given w q' e).Kept pathMax := by
  have hsome : s.queue w ≠ none := by
    rw [hq]
    exact Option.some_ne_none q
  have hpushed : ∀ v, (s.given w q' e).pushed v = s.pushed v ∨
      (v = w ∧ (s.given w q' e).pushed v = s.pushed v ++ [e]) := by
    intro v
    by_cases hvw : v = w
    · subst hvw
      exact .inr ⟨rfl, Function.update_self v _ s.pushed⟩
    · exact .inl (Function.update_of_ne hvw _ s.pushed)
  refine ⟨?_, ?_, ?_, ?_, h.orderly.empty, ?_⟩
  · intro v q₀ hv
    replace hv : Function.update s.queue w (some q') v = some q₀ := hv
    show ∃ n b, Holds n pathMax b q₀
      ((Function.update s.pushed w (s.pushed w ++ [e]) v).drop (s.popped v))
    by_cases hvw : v = w
    · subst hvw
      rw [Function.update_self] at hv
      obtain rfl := Option.some.inj hv
      rw [Function.update_self, List.drop_append_of_le_length (h.counted v)]
      exact ⟨n, b, hq'⟩
    · rw [Function.update_of_ne hvw] at hv
      rw [Function.update_of_ne hvw]
      exact h.holds v q₀ hv
  · intro v
    show s.popped v ≤ _
    rcases hpushed v with hv | ⟨-, hv⟩
    · rw [hv]
      exact h.counted v
    · rw [hv, List.length_append]
      exact Nat.le_add_right_of_le (h.counted v)
  · intro v e' he'
    rcases hpushed v with hv | ⟨-, hv⟩
    · rw [hv] at he'
      exact h.paths v e' he'
    · rw [hv] at he'
      rcases List.mem_append.mp he' with he' | he'
      · exact h.paths v e' he'
      · rw [List.mem_singleton.mp he']
        exact hpath
  · intro v
    show s.actedFrom v ++ s.inHand v = (((s.given w q' e).pushed v).take (s.popped v)).map cString
    rcases hpushed v with hv | ⟨-, hv⟩
    · rw [hv]
      exact h.orderly.acted v
    · rw [hv, List.take_append_of_le_length (h.counted v)]
      exact h.orderly.acted v
  · intro a ha hw hret
    exact (h.orderly.turn a ha hw hret).mono (update_eq_none hsome) fun _ ha' => ha'

/-! ## The steps -/

/-- The invariant. -/
def Loop.Sound (pathMax : ℕ) (s : Loop) : Prop := s.Kept pathMax ∧ s.Stage pathMax

/-- An attempt, and what the thread has then. -/
theorem Loop.Kept.tryPop (h : s.Kept pathMax) (hsource : s.source = none)
    (hsize : s.pathSize = pathMax)
    (hturn : w = .secondary → s.PrimaryEmpty s.iteration) (hq : s.queue w = some q)
    (hpop : s.tryPop w q = some s') :
    s'.Kept pathMax ∧ (s' = s.missed w ∨ ∃ q' e, s' = s.taken w q' e) := by
  obtain ⟨n, b, hholds⟩ := h.holds w q hq
  rcases Loop.tryPop_cases hq hholds hsize hpop with ⟨-, rfl⟩ | ⟨e, rest, q', hheld, hq', rfl⟩
  · exact ⟨h.missed, .inl rfl⟩
  · exact ⟨h.taken hsource hturn hq hheld hq', .inr ⟨q', e, rfl⟩⟩

/-- Acting on the string in hand. -/
theorem actedFrom_act (v : Which) :
    (s.acted ++ [(s.source, cString s.path)]).filter (fun a => a.1 = some v) =
      (s.acted.filter fun a => a.1 = some v) ++
        if s.source = some v then [(s.source, cString s.path)] else [] := by
  rw [List.filter_append]
  by_cases hv : s.source = some v
  · rw [if_pos hv, List.filter_cons_of_pos (by simpa using hv), List.filter_nil]
  · rw [if_neg hv, List.filter_cons_of_neg (by simpa using hv), List.filter_nil]

/-- **A step of the thread.** -/
theorem advance_sound (h : s.Sound pathMax) (hs : s.advance pathMax = some s') :
    s'.Sound pathMax := by
  obtain ⟨hkept, hstage⟩ := h
  cases hphase : s.phase with
  | begin =>
    simp only [Loop.advance, hphase] at hs
    simp only [Loop.Stage, hphase] at hstage
    obtain rfl := Option.some.inj hs
    exact ⟨⟨hkept.holds, hkept.counted, hkept.paths, hkept.orderly.1, hkept.orderly.2,
      hkept.orderly.3⟩, hstage, rfl, rfl⟩
  | tryPrimary =>
    simp only [Loop.advance, hphase] at hs
    simp only [Loop.Stage, hphase] at hstage
    obtain ⟨hsource, hres, hsize⟩ := hstage
    cases hq : s.queue .primary with
    | none =>
      simp only [hq] at hs
      obtain rfl := Option.some.inj hs
      exact ⟨⟨hkept.holds, hkept.counted, hkept.paths, hkept.orderly.1, hkept.orderly.2,
        hkept.orderly.3⟩,
        .inl ⟨hsource, hres, hsize, .inl hq⟩⟩
    | some q =>
      simp only [hq] at hs
      obtain ⟨t, ht, rfl⟩ := Option.map_eq_some_iff.mp hs
      obtain ⟨ht', hcases⟩ := hkept.tryPop hsource hsize (fun h => absurd h (by decide)) hq ht
      refine ⟨⟨ht'.holds, ht'.counted, ht'.paths, ht'.orderly.1, ht'.orderly.2, ht'.orderly.3⟩, ?_⟩
      rcases hcases with rfl | ⟨q', e, rfl⟩
      · exact .inl ⟨hsource, rfl, hsize, .inr (List.mem_append_right _ List.mem_cons_self)⟩
      · exact .inr ⟨rfl, rfl⟩
  | trySecondary =>
    simp only [Loop.advance, hphase] at hs
    simp only [Loop.Stage, hphase] at hstage
    have hunchanged : ∀ t, t = { s with phase := .act } →
        ((s.source = none ∧ s.popRes = -1) ∨ (s.source.isSome = true ∧ s.popRes = 0)) →
        t.Sound pathMax := by
      rintro t rfl hstage
      exact ⟨⟨hkept.holds, hkept.counted, hkept.paths, hkept.orderly.1, hkept.orderly.2,
        hkept.orderly.3⟩, hstage⟩
    cases hq : s.queue .secondary with
    | none =>
      simp only [hq] at hs
      refine hunchanged s' (Option.some.inj hs).symm ?_
      rcases hstage with ⟨hsource, hres, -⟩ | ⟨hsource, hres⟩
      · exact .inl ⟨hsource, hres⟩
      · exact .inr ⟨by rw [hsource]; rfl, hres⟩
    | some q =>
      simp only [hq] at hs
      rcases hstage with ⟨hsource, hres, hsize, hempty⟩ | ⟨hsource, hres⟩
      · -- the turn of the secondary queue
        rw [if_pos hres] at hs
        obtain ⟨t, ht, rfl⟩ := Option.map_eq_some_iff.mp hs
        obtain ⟨ht', hcases⟩ := hkept.tryPop hsource hsize (fun _ => hempty) hq ht
        refine ⟨⟨ht'.holds, ht'.counted, ht'.paths, ht'.orderly.1, ht'.orderly.2,
          ht'.orderly.3⟩, ?_⟩
        rcases hcases with rfl | ⟨q', e, rfl⟩
        · exact .inl ⟨hsource, rfl⟩
        · exact .inr ⟨rfl, rfl⟩
      · rw [if_neg (by rw [hres]; decide)] at hs
        exact hunchanged s' (Option.some.inj hs).symm (.inr ⟨by rw [hsource]; rfl, hres⟩)
  | act =>
    simp only [Loop.advance, hphase] at hs
    simp only [Loop.Stage, hphase] at hstage
    rcases hstage with ⟨hsource, hres⟩ | ⟨hsource, hres⟩
    · rw [if_pos hres] at hs
      obtain rfl := Option.some.inj hs
      exact ⟨⟨hkept.holds, hkept.counted, hkept.paths, hkept.orderly.1, hkept.orderly.2,
        hkept.orderly.3⟩, hsource⟩
    · rw [if_neg (by rw [hres]; decide)] at hs
      obtain rfl := Option.some.inj hs
      refine ⟨⟨hkept.holds, hkept.counted, hkept.paths, ?_, hkept.orderly.2, hkept.orderly.3⟩, rfl⟩
      intro v
      rw [← hkept.orderly.acted v, Loop.actedFrom, Loop.actedFrom, actedFrom_act, List.map_append]
      show _ ++ [] = _
      rw [List.append_nil, Loop.inHand]
      by_cases hv : s.source = some v
      · rw [if_pos hv, if_pos hv]
        rfl
      · rw [if_neg hv, if_neg hv]
        rfl

/-- A push does not touch the variables of the thread. -/
theorem Loop.Stage.given {q' : QueueT} {e : Bytes} (h : s.Stage pathMax) (hq : s.queue w ≠ none) :
    (s.given w q' e).Stage pathMax := by
  have hempty : ∀ i, s.PrimaryEmpty i → (s.given w q' e).PrimaryEmpty i := fun i hi =>
    hi.mono (update_eq_none hq) fun _ ha => ha
  cases hphase : s.phase with
  | trySecondary =>
    have hphase' : (s.given w q' e).phase = .trySecondary := hphase
    simp only [Loop.Stage, hphase] at h
    simp only [Loop.Stage, hphase']
    exact h.imp_left fun hi => ⟨hi.1, hi.2.1, hi.2.2.1, hempty _ hi.2.2.2⟩
  | _ =>
    have hphase' := hphase
    simp only [Loop.Stage, hphase] at h
    rw [show s.phase = (s.given w q' e).phase from rfl] at hphase'
    simp only [Loop.Stage, hphase']
    exact h

/-- **Every step.** -/
theorem step_sound {l : LoopLabel} (h : s.Sound pathMax) (hs : s.step pathMax l = some s') :
    s'.Sound pathMax := by
  cases l with
  | thread => exact advance_sound h hs
  | push w data dataSize shouldWait =>
    obtain ⟨q, hq, -⟩ := Option.bind_eq_some_iff.mp (Option.ite_none_right_eq_some.mp hs).2
    obtain ⟨n, b, hholds⟩ := h.1.holds w q hq
    rcases Loop.push_cases hq hholds hs with rfl | ⟨q', hpath, hq', rfl⟩
    · exact h
    · exact ⟨h.1.given hpath hq hq', h.2.given (by rw [hq]; exact Option.some_ne_none q)⟩

end

/-! ## The result -/

/-- No size of the queues is reduced. -/
def NoReduction (pageSize pathMax : ℕ) (maxSize : Which → Option ℕ) : Prop :=
  ∀ w n, maxSize w = some n → unreduced pageSize n pathMax < sizeTMod

section

variable {pageSize pathMax : ℕ} {mmap : ℕ → Bool} {maxSize : Which → Option ℕ}
  {mem : Which → ℕ → UInt8}
  {queue : Which → Option QueueT} {path : Bytes} {s : Loop}

theorem initial_sound (hsize : NoReduction pageSize pathMax maxSize)
    (hinit : ∀ w, initData mmap pageSize pathMax maxSize mem w = some (queue w)) :
    (Loop.initial queue path).Sound pathMax := by
  refine ⟨⟨?_, fun _ => Nat.le_refl _, fun _ e he => absurd he List.not_mem_nil, ⟨fun _ => rfl,
    fun a ha => absurd ha List.not_mem_nil, fun a ha => absurd ha List.not_mem_nil⟩⟩, rfl⟩
  intro w q hq
  have hw := hinit w
  rw [show queue w = some q from hq, initData] at hw
  cases hn : maxSize w with
  | none =>
    rw [hn] at hw
    exact absurd (Option.some.inj hw) (Option.some_ne_none q).symm
  | some n =>
    rw [hn] at hw
    obtain ⟨a, ha, heq⟩ := Option.map_eq_some_iff.mp hw
    obtain ⟨-, ha⟩ := Option.ite_none_right_eq_some.mp ha
    obtain rfl := Option.some.inj ha
    obtain rfl := Option.some.inj heq
    exact ⟨n, _, holds_queueInit (totalSizeAligned_of_unreduced (hsize w n hn)).1⟩

/-- **The transfer loop is orderly**, in every run with producers, on queues whose sizes do not
wrap. -/
theorem reach_orderly (hsize : NoReduction pageSize pathMax maxSize)
    (hinit : ∀ w, initData mmap pageSize pathMax maxSize mem w = some (queue w))
    (h : Reach (Loop.step pathMax) (fun _ _ => True) (Loop.initial queue path) s) : s.Orderly :=
  (h.invariant (I := Loop.Sound pathMax) (initial_sound hsize hinit)
    fun _ _ _ hI _ hs => step_sound hI hs).1.orderly

end

/-- The bytes of a path of one letter, with its `'\0'`. -/
def letter (c : UInt8) (i : ℕ) : UInt8 := if i = 0 then c else 0

/-- The primary queue of a pair without a secondary one. -/
def onlyPrimary (n : ℕ) : Which → Option ℕ
  | .primary => some n
  | .secondary => none

/-- The queues of such a pair. -/
def primaryQueue (n pathMax : ℕ) (w : Which) : Option QueueT :=
  (onlyPrimary n w).map fun n => queueInit 4096 n pathMax fun _ => 0

theorem initData_onlyPrimary {n pathMax : ℕ}
    (hmap : mmapBelow (totalSizeAligned 4096 n pathMax) = true)
    (w : Which) :
    initData mmapBelow 4096 pathMax (onlyPrimary n)
      (fun _ _ => 0) w = some (primaryQueue n pathMax w) := by
  cases w with
  | primary =>
    show Option.map _ (queueInitMapped mmapBelow 4096 n pathMax fun _ => 0) = _
    rw [queueInitMapped, if_pos hmap]
    rfl
  | secondary => rfl

/-- Two paths are pushed, and one of them is acted on. -/
theorem orderly_two :
    ∃ s, Reach (Loop.step 8) (fun _ _ => True)
      (Loop.initial (primaryQueue 2 8) (List.replicate 8 7)) s ∧
      s.actedFrom .primary = [[97]] ∧ s.Orderly := by
  have hrun : ((run (Loop.step 8) (Loop.initial (primaryQueue 2 8) (List.replicate 8 7))
      [.push .primary (letter 97) 2 true, .thread, .push .primary (letter 98) 3 false,
        .thread, .thread,
        .thread]).any fun s => decide (s.actedFrom .primary = [[97]])) = true := by
    decide +kernel
  obtain ⟨s, hs, hacted⟩ := Reach.exists_of_run (fun _ _ _ => trivial) hrun
  have hsize : NoReduction 4096 8 (onlyPrimary 2) := by
    intro w n hn
    cases w with
    | primary =>
      obtain rfl := Option.some.inj hn
      decide
    | secondary => exact absurd hn.symm (Option.some_ne_none n)
  exact ⟨s, hs, of_decide_eq_true hacted, reach_orderly hsize (initData_onlyPrimary (by decide)) hs⟩

/-- **A lost path**: the queue is for `2 ^ 60 + 2` elements, but its buffer has `32` bytes. -/
theorem not_orderly_reduced :
    ¬ ∀ (queue : Which → Option QueueT) (path : Bytes) (s : Loop),
      (∀ w, initData mmapBelow 4096 8 (onlyPrimary (2 ^ 60 + 2)) (fun _ _ => 0) w =
        some (queue w)) →
      Reach (Loop.step 8) (fun _ _ => True) (Loop.initial queue path) s → s.Orderly := by
  intro hall
  have hrun : ((run (Loop.step 8) (Loop.initial (primaryQueue (2 ^ 60 + 2) 8) (List.replicate 8 7))
      [.push .primary (letter 97) 2 true, .push .primary (letter 98) 2 true,
        .push .primary (letter 99) 2 true, .thread, .thread, .thread, .thread]).any fun s =>
      decide (s.actedFrom .primary ++ s.inHand .primary ≠
        ((s.pushed .primary).take (s.popped .primary)).map cString)) = true := by
    decide +kernel
  obtain ⟨s, hs, hne⟩ := Reach.exists_of_run (fun _ _ _ => trivial) hrun
  exact of_decide_eq_true hne ((hall _ _ s (initData_onlyPrimary (by decide)) hs).acted .primary)

end Daemon

end CloudTiering
