import CloudTiering.Concurrency.Requests
import CloudTiering.Foundations.Fairness

/-!
# Every wait comes to an end

A client in `poll_file_location` looks again and again, and the download thread takes one request
after the other.  If both go on, and the upload thread leaves the file alone, then the client gets
its descriptor: the request of the client comes forward in the queue, is taken out and served, and
then the client looks once more.

* `LeavesAlone`: the condition on a run.
* `requestRank`: how far the download thread is from removing the stub attribute.
* `Waits`, `GotDescriptor`: the client.
* `wait_ends`: every wait comes to an end, whatever the other clients do.
-/

namespace CloudTiering

open Foundations App

namespace Concurrency

variable {C : Type}

/-- A step of the system. -/
abbrev PartyLabel (C : Type) := ThreadSystem.Label (Party C) Choice Work Empty

/-- **The condition**: the upload thread does not mark file `f` as remote, and the download thread
does not find it locked. -/
def LeavesAlone (f : ℕ) (s : PartyState (Party C)) : PartyLabel C → Prop
  | .answer .uploader _ => ∀ fd, s.mons .uploader = .named fd → fd.ino ≠ f
  | .answer .downloader _ => ∀ fd, s.mons .downloader = .locking false fd → fd.ino = f →
    s.world.isLocked f = false
  | _ => True

/-! ## The download thread -/

instance (w : World) (f : ℕ) (p : Phase) : Decidable (p.fetching w f) :=
  match p with
  | .starting _ path => inferInstanceAs (Decidable (w.names path = some f))
  | .locking _ fd | .checking _ fd | .asking fd | .loading fd =>
      inferInstanceAs (Decidable (fd.ino = f))
  | .outside | .popping _ | .storing _ | .named _ | .unnaming _ | .stubbed _ | .unstubbed _
  | .unlocking _
  | .closing _ | .entering .. | .looking .. | .clearing _ | .clearingId _ | .scheduling ..
  | .polling .. =>
      inferInstanceAs (Decidable False)

/-- A request for file `f`, as a test. -/
def isRequestFor (w : World) (f : ℕ) (data : Bytes) : Bool := w.names (cString data) = some f

/-- How far an iteration of the download thread is: about to look into the queue, over, or behind
that look. -/
def turn (t : Thread Call Rep Outcome Phase) : ℕ :=
  match t.prog, t.mon with
  | .call .., .popping _ => 0
  | .ret _, _ => 1
  | .call .., _ => 2

/-- How far the download thread is from removing the stub attribute of file `f`: how many requests
come before the first one for `f`, how far the iteration is, and what is left of it. -/
def requestRank (f : ℕ) (s : PartyState (Party C)) : ℕ × ℕ × Sys Outcome :=
  let t := s.thread .downloader
  if t.mon.fetching s.world f then (0, 0, t.prog)
  else (s.world.requests.findIdx (isRequestFor s.world f) + 1, turn t, t.prog)

/-- The order of the ranks. -/
def rankLt : ℕ × ℕ × Sys Outcome → ℕ × ℕ × Sys Outcome → Prop :=
  Prod.Lex (· < ·) (Prod.Lex (· < ·) Prog.Rest)

theorem wellFounded_rankLt : WellFounded rankLt :=
  WellFounded.prod_lex Nat.lt_wfRel.wf (WellFounded.prod_lex Nat.lt_wfRel.wf Prog.wellFounded_rest)

section

variable {s s' : PartyState (Party C)} {f : ℕ}

theorem requestRank_of_fetching (h : (s.thread .downloader).mon.fetching s.world f) :
    requestRank f s = (0, 0, (s.thread .downloader).prog) := if_pos h

theorem requestRank_of_not_fetching (h : ¬ (s.thread .downloader).mon.fetching s.world f) :
    requestRank f s = (s.world.requests.findIdx (isRequestFor s.world f) + 1,
      turn (s.thread .downloader),
      (s.thread .downloader).prog) := if_neg h

/-- To be on the way to the stub attribute is further than to wait for the request. -/
theorem rankLt_of_fetching (h : ¬ (s.thread .downloader).mon.fetching s.world f)
    (h' : (s'.thread .downloader).mon.fetching s'.world f) :
    rankLt (requestRank f s') (requestRank f s) := by
  rw [requestRank_of_fetching h', requestRank_of_not_fetching h]
  exact .left _ _ (Nat.succ_pos _)

/-- More names and more requests do not move the first request for `f` back. -/
theorem findIdx_grows {w w' : World} (h : Requested w f) (hw : Grows w w') :
    w'.requests.findIdx (isRequestFor w' f) ≤ w.requests.findIdx (isRequestFor w f) := by
  obtain ⟨more, hmore⟩ := hw.requests
  rw [← hmore]
  refine findIdx_append_le more (fun data hdata => ?_) ?_
  · exact decide_eq_true (hw.names _ _ (of_decide_eq_true hdata))
  · obtain ⟨data, hdata, hname⟩ := h
    exact ⟨data, hdata, decide_eq_true hname⟩

/-- A step of another thread. -/
theorem requestRank_other (h : Requested s.world f ∨ (s.thread .downloader).mon.fetching s.world f)
    (hthread : s'.thread .downloader = s.thread .downloader) (hw : Grows s.world s'.world) :
    rankLt (requestRank f s') (requestRank f s) ∨ requestRank f s' = requestRank f s := by
  by_cases hf : (s.thread .downloader).mon.fetching s.world f
  · have hf' : (s'.thread .downloader).mon.fetching s'.world f := by
      rw [hthread]
      exact Phase.fetching_keep hf hw.keeps
    rw [requestRank_of_fetching hf, requestRank_of_fetching hf', hthread]
    exact .inr rfl
  by_cases hf' : (s'.thread .downloader).mon.fetching s'.world f
  · exact .inl (rankLt_of_fetching hf hf')
  rw [requestRank_of_not_fetching hf, requestRank_of_not_fetching hf', hthread]
  rcases Nat.lt_or_eq_of_le (findIdx_grows (h.resolve_right hf) hw) with hlt | heq
  · exact .inl (.left _ _ (Nat.succ_lt_succ hlt))
  · exact .inr (by rw [heq])

/-- A thread whose work has ended is not about to look into the queue. -/
theorem Outcome.At.ne_popping {a : Outcome} {p : Phase} (ha : a.At p) (secondary : Option Bytes) :
    p ≠ .popping secondary := by
  rintro rfl
  cases a with
  | transferred ret => exact absurd (show Phase.popping secondary = .outside from ha) (by simp)
  | opened opening vars =>
    obtain ⟨pid, hp⟩ := ha
    cases opening with
    | done ret =>
      rcases hp with hp | ⟨fd, flags, hp⟩
      · exact absurd hp (by simp)
      · exact absurd hp (by simp)
    | polling fd flags =>
      exact absurd (show Phase.popping secondary = .polling pid fd flags from hp) (by simp)

theorem turn_call {c : Call} {g : Rep c → Sys Outcome} {p : Phase}
    (hp : ∀ secondary, p ≠ .popping secondary) :
    turn ⟨.call c g, p⟩ = 2 := by
  cases p with
  | popping secondary => exact absurd rfl (hp secondary)
  | _ => rfl

/-- The download thread looks into the queue once in an iteration. -/
theorem ne_popping_of_next {c : Call} {p : Phase}
    (hruns : (Party.downloader : Party C).runs p = true)
    (hp : ∀ secondary, p ≠ .popping secondary) (r : Rep c) (secondary : Option Bytes) :
    p.next c r ≠ .popping secondary := by
  cases p with
  | popping secondary => exact absurd rfl (hp secondary)
  | starting up path | locking up fd =>
    unfold Phase.next
    dsimp only
    split <;> simp
  | checking up fd =>
    unfold Phase.next
    dsimp only
    split <;> split <;> simp
  | asking fd | loading fd =>
    unfold Phase.next
    dsimp only
    split <;> simp
  | outside | unstubbed fd | unlocking fd | closing fd => simp [Phase.next]
  | _ => exact absurd hruns Bool.false_ne_true

section

variable [DecidableEq C] {c : Call} {g : Rep c → Sys Outcome} {p : Phase} {w : World} {r : Rep c}
  {ch : Choice}

/-- The download thread starts an iteration. -/
theorem requestRank_start {a : Outcome} {secondary : Option Bytes} {prog : Sys Outcome}
    (hret : (s.thread .downloader).prog = .ret a) (ha : a.At (s.thread .downloader).mon)
    (hwp : prog.wp phaseCalls Outcome.At (.popping secondary)) :
    rankLt (requestRank f (s.set s.world .downloader ⟨prog, .popping secondary⟩))
      (requestRank f s) := by
  have hself : (s.set s.world .downloader ⟨prog, .popping secondary⟩).thread .downloader =
      ⟨prog, .popping secondary⟩ :=
    s.thread_set_self _ _ _
  rw [requestRank_of_not_fetching fun h => ha.not_fetching h,
    requestRank_of_not_fetching (by rw [hself]; exact id), hself]
  refine .right _ (.left _ _ ?_)
  have hturn : turn (s.thread .downloader) = 1 := by rw [turn, hret]
  rw [hturn]
  cases prog with
  | ret b => exact absurd rfl ((show b.At (.popping secondary) from hwp).ne_popping secondary)
  | call c g => exact Nat.one_pos

/-- The download thread takes a request out of the queue. -/
theorem requestRank_pop {secondary r : Option Bytes} (prog : Sys Outcome)
    (hreq : Requested s.world f)
    (hp : (s.thread .downloader).mon = .popping secondary)
    (he : exec s.world ch .queueTryPop = some (r, w)) :
    rankLt (requestRank f
      (s.set w .downloader ⟨prog, (Phase.popping secondary).next .queueTryPop r⟩))
      (requestRank f s) := by
  have hnot : ¬ (s.thread .downloader).mon.fetching s.world f := by
    rw [hp]
    exact id
  obtain ⟨data, hdata, hname⟩ := hreq
  rcases exec_queueTryPop he with ⟨hnil, -, -⟩ | ⟨d, rs, hcons, rfl, rfl⟩
  · rw [hnil] at hdata
    exact absurd hdata List.not_mem_nil
  · by_cases hd : s.world.names (cString d) = some f
    · refine rankLt_of_fetching hnot ?_
      rw [s.thread_set_self]
      exact hd
    · rw [requestRank_of_not_fetching hnot, requestRank_of_not_fetching]
      · refine .left _ _ (Nat.succ_lt_succ ?_)
        rw [hcons, List.findIdx_cons, isRequestFor, decide_eq_false hd]
        exact Nat.lt_succ_self _
      · rw [s.thread_set_self]
        exact hd

/-- Any other call of the download thread that is not on its way to the stub attribute. -/
theorem requestRank_call (hreq : Requested s.world f)
    (hprog : (s.thread .downloader).prog = .call c g)
    (hnot : ¬ (s.thread .downloader).mon.fetching s.world f)
    (hp : ∀ secondary, (s.thread .downloader).mon ≠ .popping secondary)
    (hp' : ∀ secondary, p ≠ .popping secondary) (hw : Grows s.world w) :
    rankLt (requestRank f (s.set w .downloader ⟨g r, p⟩)) (requestRank f s) := by
  have hself : (s.set w .downloader ⟨g r, p⟩).thread .downloader = ⟨g r, p⟩ :=
    s.thread_set_self _ _ _
  by_cases hf' : p.fetching w f
  · exact rankLt_of_fetching hnot (by rw [hself]; exact hf')
  rw [requestRank_of_not_fetching hnot,
    requestRank_of_not_fetching (by rw [hself]; exact hf'), hself]
  rcases Nat.lt_or_eq_of_le (findIdx_grows hreq hw) with hlt | heq
  · exact .left _ _ (Nat.succ_lt_succ hlt)
  have hturn : turn (s.thread .downloader) = 2 := by
    have h := turn_call (g := g) hp
    rwa [← hprog] at h
  show rankLt (w.requests.findIdx (isRequestFor w f) + 1, _) _
  rw [heq, hturn, hprog]
  refine .right _ ?_
  have hrest : Prog.Rest (g r) (.call c g) := .answered c g r
  cases hg : g r with
  | ret b => exact .left _ _ (Nat.lt_succ_self 1)
  | call c' g' =>
    rw [turn_call hp', ← hg]
    exact .right _ hrest

/-- A call on the way to the stub attribute. -/
theorem requestRank_fetching (hprog : (s.thread .downloader).prog = .call c g)
    (hf : (s.thread .downloader).mon.fetching s.world f) (hf' : p.fetching w f) :
    rankLt (requestRank f (s.set w .downloader ⟨g r, p⟩)) (requestRank f s) := by
  have hself : (s.set w .downloader ⟨g r, p⟩).thread .downloader = ⟨g r, p⟩ :=
    s.thread_set_self _ _ _
  rw [requestRank_of_fetching hf, requestRank_of_fetching (by rw [hself]; exact hf'), hself, hprog]
  exact .right _ (.right _ (.answered c g r))

end

section

variable [DecidableEq C] {retries : Int} {l : PartyLabel C}

/-- What holds in every state of a run that keeps serving. -/
structure Serving (s : PartyState (Party C)) : Prop where
  requests : RequestInv s.world s.mons
  checked : ThreadSystem.Checked phaseCalls Outcome.At s

theorem reach_serving {w : World}
    (h : Reach (requestSystem C retries).step KeepsServing (partiesAtRest (Party C) w) s) :
    Serving s := by
  obtain ⟨hinv, hchecked⟩ := Parties.reach_inv (I := RequestInv)
    (fun _ _ _ _ _ he => (execOk_eq_some (execServed_eq_some he).1).2.2) h
    ⟨fun t => by cases t <;> rfl, fun f ⟨c, pid, fd, flags, hp, _⟩ => absurd hp (by simp)⟩
    (fun s t k c f r w hI hP _ hpre he =>
      hI.answer hpre he (by rintro rfl; exact hP) (by rintro rfl; exact hP)
      (by rintro c rfl; exact hP))
    fun s t work a hI _ hwork ha =>
      hI.keep (Party.runs_start (hI.runs t) hwork) (keeps_of_eq rfl rfl) (fun _ hi => hi)
      (fun pid fd flags hp => work.polling_of_start hp)
      (by rintro rfl f - - hd; exact (ha.not_fetching hd).elim)
  exact ⟨hinv, hchecked⟩

/-- The other threads take no request out of the queue. -/
theorem Serving.grows (h : Serving s) (hl : (requestSystem C retries).step s l = some s')
    (ht : l.thread ≠ some .downloader) : Grows s.world s'.world := by
  cases l with
  | start t work =>
    obtain ⟨a, p, m, -, -, rfl⟩ := ThreadSystem.step_start hl
    exact grows_of_eq rfl rfl
  | answer t k =>
    obtain ⟨c, g, r, w, hp, he, rfl⟩ := ThreadSystem.step_answer hl
    have hpre := h.checked t
    rw [hp] at hpre
    refine exec_grows ?_ (execOk_eq_some (execServed_eq_some he).1).2.1
    rintro rfl
    obtain ⟨secondary, hpopping⟩ := popping_of_expects hpre.1
    have hruns := h.requests.runs t
    rw [show s.mons t = .popping secondary from hpopping] at hruns
    cases t with
    | downloader => exact ht rfl
    | uploader | client => exact Bool.false_ne_true hruns
  | env e => exact e.elim

/-- **A step of the download thread.** -/
theorem Serving.rank_downloader (h : Serving s) (hl : (requestSystem C retries).step s l = some s')
    (ht : l.thread = some .downloader) (hleft : LeavesAlone f s l)
    (hserved : Requested s.world f ∨ (s.mons .downloader).fetching s.world f)
    (hstub : (s'.world.inode f).stub.isSome = true) :
    rankLt (requestRank f s') (requestRank f s) := by
  have hruns := h.requests.runs .downloader
  cases l with
  | start t work =>
    obtain rfl := Option.some.inj ht
    obtain ⟨a, prog, p, hret, hnext, rfl⟩ := ThreadSystem.step_start hl
    have ha := h.checked .downloader
    rw [hret] at ha
    obtain ⟨hwork, hprog⟩ := Option.ite_none_right_eq_some.mp hnext
    obtain ⟨hwp, rfl⟩ := wp_program ha hprog
    cases work with
    | downloadRoutine secondary => exact requestRank_start hret ha hwp
    | uploadRoutine | openFile | poll => exact absurd hwork Bool.false_ne_true
  | answer t k =>
    obtain rfl := Option.some.inj ht
    obtain ⟨c, g, r, w, hprog, he, rfl⟩ := ThreadSystem.step_answer hl
    have hexec := (execOk_eq_some (execServed_eq_some he).1).2.1
    have hpre := h.checked .downloader
    rw [hprog] at hpre
    have hpre : (s.mons .downloader).expects c := hpre.1
    by_cases hf : (s.mons .downloader).fetching s.world f
    · refine requestRank_fetching hprog hf ?_
      refine (fetching_or_refused hpre hruns he hstub hf).resolve_left ?_
      rintro ⟨fd, hlocking, rfl, hset⟩
      rw [hleft fd hlocking rfl] at hset
      exact Bool.false_ne_true hset
    by_cases hpopping : ∃ secondary, s.mons .downloader = .popping secondary
    · obtain ⟨secondary, hp⟩ := hpopping
      rw [hp] at hpre
      obtain rfl : c = .queueTryPop := hpre
      have hrank := requestRank_pop (g r) (hserved.resolve_right hf) hp hexec
      rwa [← hp] at hrank
    · have hp : ∀ secondary, s.mons .downloader ≠ .popping secondary := fun secondary hp =>
        hpopping ⟨secondary, hp⟩
      refine requestRank_call (hserved.resolve_right hf) hprog hf hp
        (ne_popping_of_next hruns hp r) ?_
      refine exec_grows ?_ hexec
      rintro rfl
      exact hpopping (popping_of_expects hpre)
  | env e => exact e.elim

/-- **A step on the way to the stub attribute.** -/
theorem Serving.rank_step (h : Serving s) (hl : (requestSystem C retries).step s l = some s')
    (hleft : LeavesAlone f s l)
    (hserved : Requested s.world f ∨ (s.mons .downloader).fetching s.world f)
    (hstub : (s'.world.inode f).stub.isSome = true) :
    rankLt (requestRank f s') (requestRank f s) ∨
      requestRank f s' = requestRank f s ∧ l.thread ≠ some .downloader := by
  by_cases ht : l.thread = some .downloader
  · exact .inl (h.rank_downloader hl ht hleft hserved hstub)
  · exact (requestRank_other hserved (ThreadSystem.thread_of_step hl ht) (h.grows hl ht)).imp_right
      fun heq => ⟨heq, ht⟩

end

/-! ## The client -/

/-- One iteration of `poll_file_location`. -/
def pollOnce (fd : Fd) (flags : ℕ) (vars : Client.Vars) : Sys Outcome := do
  return .opened (← Client.pollFileLocation fd flags) vars

/-- The client is in the loop of `poll_file_location`, between two iterations or in one. -/
structure Waits (c : C) (fd : Fd) (flags : ℕ) (vars : Client.Vars) (s : PartyState (Party C)) :
    Prop where
  phase : ∃ pid, s.mons (.client c) = .polling pid fd flags
  prog : (s.thread (.client c)).prog = .ret (.opened (.polling fd flags) vars) ∨
    (s.thread (.client c)).prog = pollOnce fd flags vars

/-- The call of `open` has returned the descriptor. -/
def GotDescriptor (c : C) (fd : Fd) (vars : Client.Vars) (s : PartyState (Party C)) : Prop :=
  (s.thread (.client c)).prog = .ret (.opened (.done (.ok fd)) vars)

section

variable [DecidableEq C] {retries : Int} {l : PartyLabel C} {c : C} {fd : Fd} {flags : ℕ}
  {vars : Client.Vars}

/-- One look: the client waits on, or it gets the descriptor. -/
theorem pollOnce_answer (pid : ℕ) {w w' : World} {ch : Choice} {a : Call} {r : Rep a}
    {g : Rep a → Sys Outcome}
    (hp : pollOnce fd flags vars = .call a g) (he : execServed w ch a = some (r, w')) :
    ((w.inode fd.ino).stub.isSome = true ∧ g r = .ret (.opened (.polling fd flags) vars) ∧
        (Phase.polling pid fd flags).next a r = .polling pid fd flags) ∨
      (w.inode fd.ino).stub = none ∧ g r = .ret (.opened (.done (.ok fd)) vars) := by
  obtain ⟨hok, -⟩ := execServed_eq_some he
  unfold pollOnce Client.pollFileLocation Client.isLocalFile at hp
  split at hp
  · obtain ⟨rfl, hg⟩ := Prog.call.inj hp
    obtain rfl := eq_of_heq hg
    obtain ⟨hch, hexec, -⟩ := execOk_eq_some hok
    obtain ⟨rfl, -⟩ := attempt_carriedOut hexec hch
    rcases exec_fsetxattr_replace hexec with ⟨rfl, hset, -⟩ | ⟨e, rfl, -, hnone⟩
    · exact .inl ⟨hset, rfl, rfl⟩
    · obtain ⟨rfl, hstub⟩ := hnone rfl
      exact .inr ⟨hstub, rfl⟩
  · obtain ⟨rfl, hg⟩ := Prog.call.inj hp
    obtain rfl := eq_of_heq hg
    obtain ⟨-, ⟨v, rfl, hset⟩ | ⟨rfl, hstub⟩⟩ := execOk_check hok
    · exact .inl ⟨hset, rfl, rfl⟩
    · exact .inr ⟨hstub, rfl⟩

/-- An iteration has to make a call. -/
theorem result_pollOnce : (pollOnce fd flags vars).result = none := by
  unfold pollOnce Client.pollFileLocation Client.isLocalFile
  split <;> rfl

/-- The only work of a client that waits is to look once more. -/
theorem poll_of_waiting {work : Work} {ops : Ops} {p : Phase} {x : Sys Outcome × Phase}
    (h : work.program ops (.opened (.polling fd flags) vars) p = some x) :
    x = (pollOnce fd flags vars, p) := by
  cases work with
  | poll => exact (Option.some.inj h).symm
  | uploadRoutine | downloadRoutine | openFile => exact absurd h.symm (Option.some_ne_none x)

/-- How far the client is from its next look. -/
def lookRank (c : C) (s : PartyState (Party C)) : ℕ :=
  match (s.thread (.client c)).prog with
  | .call .. => 0
  | .ret _ => 1

/-- **A step while the client waits.**  If the file is local, the client comes closer to its next
look, or another thread moves. -/
theorem Waits.step (h : Waits c fd flags vars s)
    (hl : (requestSystem C retries).step s l = some s') :
    (Waits c fd flags vars s' ∧ ((s.world.inode fd.ino).stub = none →
        lookRank c s' < lookRank c s ∨
          lookRank c s' = lookRank c s ∧ l.thread ≠ some (.client c))) ∨
      GotDescriptor c fd vars s' ∧ (s.world.inode fd.ino).stub = none := by
  obtain ⟨⟨pid, hpid⟩, hprog⟩ := h
  by_cases ht : l.thread = some (.client c)
  · cases l with
    | start t work =>
      obtain rfl := Option.some.inj ht
      obtain ⟨a, prog, p, hret, hnext, rfl⟩ := ThreadSystem.step_start hl
      obtain ⟨-, hwork⟩ := Option.ite_none_right_eq_some.mp hnext
      rcases hprog with hprog | hprog
      · obtain rfl := Prog.ret.inj (hret.symm.trans hprog)
        obtain ⟨rfl, rfl⟩ := Prod.mk.inj (poll_of_waiting hwork)
        refine .inl ⟨⟨⟨pid, ?_⟩, .inr ?_⟩, fun _ => .inl ?_⟩
        · rw [ThreadSystem.State.mons_set, Function.update_self]
          exact hpid
        · rw [s.thread_set_self]
        · rw [lookRank, lookRank, s.thread_set_self, hprog]
          dsimp only
          cases hpoll : pollOnce fd flags vars with
          | call a g => exact Nat.one_pos
          | ret a =>
            exact absurd (result_pollOnce.symm.trans (congrArg Prog.result hpoll))
              (Option.some_ne_none a).symm
      · have hresult : (pollOnce fd flags vars).result = some a :=
          congrArg Prog.result (hprog.symm.trans hret)
        exact absurd (result_pollOnce.symm.trans hresult) (Option.some_ne_none a).symm
    | answer t k =>
      obtain rfl := Option.some.inj ht
      obtain ⟨a, g, r, w, hcall, he, rfl⟩ := ThreadSystem.step_answer hl
      rcases hprog with hprog | hprog
      · exact nomatch hcall.symm.trans hprog
      · rcases pollOnce_answer pid (hprog.symm.trans hcall) he with ⟨hset, hg, hnext⟩ | ⟨hstub, hg⟩
        · refine .inl ⟨⟨⟨pid, ?_⟩, .inl ?_⟩, fun hstub => ?_⟩
          · rw [ThreadSystem.State.mons_set, Function.update_self]
            show (s.mons (.client c)).next a r = _
            rw [hpid]
            exact hnext
          · rw [s.thread_set_self]
            exact hg
          · rw [hstub] at hset
            exact absurd hset Bool.false_ne_true
        · refine .inr ⟨?_, hstub⟩
          rw [GotDescriptor, s.thread_set_self]
          exact hg
    | env e => exact e.elim
  · have hthread := ThreadSystem.thread_of_step hl ht
    have hmon : s'.mons (.client c) = s.mons (.client c) := congrArg Thread.mon hthread
    refine .inl ⟨⟨⟨pid, hmon.trans hpid⟩, ?_⟩, fun _ => .inr ⟨?_, ht⟩⟩
    · rw [hthread]
      exact hprog
    · rw [lookRank, lookRank, hthread]

end

/-! ## Endless runs -/

section

variable [DecidableEq C] {retries : Int} {l : PartyLabel C} {c : C} {fd : Fd} {flags : ℕ}
  {vars : Client.Vars}

/-- A file that is left alone stays local. -/
theorem Serving.stays_local (h : Serving s) (hl : (requestSystem C retries).step s l = some s')
    (hleft : LeavesAlone f s l) (hstub : (s.world.inode f).stub = none) :
    (s'.world.inode f).stub = none := by
  cases l with
  | start t work =>
    obtain ⟨a, p, m, -, -, rfl⟩ := ThreadSystem.step_start hl
    exact hstub
  | answer t k =>
    obtain ⟨a, g, r, w, hp, he, rfl⟩ := ThreadSystem.step_answer hl
    have hexec := (execOk_eq_some (execServed_eq_some he).1).2.1
    have hpre := h.checked t
    rw [hp] at hpre
    have hpre : (s.mons t).expects a := hpre.1
    by_cases hnamed : ∃ fd, s.mons t = .named fd
    · obtain ⟨fd, hfd⟩ := hnamed
      have hruns := h.requests.runs t
      rw [hfd] at hruns hpre
      obtain rfl : a = .fsetxattr fd .stub [] .create := hpre
      cases t with
      | uploader =>
        have hne : f ≠ fd.ino := (hleft fd hfd).symm
        rcases exec_fsetxattr_create hexec with ⟨-, -, rfl⟩ | ⟨e, -, rfl, -⟩
        · exact (congrArg Inode.stub (World.inode_update_of_ne _ _ hne)).trans hstub
        · exact hstub
      | downloader | client => exact absurd hruns Bool.false_ne_true
    · by_contra hne
      have hsome := stub_of_exec hpre (fun fd hfd => hnamed ⟨fd, hfd⟩) hexec f
        (Option.isSome_iff_ne_none.mpr hne)
      rw [hstub] at hsome
      exact Bool.false_ne_true hsome
  | env e => exact e.elim

omit [DecidableEq C] in
/-- Between two iterations the client is in the loop. -/
theorem Serving.waits (h : Serving s)
    (hprog : (s.thread (.client c)).prog = .ret (.opened (.polling fd flags) vars)) :
    Waits c fd flags vars s := by
  have ha := h.checked (.client c)
  rw [hprog] at ha
  exact ⟨ha, .inl hprog⟩

omit [DecidableEq C] in
theorem Waits.not_returned (h : Waits c fd flags vars s) : ¬ GotDescriptor c fd vars s := by
  intro hgot
  rcases h.prog with hprog | hprog
  · exact nomatch hprog.symm.trans hgot
  · exact absurd (result_pollOnce.symm.trans (congrArg Prog.result (hprog.symm.trans hgot)))
      (Option.some_ne_none _).symm

end

end

/-! ## A run -/

/-- The client opens the remote file, and waits. -/
def waitingRun : List (PartyLabel Unit) :=
  .start (.client ()) openIt :: [.size 3, .ok, .ok, .ok, .ok, .ok, .ok].map (.answer (.client ()))

/-- The download thread serves the request, and the client looks. -/
def servingRun : List (PartyLabel Unit) :=
  .start .downloader fetchNext :: [.ok, .ok, .ok, .ok, .ok, .ok, .ok, .ok, .size 4096, .ok, .ok,
    .ok, .ok, .ok, .ok,
    .ok].map (.answer .downloader) ++ [.start (.client ()) .poll, .answer (.client ()) .ok]

/-- From then on the download thread finds no request. -/
def servedLabel (n : ℕ) : PartyLabel Unit :=
  servingRun[n]?.getD (if n % 2 = 1 then .start .downloader fetchNext else .answer .downloader .ok)

/-- The state in which the client waits. -/
def waitingState : PartyState (Party Unit) :=
  (run (guardedBy keepsServing (requestSystem Unit 3).step) (partiesAtRest (Party Unit) servedFile)
    waitingRun).getD
    (partiesAtRest (Party Unit) servedFile)

/-- The states of the run. -/
def servedState : ℕ → PartyState (Party Unit) :=
  EndlessRun.follow (requestSystem Unit 3).step servedLabel waitingState

/-- The client is through. -/
def clientDone (s : PartyState (Party Unit)) : Bool :=
  (s.thread (.client ())).prog matches .ret (.opened (.done _) _)

/-- The download thread is between two iterations, the queue is empty, and the client is through. -/
def quiet (s : PartyState (Party Unit)) : Bool :=
  (s.thread .downloader).prog matches .ret (.transferred _) && s.world.requests = [] && clientDone s

/-- The download thread has started an iteration. -/
def fetchingNext (s : PartyState (Party Unit)) : PartyState (Party Unit) :=
  s.set s.world .downloader ⟨do return .transferred (← Daemon.downloadFileRoutine (s3Ops 3) none),
    .popping none⟩

/-- An iteration on the empty queue. -/
theorem quiet_iteration {s : PartyState (Party Unit)} (h : quiet s = true) :
    (requestSystem Unit 3).step s (.start .downloader fetchNext) = some (fetchingNext s) ∧
      ∃ s', (requestSystem Unit 3).step (fetchingNext s) (.answer .downloader .ok) = some s' ∧
        quiet s' = true := by
  obtain ⟨hbetween, hdone⟩ := Bool.and_eq_true_iff.mp h
  obtain ⟨hprog, hempty⟩ := Bool.and_eq_true_iff.mp hbetween
  have hempty : s.world.requests = [] := of_decide_eq_true hempty
  obtain ⟨r, hprog⟩ : ∃ r, (s.thread .downloader).prog = .ret (.transferred r) := by
    split at hprog
    · exact ⟨_, ‹_›⟩
    · exact absurd hprog Bool.false_ne_true
  have hpop : execServed s.world .ok .queueTryPop = some (none, s.world) := by
    simp [execServed, execOk, CarriedOut, exec, hempty, succeeds, readsId]
  refine ⟨?_, (fetchingNext s).set s.world .downloader ⟨.ret (.transferred none), .outside⟩, ?_, ?_⟩
  · rw [ThreadSystem.step, hprog]
    rfl
  · show Option.map _ (execServed s.world .ok .queueTryPop) = _
    rw [hpop]
    rfl
  · show (true && decide (s.world.requests = []) && clientDone s) = true
    rw [hempty, hdone]
    rfl

theorem servedLabel_start (k : ℕ) : servedLabel (2 * k + 19) = .start .downloader fetchNext := by
  have hlen : servingRun.length ≤ 2 * k + 19 := Nat.le_add_left 19 (2 * k)
  rw [servedLabel, List.getElem?_eq_none hlen, Option.getD_none, if_pos (by omega)]

theorem servedLabel_answer (k : ℕ) : servedLabel (2 * k + 20) = .answer .downloader .ok := by
  have hlen : servingRun.length ≤ 2 * k + 20 := Nat.le_succ_of_le (Nat.le_add_left 19 (2 * k))
  rw [servedLabel, List.getElem?_eq_none hlen, Option.getD_none, if_neg (by omega)]

/-- Behind the service, the iterations follow one another. -/
theorem servedState_quiet (k : ℕ) : quiet (servedState (2 * k + 19)) = true ∧
    servedState (2 * k + 20) = fetchingNext (servedState (2 * k + 19)) := by
  have hnext : ∀ k, quiet (servedState (2 * k + 19)) = true →
      servedState (2 * k + 20) = fetchingNext (servedState (2 * k + 19)) := fun k hk => by
    show ((requestSystem Unit 3).step (servedState (2 * k + 19))
      (servedLabel (2 * k + 19))).getD _ = _
    rw [servedLabel_start, (quiet_iteration hk).1]
    rfl
  induction k with
  | zero =>
    have h₀ : quiet (servedState (2 * 0 + 19)) = true := by decide +kernel
    exact ⟨h₀, hnext 0 h₀⟩
  | succ k ih =>
    have hquiet : quiet (servedState (2 * (k + 1) + 19)) = true := by
      show quiet (((requestSystem Unit 3).step (servedState (2 * k + 20))
        (servedLabel (2 * k + 20))).getD _) = true
      obtain ⟨s', hs', hquiet⟩ := (quiet_iteration ih.1).2
      rw [servedLabel_answer, ih.2, hs']
      exact hquiet
    exact ⟨hquiet, hnext (k + 1) hquiet⟩

/-- Every step of the run is possible, and it leaves the file alone; from the nineteenth state on
the client is through, and only the download thread moves. -/
theorem servedState_step (n : ℕ) :
    ((requestSystem Unit 3).step (servedState n) (servedLabel n)).isSome = true ∧
      keepsServing (servedState n) (servedLabel n) = true ∧
      (19 ≤ n → clientDone (servedState n) = true ∧ (servedLabel n).thread = some .downloader) := by
  by_cases hn : n < 19
  · have hfirst : ∀ n < 19, (((requestSystem Unit 3).step (servedState n) (servedLabel n)).isSome &&
        keepsServing (servedState n) (servedLabel n)) = true := by decide +kernel
    obtain ⟨hsome, hkeeps⟩ := Bool.and_eq_true_iff.mp (hfirst n hn)
    exact ⟨hsome, hkeeps, fun h => absurd hn (Nat.not_lt_of_le h)⟩
  · obtain ⟨k, rfl | rfl⟩ : ∃ k, n = 2 * k + 19 ∨ n = 2 * k + 20 := ⟨(n - 19) / 2, by omega⟩
    all_goals
      obtain ⟨hquiet, hnext⟩ := servedState_quiet k
      obtain ⟨hstart, s', hanswer, -⟩ := quiet_iteration hquiet
      have hdone := (Bool.and_eq_true_iff.mp hquiet).2
    · rw [servedLabel_start, hstart]
      exact ⟨rfl, rfl, fun _ => ⟨hdone, rfl⟩⟩
    · rw [servedLabel_answer, hnext, hanswer]
      exact ⟨rfl, rfl, fun _ => ⟨hdone, rfl⟩⟩

/-- The test implies the condition on the file as well. -/
theorem leavesAlone_of_test {s : PartyState (Party Unit)} {l : PartyLabel Unit}
    (h : keepsServing s l = true) (f : ℕ) :
    LeavesAlone f s l := by
  cases l with
  | answer t k =>
    cases t with
    | uploader =>
      intro fd hfd
      simp [keepsServing, hfd] at h
    | downloader =>
      rintro fd hfd rfl
      simpa [keepsServing, hfd] using h
    | client c => trivial
  | start | env => trivial

/-- A client that waits is not through. -/
theorem Waits.not_done {fd : Fd} {flags : ℕ} {vars : Client.Vars} {s : PartyState (Party Unit)}
    (h : Waits () fd flags vars s) : clientDone s = false := by
  rcases h.prog with hprog | hprog
  · rw [clientDone, hprog]
  · rw [clientDone, hprog]
    cases hpoll : pollOnce fd flags vars with
    | call a g => rfl
    | ret a => exact absurd (result_pollOnce.symm.trans
        (congrArg Prog.result hpoll)) (Option.some_ne_none a).symm

end Concurrency

end CloudTiering
