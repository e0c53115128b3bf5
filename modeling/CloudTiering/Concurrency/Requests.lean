import CloudTiering.Concurrency.Attributes
import CloudTiering.Concurrency.Parties

/-!
# Clients that wait, and the requests for their files

A client pushes one request for a remote file and then waits until the stub attribute is gone.  The
request is spent when the download thread pops it, whether or not the download comes about; and the
stub attribute of a file that has been downloaded may be set again before the client has looked.

* `Party`, `requestSystem`: the upload thread, the download thread and any number of clients.
* `NoLostRequest`: for every client that waits for a remote file, a request is queued or being
  served.
* `KeepsServing`: the condition on a run.
* `reach_noLostRequest`: under it, no request is lost.
* `lost_request`: without it, one can be.
-/

namespace CloudTiering

open Foundations App

namespace Concurrency

/-! ## The parties -/

/-- The two transfer threads of the daemon, and the clients `C`. -/
inductive Party (C : Type)
  | uploader
  | downloader
  | client (c : C)
  deriving DecidableEq

variable {C : Type}

/-- Whose work it is. -/
def Party.does : Party C → Work → Bool
  | .uploader, .uploadRoutine .. => true
  | .downloader, .downloadRoutine _ => true
  | .client _, .openFile .. => true
  | .client _, .poll => true
  | _, _ => false

/-- The phases of a party. -/
def Party.runs : Party C → Phase → Bool
  | _, .outside => true
  | .uploader, .starting up _ | .uploader, .locking up _ | .uploader, .checking up _ => up
  | .uploader, .storing _ | .uploader, .named _ | .uploader, .unnaming _
  | .uploader, .stubbed _ => true
  | .uploader, .unlocking _ | .uploader, .closing _ => true
  | .downloader, .popping _ => true
  | .downloader, .starting up _ | .downloader, .locking up _ | .downloader, .checking up _ => !up
  | .downloader, .asking _ | .downloader, .loading _ | .downloader, .unstubbed _ => true
  | .downloader, .unlocking _ | .downloader, .closing _ => true
  | .client _, .entering .. | .client _, .looking .. | .client _, .clearing _ => true
  | .client _, .clearingId _ | .client _, .scheduling .. | .client _, .polling .. => true
  | _, _ => false

/-- The `object_id` of a remote file can be read. -/
def readsId : (c : Call) → Rep c → Bool
  | .fgetxattr _ .objectId _, r => r.isOk
  | _, _ => true

/-- Nothing fails, except that a file may be locked already; a missing attribute is what the
location checks and the removals expect. -/
def execServed (w : World) (ch : Choice) (c : Call) : Option (Rep c × World) :=
  (execOk w ch c).filter fun a => readsId c a.1

theorem execServed_eq_some {w w' : World} {ch : Choice} {c : Call} {r : Rep c}
    (h : execServed w ch c = some (r, w')) : execOk w ch c = some (r, w') ∧ readsId c r = true :=
  Option.filter_eq_some_iff.mp h

/-- The daemon and its clients. -/
def requestSystem (C : Type) (retries : Int) :
    ThreadSystem Call Rep Outcome (Party C) World Choice Phase Work Empty :=
  partySystem (Party C) execServed Party.does retries

/-- A party keeps to its own phases. -/
theorem Party.runs_next {t : Party C} {p : Phase} (h : t.runs p = true) (c : Call) (r : Rep c) :
    t.runs (p.next c r) = true := by
  have hlook : ∀ {remote here : Phase}, t.runs remote = true → t.runs here = true →
      t.runs (afterLook remote here c r) = true := by
    intro remote here hr hh
    obtain heq | heq := afterLook_cases remote here c r
    · rw [heq, hr]
    · rw [heq, hh]
  cases t with
  | uploader =>
    cases p <;> try exact absurd h Bool.false_ne_true
    all_goals unfold Phase.next; dsimp only
    all_goals try split
    all_goals first | rfl | (obtain rfl := h; rfl)
  | downloader =>
    cases p <;> try exact absurd h Bool.false_ne_true
    case checking up fd =>
      cases up with
      | true => exact absurd h Bool.false_ne_true
      | false =>
        unfold Phase.next; dsimp only
        split <;> rfl
    all_goals unfold Phase.next; dsimp only
    all_goals try split
    all_goals first | rfl | exact h | (split <;> rfl)
  | client c =>
    cases p <;> try exact absurd h Bool.false_ne_true
    case looking pid fd flags =>
      refine hlook ?_ rfl
      split <;> rfl
    case polling pid fd flags => exact hlook h rfl
    all_goals unfold Phase.next; dsimp only
    all_goals try split
    all_goals rfl

/-- After a piece of work a party stands in one of its own phases, and the next one starts there. -/
theorem Party.runs_start {t : Party C} {p : Phase} {work : Work} (h : t.runs p = true)
    (hwork : t.does work = true) : t.runs (work.start p) = true := by
  cases t with
  | uploader =>
    cases work <;> try exact absurd hwork Bool.false_ne_true
    case uploadRoutine buf secondary => cases secondary <;> rfl
  | downloader =>
    cases work <;> try exact absurd hwork Bool.false_ne_true
    case downloadRoutine secondary => rfl
  | client c =>
    cases work <;> try exact absurd hwork Bool.false_ne_true
    case openFile => rfl
    case poll => exact h

/-! ## Requests -/

/-- A request for file `f` is in the primary download queue. -/
def Requested (w : World) (f : ℕ) : Prop := ∃ data ∈ w.requests, w.names (cString data) = some f

/-- The thread has popped a request for file `f` and has not tried to lock the file yet. -/
def Phase.beforeLock (w : World) (f : ℕ) : Phase → Prop
  | .starting _ path => w.names path = some f
  | .locking _ fd => fd.ino = f
  | _ => False

/-- The thread has popped a request for file `f` and has not removed the stub attribute yet. -/
def Phase.fetching (w : World) (f : ℕ) : Phase → Prop
  | .starting _ path => w.names path = some f
  | .locking _ fd | .checking _ fd | .asking fd | .loading fd => fd.ino = f
  | _ => False

/-- The thread has popped a request for file `f`, and its call of `download_file` has not returned
yet. -/
def Phase.downloading (w : World) (f : ℕ) : Phase → Prop
  | .starting _ path => w.names path = some f
  | .locking _ fd | .checking _ fd | .asking fd | .loading fd => fd.ino = f
  | .unstubbed fd | .unlocking fd | .closing fd => fd.ino = f
  | _ => False

/-- A client is in `poll_file_location` on file `f`. -/
def Polls (place : Party C → Phase) (f : ℕ) : Prop :=
  ∃ c pid fd flags, place (.client c) = .polling pid fd flags ∧ fd.ino = f

section

variable {w w' : World} {p : Phase} {f : ℕ}

theorem Phase.fetching_of_beforeLock (h : p.beforeLock w f) : p.fetching w f := by
  cases p <;> first | exact h | exact h.elim

theorem Phase.downloading_of_fetching (h : p.fetching w f) : p.downloading w f := by
  cases p <;> first | exact h | exact h.elim

theorem Requested.keep (h : Requested w f) (hk : Keeps w w') : Requested w' f := by
  obtain ⟨data, hdata, hname⟩ := h
  exact ⟨data, hk.requests data hdata, hk.names _ _ hname⟩

theorem Phase.fetching_keep (h : p.fetching w f) (hk : Keeps w w') : p.fetching w' f := by
  cases p with
  | starting up path => exact hk.names path f h
  | _ => exact h

end

/-- **The condition.**  A `try_lock_file` of the download thread does not fail on a remote file for
which a client waits and no other request is queued; the upload thread does not mark a file as
remote for which a client waits, unless a request for it is queued or about to be served; and a
client pushes a path that names the file it has opened. -/
def KeepsServing (s : PartyState (Party C)) :
    ThreadSystem.Label (Party C) Choice Work Empty → Prop
  | .answer .downloader _ => ∀ fd, s.mons .downloader = .locking false fd →
      s.world.isLocked fd.ino = true → (s.world.inode fd.ino).stub.isSome = true →
      Polls s.mons fd.ino → Requested s.world fd.ino
  | .answer .uploader _ => ∀ fd, s.mons .uploader = .named fd → Polls s.mons fd.ino →
      Requested s.world fd.ino ∨ (s.mons .downloader).beforeLock s.world fd.ino
  | .answer (.client c) _ => ∀ pid fd flags, s.mons (.client c) = .scheduling pid fd flags →
      s.world.names (procPidFdFdPath pid fd.num) = some fd.ino
  | _ => True

/-- **No download request is lost**: for every remote file for which a client waits, a request is
queued, or has been popped and its `download_file` has not returned. -/
def NoLostRequest (s : PartyState (Party C)) : Prop :=
  ∀ f, Polls s.mons f → (s.world.inode f).stub.isSome = true →
    Requested s.world f ∨ (s.mons .downloader).downloading s.world f

/-! ## The invariant -/

/-- **The invariant**: every party is in one of its own phases, and for every remote file for which
a client waits, a request is queued, or the download thread is about to remove the stub
attribute. -/
structure RequestInv (w : World) (place : Party C → Phase) : Prop where
  runs : ∀ t : Party C, t.runs (place t) = true
  served : ∀ f, Polls place f → (w.inode f).stub.isSome = true →
    Requested w f ∨ (place .downloader).fetching w f

section

variable [DecidableEq C] {w w' : World} {place : Party C → Phase} {t : Party C} {p : Phase} {f : ℕ}

theorem runs_update (h : ∀ u : Party C, u.runs (place u) = true) (hp : t.runs p = true)
    (u : Party C) :
    u.runs (Function.update place t p u) = true := by
  by_cases hu : u = t
  · rw [hu, Function.update_self]
    exact hp
  · rw [Function.update_of_ne hu]
    exact h u

/-- A client that waits has waited before, or starts to wait. -/
theorem polls_update (h : Polls (Function.update place t p) f) :
    Polls place f ∨ ∃ c pid fd flags, t = .client c ∧ p = .polling pid fd flags ∧ fd.ino = f := by
  obtain ⟨c, pid, fd, flags, hp, hf⟩ := h
  by_cases hc : .client c = t
  · subst hc
    rw [Function.update_self] at hp
    exact .inr ⟨c, pid, fd, flags, rfl, hp, hf⟩
  · rw [Function.update_of_ne hc] at hp
    exact .inl ⟨c, pid, fd, flags, hp, hf⟩

namespace RequestInv

/-- A step that drops no request, marks no file as remote and makes no client wait.  The download
thread itself has to go on with its download where that is needed. -/
theorem keep (h : RequestInv w place) (hp : t.runs p = true) (hk : Keeps w w')
    (hstub : ∀ i, (w'.inode i).stub.isSome = true → (w.inode i).stub.isSome = true)
    (hpoll : ∀ pid fd flags, p = .polling pid fd flags → place t = .polling pid fd flags)
    (hfetch : t = .downloader → ∀ f, Polls place f → (w'.inode f).stub.isSome = true →
      (place .downloader).fetching w f → Requested w' f ∨ p.fetching w' f) :
    RequestInv w' (Function.update place t p) := by
  refine ⟨runs_update h.runs hp, fun f hf hs => ?_⟩
  have hf' : Polls place f := by
    rcases polls_update hf with hf | ⟨c, pid, fd, flags, rfl, hpp, hfd⟩
    · exact hf
    · exact ⟨c, pid, fd, flags, hpoll pid fd flags hpp, hfd⟩
  rcases h.served f hf' (hstub f hs) with hr | hd
  · exact .inl (hr.keep hk)
  · by_cases ht : t = .downloader
    · rw [ht, Function.update_self]
      exact hfetch ht f hf' hs hd
    · rw [Function.update_of_ne (Ne.symm ht)]
      exact .inr (Phase.fetching_keep hd hk)

/-- The download thread pops a request, or finds none. -/
theorem pop {ch : Choice} {secondary r : Option Bytes} (h : RequestInv w place)
    (hp : place .downloader = .popping secondary) (he : exec w ch .queueTryPop = some (r, w')) :
    RequestInv w'
      (Function.update place .downloader ((Phase.popping secondary).next .queueTryPop r)) := by
  have hruns :
      (Party.downloader : Party C).runs ((Phase.popping secondary).next .queueTryPop r) = true :=
    Party.runs_next (hp ▸ h.runs .downloader) .queueTryPop r
  refine ⟨runs_update h.runs hruns, fun f hf hs => ?_⟩
  have hf' : Polls place f := by
    rcases polls_update hf with hf | ⟨c, pid, fd, flags, heq, -, -⟩
    · exact hf
    · exact absurd heq (by simp)
  have hrequested : (w.inode f).stub.isSome = true → Requested w f := by
    intro hsome
    rcases h.served f hf' hsome with hr | hd
    · exact hr
    · rw [hp] at hd
      exact hd.elim
  rw [Function.update_self, next_popping]
  rcases exec_queueTryPop he with ⟨hnil, rfl, rfl⟩ | ⟨d, rs, hcons, rfl, rfl⟩
  · obtain ⟨data, hdata, -⟩ := hrequested hs
    rw [hnil] at hdata
    exact absurd hdata List.not_mem_nil
  · obtain ⟨data, hdata, hname⟩ := hrequested hs
    rw [hcons] at hdata
    rcases List.mem_cons.mp hdata with rfl | hrest
    · exact .inr hname
    · exact .inl ⟨data, hrest, hname⟩

/-- A client pushes a request for the file that it has opened, and waits. -/
theorem push {c : C} {pid : ℕ} {fd : Fd} {flags : ℕ} (h : RequestInv w place) {stale : Bytes}
    (hname : w.names (procPidFdFdPath pid fd.num) = some fd.ino) :
    RequestInv { w with requests := w.requests ++ [Client.downloadRequest pid fd.num stale] }
      (Function.update place (.client c) (.polling pid fd flags)) := by
  have hk : Keeps w
      { w with requests := w.requests ++ [Client.downloadRequest pid fd.num stale] } :=
    ⟨fun _ _ hi => hi, fun _ hd => List.mem_append_left _ hd⟩
  refine ⟨runs_update h.runs rfl, fun f hf hs => ?_⟩
  rcases polls_update hf with hf | ⟨c', pid', fd', flags', -, hpp, hfd⟩
  · rcases h.served f hf hs with hr | hd
    · exact .inl (hr.keep hk)
    · rw [Function.update_of_ne (by simp)]
      exact .inr (Phase.fetching_keep hd hk)
  · obtain ⟨rfl, rfl, rfl⟩ := Phase.polling.inj hpp
    refine .inl ⟨Client.downloadRequest pid fd.num stale,
      List.mem_append_right _ List.mem_cons_self, ?_⟩
    rw [Client.cString_downloadRequest]
    exact hname.trans (congrArg some hfd)

/-- The upload thread marks a file as remote. -/
theorem mark {fd : Fd} (h : RequestInv w place) (v : Bytes)
    (hwaits : Polls place fd.ino → Requested w fd.ino ∨ (place .downloader).beforeLock w fd.ino) :
    RequestInv (w.update fd.ino ((w.inode fd.ino).setXattr (some v) .stub))
      (Function.update place .uploader (.stubbed fd)) := by
  have hk : Keeps w (w.update fd.ino ((w.inode fd.ino).setXattr (some v) .stub)) :=
    keeps_of_eq rfl rfl
  refine ⟨runs_update h.runs rfl, fun f hf hs => ?_⟩
  rw [Function.update_of_ne (by simp)]
  have hf' : Polls place f := by
    rcases polls_update hf with hf | ⟨c, pid, fd', flags, heq, -, -⟩
    · exact hf
    · exact absurd heq (by simp)
  have hserved : Requested w f ∨ (place .downloader).fetching w f := by
    by_cases hi : f = fd.ino
    · subst hi
      exact (hwaits hf').imp_right Phase.fetching_of_beforeLock
    · rw [World.inode_update_of_ne w _ hi] at hs
      exact h.served f hf' hs
  exact hserved.imp (·.keep hk) (Phase.fetching_keep · hk)

end RequestInv

end

/-! ## One call -/

section

variable {w w' : World} {p : Phase} {f : ℕ}

/-- What the calls of the parties can do to the attributes. -/
theorem expects_cases {c : Call} (h : p.expects c) :
    isNeutral c = true ∨ (∃ fd x v, c = .fsetxattr fd x v .create ∧ (x = .stub → p = .named fd)) ∨
      ∃ fd x, c = .fremovexattr fd x := by
  cases p with
  | outside => exact h.elim
  | popping secondary => exact .inl (by rw [h]; rfl)
  | starting up path => exact .inl (by rw [h]; rfl)
  | locking up fd => exact .inr (.inl ⟨fd, .locked, [], h, by simp⟩)
  | checking up fd => exact .inl (by rw [h]; rfl)
  | storing fd =>
    rcases h with h | ⟨v, rfl⟩ | rfl
    · exact .inl (isNeutral_of_isTransferCall h)
    · exact .inr (.inl ⟨fd, .objectId, v, rfl, by simp⟩)
    · exact .inr (.inr ⟨fd, .locked, rfl⟩)
  | named fd => exact .inr (.inl ⟨fd, .stub, [], h, fun _ => rfl⟩)
  | unnaming fd => exact .inr (.inr ⟨fd, .objectId, h⟩)
  | stubbed fd =>
    rcases h with rfl | ⟨n, rfl⟩ | rfl
    · exact .inl rfl
    · exact .inl rfl
    · exact .inr (.inr ⟨fd, .locked, rfl⟩)
  | asking fd =>
    obtain ⟨n, -, rfl⟩ := h
    exact .inl rfl
  | loading fd =>
    rcases h with h | rfl
    · exact .inl (isNeutral_of_isTransferCall h)
    · exact .inr (.inr ⟨fd, .stub, rfl⟩)
  | unstubbed fd => exact .inr (.inr ⟨fd, .objectId, h⟩)
  | unlocking fd => exact .inr (.inr ⟨fd, .locked, h⟩)
  | closing fd => exact .inl (by rw [h]; rfl)
  | entering self pid path flags => exact .inl (by rw [h]; rfl)
  | looking pid fd flags => exact .inl (isNeutral_of_isLookCall h)
  | clearing fd => exact .inr (.inr ⟨fd, .stub, h⟩)
  | clearingId fd => exact .inr (.inr ⟨fd, .objectId, h⟩)
  | scheduling pid fd flags =>
    rcases h with h | ⟨stale, rfl⟩
    · cases c <;> first | exact .inl rfl | exact absurd h (by simp [isSetupCall])
    · exact .inl rfl
  | polling pid fd flags => exact .inl (isNeutral_of_isLookCall h)

/-- Only an upload that has set `object_id` marks a file as remote. -/
theorem stub_of_exec {ch : Choice} {c : Call} {r : Rep c} (hpre : p.expects c)
    (hp : ∀ fd, p ≠ .named fd) (he : exec w ch c = some (r, w')) (i : ℕ)
    (hs : (w'.inode i).stub.isSome = true) : (w.inode i).stub.isSome = true := by
  rcases expects_cases hpre with hc | ⟨fd, x, v, rfl, hx⟩ | ⟨fd, x, rfl⟩
  · exact (exec_neutral hc he i .stub).symm.trans hs
  · have hne : x ≠ .stub := fun hx' => hp fd (hx hx')
    rcases exec_fsetxattr_create he with ⟨-, -, rfl⟩ | ⟨e, -, rfl, -⟩
    · exact (congrArg Option.isSome
        (World.xattr_setXattr_of_ne w _ fun _ => hne.symm)).symm.trans hs
    · exact hs
  · rcases exec_fremovexattr he with ⟨-, -, rfl⟩ | ⟨e, -, rfl, -⟩
    · by_cases hi : i = fd.ino ∧ .stub = x
      · obtain ⟨rfl, rfl⟩ := hi
        have hnone := World.xattr_setXattr_self w fd.ino none .stub
        exact absurd ((congrArg Option.isSome hnone).symm.trans hs) Bool.false_ne_true
      · exact (congrArg Option.isSome
          (World.xattr_setXattr_of_ne w _ fun h hx => hi ⟨h, hx⟩)).symm.trans hs
    · exact hs

/-- A thread begins to wait when it has pushed a request. -/
theorem polling_of_next {c : Call} {r : Rep c} {pid : ℕ} {fd : Fd} {flags : ℕ} (hpre : p.expects c)
    (h : p.next c r = .polling pid fd flags) :
    p = .polling pid fd flags ∨ (p = .scheduling pid fd flags ∧
      ∃ stale, c = .queuePush (Client.downloadRequest pid fd.num stale)) := by
  -- a thread of the daemon keeps to its own phases, and those of a client are not among them
  have hdaemon : ∀ t : Party Unit, t.runs (.polling pid fd flags) = false → t.runs p = false := by
    intro t ht
    by_contra hrun
    have hnext := Party.runs_next (Bool.eq_true_of_not_eq_false hrun) c r
    rw [h, ht] at hnext
    exact Bool.false_ne_true hnext
  have hup := hdaemon .uploader rfl
  have hdown := hdaemon .downloader rfl
  cases p with
  | entering self pid' path flags' =>
    subst hpre
    cases r <;> exact absurd h (by simp [Phase.next])
  | looking pid' fd' flags' =>
    obtain heq | heq := afterLook_cases
      (if flags' &&& oTrunc = oTrunc then .clearing fd' else .scheduling pid' fd' flags')
        .outside c r
    · refine absurd (heq.symm.trans h) ?_
      split <;> simp
    · exact absurd (heq.symm.trans h) (by simp)
  | clearing fd' => exact absurd h (by simp [Phase.next])
  | clearingId fd' => exact absurd h (by simp [Phase.next])
  | scheduling pid' fd' flags' =>
    rcases hpre with hc | ⟨stale, rfl⟩
    · rw [next_scheduling hc] at h
      exact absurd h (by simp)
    · obtain ⟨rfl, rfl, rfl⟩ := Phase.polling.inj h
      exact .inr ⟨rfl, stale, rfl⟩
  | polling pid' fd' flags' =>
    obtain heq | heq := afterLook_cases (.polling pid' fd' flags') .outside c r
    · exact .inl (heq.symm.trans h)
    · exact absurd (heq.symm.trans h) (by simp)
  | starting up path | locking up path | checking up path =>
    cases up <;>
      first | exact absurd hup.symm Bool.false_ne_true | exact absurd hdown.symm Bool.false_ne_true
  | _ =>
    first | exact absurd hup.symm Bool.false_ne_true | exact absurd hdown.symm Bool.false_ne_true

theorem popping_of_expects (h : p.expects .queueTryPop) : ∃ secondary, p = .popping secondary := by
  cases p with
  | popping secondary => exact ⟨secondary, rfl⟩
  | outside => exact h.elim
  | storing fd => rcases h with h | ⟨v, h⟩ | h <;> exact absurd h (by simp [isTransferCall])
  | stubbed fd => rcases h with h | ⟨v, h⟩ | h <;> exact absurd h (by simp)
  | asking fd =>
    obtain ⟨n, -, h⟩ := h
    exact absurd h (by simp)
  | loading fd => rcases h with h | h <;> exact absurd h (by simp [isTransferCall])
  | looking pid fd flags => exact h.elim
  | scheduling pid fd flags => rcases h with h | ⟨v, h⟩ <;> exact absurd h (by simp [isSetupCall])
  | polling pid fd flags => exact h.elim
  | _ => exact absurd h (by simp [Phase.expects])

theorem scheduling_of_expects {data : Bytes} (h : p.expects (.queuePush data)) :
    ∃ pid fd flags stale, p = .scheduling pid fd flags ∧
      data = Client.downloadRequest pid fd.num stale := by
  cases p with
  | scheduling pid fd flags =>
    rcases h with h | ⟨stale, h⟩
    · exact absurd h (by simp [isSetupCall])
    · exact ⟨pid, fd, flags, stale, rfl, Call.queuePush.inj h⟩
  | outside => exact h.elim
  | storing fd => rcases h with h | ⟨v, h⟩ | h <;> exact absurd h (by simp [isTransferCall])
  | stubbed fd => rcases h with h | ⟨v, h⟩ | h <;> exact absurd h (by simp)
  | asking fd =>
    obtain ⟨n, -, h⟩ := h
    exact absurd h (by simp)
  | loading fd => rcases h with h | h <;> exact absurd h (by simp [isTransferCall])
  | looking pid fd flags => exact h.elim
  | polling pid fd flags => exact h.elim
  | _ => exact absurd h (by simp [Phase.expects])

/-- Only another iteration of the polling starts in `poll_file_location`. -/
theorem Work.polling_of_start {work : Work} {pid : ℕ} {fd : Fd} {flags : ℕ}
    (h : work.start p = .polling pid fd flags) : p = .polling pid fd flags := by
  cases work with
  | uploadRoutine buf secondary =>
    cases secondary <;> exact absurd h (by simp [Work.start, uploadStart])
  | poll => exact h
  | _ => exact absurd h (by simp [Work.start])

/-- A thread whose work has ended is not on its way to the stub attribute. -/
theorem Outcome.At.not_fetching {a : Outcome} (ha : a.At p) (h : p.fetching w f) : False := by
  cases a with
  | transferred ret =>
    obtain rfl : p = .outside := ha
    exact h
  | opened opening vars =>
    obtain ⟨pid, hp⟩ := ha
    cases opening with
    | done ret =>
      obtain rfl | ⟨fd, flags, rfl⟩ := hp
      · exact h
      · exact h
    | polling fd flags =>
      obtain rfl : p = .polling pid fd flags := hp
      exact h

/-- A call of a download that is on its way to the stub attribute: it stays on its way, unless the
file is locked. -/
theorem fetching_or_refused {ch : Choice} {c : Call} {r : Rep c} (hpre : p.expects c)
    (hdown : (Party.downloader : Party C).runs p = true) (he : execServed w ch c = some (r, w'))
    (hs : (w'.inode f).stub.isSome = true) (hf : p.fetching w f) :
    (∃ fd, p = .locking false fd ∧ fd.ino = f ∧ w.isLocked fd.ino = true) ∨
    (p.next c r).fetching w' f := by
  obtain ⟨hok, hid⟩ := execServed_eq_some he
  have hnone : (w'.inode f).stub = none → False := by
    intro h
    rw [h] at hs
    exact absurd hs Bool.false_ne_true
  cases p with
  | starting up path =>
    subst hpre
    obtain ⟨-, hexec, hgood⟩ := execOk_eq_some hok
    rcases exec_openFile hexec with ⟨i, hi, rfl, rfl⟩ | ⟨e, rfl, -⟩
    · exact .inr (Option.some.inj (hi.symm.trans hf))
    · exact absurd hgood Bool.false_ne_true
  | locking up fd =>
    subst hpre
    rcases execOk_create hok with ⟨rfl, -, -⟩ | ⟨e, rfl, -, hset⟩
    · exact .inr hf
    · cases up with
      | true => exact absurd hdown Bool.false_ne_true
      | false => exact .inl ⟨fd, rfl, hf, hset⟩
  | checking up fd =>
    subst hpre
    cases up with
    | true => exact absurd hdown Bool.false_ne_true
    | false =>
      obtain ⟨rfl, ⟨v, rfl, -⟩ | ⟨rfl, hn⟩⟩ := execOk_check hok
      · exact .inr hf
      · exact (hnone (by rw [← hf]; exact hn)).elim
  | asking fd =>
    obtain ⟨n, -, rfl⟩ := hpre
    cases r with
    | ok v => exact .inr hf
    | error e => exact absurd hid Bool.false_ne_true
  | loading fd =>
    rcases hpre with hc | rfl
    · rw [next_loading hc]
      exact .inr hf
    · rcases execOk_remove hok with ⟨-, rfl⟩ | ⟨e, -, rfl, hn⟩
      · exact (hnone (by rw [← hf]; exact World.xattr_setXattr_self w fd.ino none .stub)).elim
      · exact (hnone (by rw [← hf]; exact hn)).elim
  | _ => exact hf.elim

/-- A call of a download that is on its way to the stub attribute.  Where it fails to lock the file,
another request is queued. -/
theorem fetching_next {ch : Choice} {c : Call} {r : Rep c} (hpre : p.expects c)
    (hdown : (Party.downloader : Party C).runs p = true) (he : execServed w ch c = some (r, w'))
    (hrefused : ∀ fd, p = .locking false fd → fd.ino = f → w.isLocked fd.ino = true → Requested w f)
    (hs : (w'.inode f).stub.isSome = true) (hf : p.fetching w f) :
    Requested w f ∨ (p.next c r).fetching w' f :=
  (fetching_or_refused hpre hdown he hs hf).imp_left fun ⟨fd, hp, hfd, hset⟩ =>
    hrefused fd hp hfd hset

end

section

variable [DecidableEq C] {w w' : World} {place : Party C → Phase} {t : Party C}
  {ch : Choice} {c : Call}
  {r : Rep c}

/-- A call other than a pop, a push or the marking of a file. -/
theorem RequestInv.other (h : RequestInv w place) (hpre : (place t).expects c)
    (he : execServed w ch c = some (r, w')) (hnamed : ∀ fd, place t ≠ .named fd)
    (hpop : c ≠ .queueTryPop)
    (hpush : ∀ data, c ≠ .queuePush data)
    (hrefused : t = .downloader → ∀ fd, place t = .locking false fd → w.isLocked fd.ino = true →
      (w.inode fd.ino).stub.isSome = true → Polls place fd.ino → Requested w fd.ino) :
    RequestInv w' (Function.update place t ((place t).next c r)) := by
  have hexec := (execOk_eq_some (execServed_eq_some he).1).2.1
  have hk : Keeps w w' := exec_keeps hpop hexec
  have hstub := stub_of_exec hpre hnamed hexec
  refine h.keep (Party.runs_next (h.runs t) c r) hk hstub ?_ ?_
  · intro pid fd flags hp
    rcases polling_of_next hpre hp with hp | ⟨-, stale, rfl⟩
    · exact hp
    · exact absurd rfl (hpush _)
  · rintro rfl f hf hs hd
    refine (fetching_next hpre (h.runs .downloader) he ?_ hs hd).imp_left (·.keep hk)
    rintro fd hlocking rfl hset
    exact hrefused rfl fd hlocking hset (hstub _ hs) hf

/-- **One call of one party.** -/
theorem RequestInv.answer (h : RequestInv w place) (hpre : (place t).expects c)
    (he : execServed w ch c = some (r, w'))
    (hrefused : t = .downloader → ∀ fd, place t = .locking false fd → w.isLocked fd.ino = true →
      (w.inode fd.ino).stub.isSome = true → Polls place fd.ino → Requested w fd.ino)
    (hmark : t = .uploader → ∀ fd, place t = .named fd → Polls place fd.ino →
      Requested w fd.ino ∨ (place .downloader).beforeLock w fd.ino)
    (hpush : ∀ c, t = .client c → ∀ pid fd flags, place t = .scheduling pid fd flags →
      w.names (procPidFdFdPath pid fd.num) = some fd.ino) :
    RequestInv w' (Function.update place t ((place t).next c r)) := by
  have hruns := h.runs t
  have hexec := (execOk_eq_some (execServed_eq_some he).1).2.1
  by_cases hnamed : ∃ fd, place t = .named fd
  · obtain ⟨fd, hp⟩ := hnamed
    cases t with
    | uploader =>
      have hwaits := hmark rfl fd hp
      rw [hp] at hpre ⊢
      subst hpre
      rcases execOk_create (execServed_eq_some he).1 with ⟨rfl, -, rfl⟩ | ⟨e, rfl, rfl, -⟩
      · exact h.mark [] hwaits
      · refine h.keep rfl (keeps_of_eq rfl rfl) (fun _ hi => hi) ?_ fun ht => absurd ht (by simp)
        exact fun _ _ _ hpoll => absurd hpoll (by simp [Phase.next])
    | downloader =>
      rw [hp] at hruns
      exact absurd hruns Bool.false_ne_true
    | client c =>
      rw [hp] at hruns
      exact absurd hruns Bool.false_ne_true
  by_cases hpop : c = .queueTryPop
  · subst hpop
    obtain ⟨secondary, hp⟩ := popping_of_expects hpre
    cases t with
    | uploader =>
      rw [hp] at hruns
      exact absurd hruns Bool.false_ne_true
    | downloader =>
      rw [hp]
      exact h.pop hp hexec
    | client c =>
      rw [hp] at hruns
      exact absurd hruns Bool.false_ne_true
  by_cases hpushed : ∃ data, c = .queuePush data
  · obtain ⟨data, rfl⟩ := hpushed
    obtain ⟨pid, fd, flags, stale, hp, rfl⟩ := scheduling_of_expects hpre
    cases t with
    | uploader =>
      rw [hp] at hruns
      exact absurd hruns Bool.false_ne_true
    | downloader =>
      rw [hp] at hruns
      exact absurd hruns Bool.false_ne_true
    | client c =>
      have hname := hpush c rfl pid fd flags hp
      have hgood := (execOk_eq_some (execServed_eq_some he).1).2.2
      rw [hp]
      rcases exec_queuePush hexec with ⟨rfl, rfl⟩ | ⟨e, rfl, -⟩
      · exact h.push hname
      · exact absurd hgood Bool.false_ne_true
  · exact h.other hpre he (fun fd hp => hnamed ⟨fd, hp⟩) hpop
      (fun data hd => hpushed ⟨data, hd⟩) hrefused

end

/-! ## Runs -/

/-- A remote file of one byte, and room for one request. -/
def servedFile : World where
  inode _ := { data := [0], stub := some [], objectId := some [102] }
  names path := if path = [102] then some 0 else none
  store key := if key = [102] then some [7] else none
  maxRequests := 1

/-- A local file of one byte, and room for one request. -/
def unservedFile : World where
  inode _ := { data := [7] }
  names path := if path = [102] then some 0 else none
  store _ := none
  maxRequests := 1

/-- The work of the three parties on the file. -/
def openIt : Work := .openFile 1 [] {} [102] oRdwr
def evictIt : Work := .uploadRoutine (List.replicate s3XattrSize 0) (some [102])
def fetchNext : Work := .downloadRoutine none

/-- A test that implies `KeepsServing`: no lock attempt fails, and no file is marked as remote. -/
def keepsServing (s : PartyState (Party Unit)) :
    ThreadSystem.Label (Party Unit) Choice Work Empty → Bool
  | .answer .downloader _ =>
      match s.mons .downloader with
      | .locking _ fd => !s.world.isLocked fd.ino
      | _ => true
  | .answer .uploader _ =>
      match s.mons .uploader with
      | .named _ => false
      | _ => true
  | .answer (.client c) _ =>
      match s.mons (.client c) with
      | .scheduling pid fd _ => s.world.names (procPidFdFdPath pid fd.num) = some fd.ino
      | _ => true
  | _ => true

theorem keepsServing_sound {s : PartyState (Party Unit)}
    {l : ThreadSystem.Label (Party Unit) Choice Work Empty} (h : keepsServing s l = true) :
    KeepsServing s l := by
  cases l with
  | answer t k =>
    cases t with
    | uploader =>
      intro fd hfd
      simp [keepsServing, hfd] at h
    | downloader =>
      intro fd hfd hlocked
      simp [keepsServing, hfd, hlocked] at h
    | client c =>
      intro pid fd flags hfd
      simpa [keepsServing, hfd] using h
  | _ => trivial

end Concurrency

end CloudTiering
