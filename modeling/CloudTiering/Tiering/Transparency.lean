import CloudTiering.Foundations.Traces
import CloudTiering.Tiering.Answers

/-!
# Tiering is transparent

The daemon's threads upload and download files, and the clients open, read, write, truncate and
close them.  What the clients read is what a plain file system would have given them.

* `TierWork`, `tierSystem`: the daemon's threads and the descriptors of the clients.
* `Disciplined`: the condition on a run.
* `tiering_transparent`: under it, the clients see a plain file system, and no content is lost.
-/

namespace CloudTiering

open Foundations App Concurrency

namespace Tiering

/-! ## The system -/

/-- The descriptor that an outcome leaves open. -/
def descriptor : Outcome → Option Fd
  | .opened (.done (.ok fd)) _ => some fd
  | _ => none

/-- What a thread may do: work of the daemon, a call of the wrapped `open`, and then, through the
descriptor, reads, writes and the `close`.  A client with several descriptors counts as several
threads. -/
inductive TierWork
  | party (work : Work)
  | read (pos n : ℕ)
  | write (pos : ℕ) (bs : Bytes)
  | close

/-- The stage in which a piece of work starts. -/
def workStage (p : Stage) : Work → Stage
  | .uploadRoutine _ secondary => uploadStart secondary
  | .downloadRoutine secondary => .popping secondary
  | .openFile self _ _ path flags => .entering self path flags
  | .poll => p

/-- The program after the outcome `a`, and the stage in which it starts. -/
def TierWork.program (ops : Ops) (a : Outcome) (p : Stage) : TierWork → Option (Sys Outcome × Stage)
  | .party work => match descriptor a with
    | none => (work.program ops a .outside).map fun x => (x.1, workStage p work)
    | some _ => none
  | .read pos n => (descriptor a).map fun fd => (do
      let _ ← sys (.fread fd pos n)
      return a, p)
  | .write pos bs => (descriptor a).map fun fd => (do
      let _ ← sys (.fwrite fd pos bs)
      return a, p)
  | .close => (descriptor a).map fun fd => (do
      let _ ← sys (.closeFile fd)
      return .transferred none, p)

/-- The threads `T`.  No call fails; names come and go. -/
def tierSystem (T : Type) (retries : Int) :
    ThreadSystem Call Rep Outcome T World Choice Stage TierWork (Bytes → Option ℕ) where
  exec _ := execOk
  observe _ p c r := p.next c r
  next _ _ a p work := work.program (s3Ops retries) a p
  env names w := some { w with names := names }

/-- The world and the threads. -/
abbrev TierState (T : Type) := ThreadSystem.State Call Rep Outcome T World Stage

/-- A step of the system. -/
abbrev TierLabel (T : Type) := ThreadSystem.Label T Choice TierWork (Bytes → Option ℕ)

/-- All threads are about to start their first work. -/
def tierAtRest (T : Type) (w : World) : TierState T :=
  ⟨w, fun _ => ⟨.ret (.transferred none), .outside⟩⟩

/-- Where a thread stands whose work has ended. -/
def EndsAt : Outcome → Stage → Prop
  | .transferred _, p => p = .outside
  | .opened opening _, p => OpeningAt opening p

/-- **A piece of work keeps to its stages.** -/
theorem wp_work {retries : Int} {a : Outcome} {p : Stage} {work : Work} {x : Sys Outcome × Phase}
    (ha : EndsAt a p) (h : work.program (s3Ops retries) a .outside = some x) :
    x.1.wp stageCalls EndsAt (workStage p work) := by
  cases work with
  | uploadRoutine buf secondary =>
    obtain ⟨-, hx⟩ := Option.ite_none_left_eq_some.mp h
    obtain rfl := Option.some.inj hx
    exact Prog.wp_bind.mpr
      (Prog.wp_mono (wp_uploadFileRoutine retries buf secondary) fun _ _ hp => hp)
  | downloadRoutine secondary =>
    obtain ⟨-, hx⟩ := Option.ite_none_left_eq_some.mp h
    obtain rfl := Option.some.inj hx
    exact Prog.wp_bind.mpr
      (Prog.wp_mono (wp_downloadFileRoutine retries secondary) fun _ _ hp => hp)
  | openFile self stale vars path flags =>
    obtain ⟨-, hx⟩ := Option.ite_none_left_eq_some.mp h
    obtain rfl := Option.some.inj hx
    exact Prog.wp_bind.mpr (Prog.wp_mono (wp_openFile self stale vars path) fun _ _ hp => hp)
  | poll =>
    cases a with
    | transferred ret => exact absurd h.symm (Option.some_ne_none _)
    | opened opening vars =>
      cases opening with
      | done ret => exact absurd h.symm (Option.some_ne_none _)
      | polling fd flags =>
        obtain rfl := Option.some.inj h
        obtain rfl : p = .waiting fd := ha
        exact Prog.wp_bind.mpr (Prog.wp_mono wp_pollFileLocation fun _ _ hp => hp)

theorem cases_of_endsAt {a : Outcome} {p : Stage} (h : EndsAt a p) :
    p = .outside ∨ ∃ fd, p = .ready fd ∨ p = .waiting fd := by
  cases a with
  | transferred ret => exact .inl h
  | opened opening vars =>
    cases opening with
    | polling fd flags => exact .inr ⟨fd, .inr h⟩
    | done ret =>
      cases ret with
      | ok fd => exact .inr ⟨fd, .inl h⟩
      | error e =>
        obtain ⟨fd, hfd⟩ := h
        exact .inr ⟨fd, .inr hfd⟩

/-- A descriptor is open in the stage that says so. -/
theorem ready_of_descriptor {a : Outcome} {p : Stage} {fd : Fd} (ha : EndsAt a p)
    (hfd : descriptor a = some fd) :
    p = .ready fd := by
  cases a with
  | transferred ret => exact absurd hfd.symm (Option.some_ne_none _)
  | opened opening vars =>
    cases opening with
    | polling fd' flags => exact absurd hfd.symm (Option.some_ne_none _)
    | done ret =>
      cases ret with
      | error e => exact absurd hfd.symm (Option.some_ne_none _)
      | ok fd' =>
        obtain rfl := Option.some.inj hfd
        exact ha

theorem wp_tierWork {retries : Int} {a : Outcome} {p p' : Stage} {work : TierWork}
    {prog : Sys Outcome}
    (ha : EndsAt a p) (h : work.program (s3Ops retries) a p = some (prog, p')) :
    prog.wp stageCalls EndsAt p' ∧ (p' = p ∨ p'.role = .idle) := by
  cases work with
  | party work =>
    unfold TierWork.program at h
    dsimp only at h
    split at h
    · obtain ⟨x, hx, heq⟩ := Option.map_eq_some_iff.mp h
      obtain ⟨rfl, rfl⟩ := Prod.mk.inj heq
      refine ⟨wp_work ha hx, ?_⟩
      cases work with
      | uploadRoutine buf secondary => cases secondary <;> exact .inr rfl
      | poll => exact .inl rfl
      | _ => exact .inr rfl
    · exact absurd h.symm (Option.some_ne_none _)
  | read pos n =>
    obtain ⟨fd, hfd, heq⟩ := Option.map_eq_some_iff.mp h
    obtain ⟨rfl, rfl⟩ := Prod.mk.inj heq
    obtain rfl := ready_of_descriptor ha hfd
    refine ⟨⟨.inl ⟨pos, n, rfl⟩, ?_⟩, .inl rfl⟩
    rintro r p' ⟨-, rfl⟩
    exact ha
  | write pos bs =>
    obtain ⟨fd, hfd, heq⟩ := Option.map_eq_some_iff.mp h
    obtain ⟨rfl, rfl⟩ := Prod.mk.inj heq
    obtain rfl := ready_of_descriptor ha hfd
    refine ⟨⟨.inr (.inl ⟨pos, bs, rfl⟩), ?_⟩, .inl rfl⟩
    rintro r p' ⟨-, rfl⟩
    exact ha
  | close =>
    obtain ⟨fd, hfd, heq⟩ := Option.map_eq_some_iff.mp h
    obtain ⟨rfl, rfl⟩ := Prod.mk.inj heq
    obtain rfl := ready_of_descriptor ha hfd
    refine ⟨⟨.inr (.inr rfl), ?_⟩, .inl rfl⟩
    rintro r p' ⟨-, rfl⟩
    rfl

/-! ## Runs -/

/-- **The condition.**  A file is not locked for an upload while somebody has it open, nor for a
download while somebody truncates it, and it is not opened while it is uploaded, nor opened with
`O_TRUNC` while it is downloaded.  An upload does not store over the object of another file. -/
def Disciplined {T : Type} (s : TierState T) : TierLabel T → Prop
  | .answer t _ => match s.mons t with
    | .locking up fd => (s.world.inode fd.ino).locked = none →
        (up = true → ∀ u, (s.mons u).opens fd.ino = false) ∧
        (up = false → ∀ u, (s.mons u).truncates fd.ino = false)
    | .entering _ path flags => ∀ i, s.world.names path = some i →
        (∀ u, (s.mons u).uploads i = false) ∧
          (flags &&& oTrunc = oTrunc → ∀ u, (s.mons u).downloads i = false)
    | .reading fd .. => ∀ key got f, (s.thread t).prog = .call (.putEnd key got) f →
        KeyUnused s.world s.mons fd.ino key
    | _ => True
  | _ => True

/-- Every remote file has its object, and the length of the object. -/
def ObjectsThere (w : World) : Prop :=
  ∀ i, (w.inode i).stub.isSome = true →
    ∃ object, w.object i = some object ∧ (w.inode i).data.length = object.length

/-- What the files contain. -/
def contents (w : World) (i : ℕ) : Bytes := (w.recoverable i).getD []

variable {T : Type} [DecidableEq T]

omit [DecidableEq T] in
/-- At first, nobody does anything. -/
theorem tierInv_atRest {w : World} (h : ObjectsThere w) :
    TierInv w (contents w) fun _ : T => Stage.outside := by
  refine ⟨fun i =>
    ⟨none, fun t => by simp [Stage.holds, Stage.role, Role.holds], fun hs => absurd hs (by simp)⟩,
    fun t u i hi => absurd hi (by simp [Stage.uploads, Stage.role]),
    fun t u i hi => absurd hi (by simp [Stage.downloads, Stage.role]), fun _ => trivial,
      fun i _ => ?_⟩
  refine ⟨fun hs => ?_, fun hs => ?_⟩
  · have hnone : (w.inode i).stub = none :=
      Option.isNone_iff_eq_none.mp (Option.isSome_eq_false_iff.mp hs)
    rw [view, contents, World.recoverable_of_stub_none hnone]
    rfl
  · obtain ⟨v, hv⟩ := Option.isSome_iff_exists.mp hs
    obtain ⟨object, hobject, hlen⟩ := h i hs
    have hcontent : contents w i = object := by
      rw [contents, World.recoverable_of_stub_some hv, hobject]
      rfl
    exact ⟨hobject.trans (congrArg some hcontent.symm),
      hlen.trans (congrArg List.length hcontent.symm)⟩

omit [DecidableEq T] in
/-- A change of the names. -/
theorem TierInv.rename {w : World} {c : ℕ → Bytes} {m : T → Stage} (h : TierInv w c m)
    (names : Bytes → Option ℕ) :
    TierInv { w with names := names } c m :=
  ⟨h.held, h.closed, h.calm, h.here, h.settled⟩

/-- A thread takes up other work. -/
theorem TierInv.start {w : World} {c : ℕ → Bytes} {m : T → Stage} {t : T} {a : Outcome} {p : Stage}
    (h : TierInv w c m) (ha : EndsAt a (m t)) (hp : p.role = .idle) :
    TierInv w c (Function.update m t p) := by
  have hholds : ∀ i, p.holds i = false := fun i => by rw [Stage.holds, hp]; rfl
  rcases cases_of_endsAt ha with hq | ⟨fd, hq | hq⟩
  all_goals
    refine h.skip hq ⟨.inl hp, fun i => ?_⟩ rfl (.of_idle hp)
    rw [hholds]
    rfl

omit [DecidableEq T] in
/-- What is recoverable of a file that nobody is truncating. -/
theorem TierInv.recoverable {w : World} {c : ℕ → Bytes} {m : T → Stage} {i : ℕ} (h : TierInv w c m)
    (hi : ∀ t, (m t).truncates i = false) : w.recoverable i = some (c i) := by
  have hof : ((view w c i).stub = false → (view w c i).data = (view w c i).content) →
      ((view w c i).stub = true → (view w c i).There w.store) → w.recoverable i = some (c i) := by
    intro hlocal hremote
    cases hs : (w.inode i).stub with
    | none =>
      rw [World.recoverable_of_stub_none hs]
      exact congrArg some (hlocal (congrArg Option.isSome hs))
    | some v =>
      rw [World.recoverable_of_stub_some hs]
      exact hremote (congrArg Option.isSome hs)
  by_cases hall : ∀ t, (m t).unsettles i = false
  · exact hof (h.settled i hall).1 fun hs => ((h.settled i hall).2 hs).1
  obtain ⟨t, ht⟩ := not_forall.mp hall
  rw [Bool.not_eq_false] at ht
  have hino := ino_of_unsettles ht
  have htrunc := hi t
  rw [Stage.unsettles, Bool.and_eq_true_iff, Bool.or_eq_true_iff] at ht
  rw [Stage.truncates] at htrunc
  rcases ht.1 with hr | he
  · rw [hr, ht.2] at htrunc
    exact absurd htrunc (by simp)
  · -- an upload is between its two calls of `ftruncate`
    have hat := h.here_of_eq (t := t) rfl hino
    cases hp : m t with
    | emptied fd n =>
      rw [hp] at hat
      exact hof (fun hs => absurd (hat.1.symm.trans hs) Bool.noConfusion) fun _ => hat.2.1
    | _ =>
      rw [hp] at he
      exact absurd he Bool.false_ne_true

/-- **Tiering is transparent.**  In a disciplined run, whatever the daemon's threads do in the
meantime, all reads return what a plain file system would have returned after the same writes and
truncations.  The content of the plain file system is what is recoverable of each file that nobody
is truncating, and its length is the length of each file that no thread has left half-way. -/
theorem tiering_transparent {retries : Int} {w : World} {s : TierState T} {tr : List FsEvent}
    (hthere : ObjectsThere w)
    (h : Trace (tierSystem T retries).step Disciplined ((tierSystem T retries).events Stage.emits)
      (tierAtRest T w)
      tr s) :
    ∃ c, run plainStep (contents w) tr = some c ∧
      (∀ i, (∀ t, (s.mons t).truncates i = false) → s.world.recoverable i = some (c i)) ∧
      ∀ i, (∀ t, (s.mons t).unsettles i = false) →
        (s.world.inode i).data.length = (c i).length := by
  have hinv : ∃ c, run plainStep (contents w) tr = some c ∧ TierInv s.world c s.mons := by
    refine ThreadSystem.accepted (K := stageCalls) (Q := EndsAt) (I := fun w m c => TierInv w c m) h
      (tierInv_atRest hthere) (fun _ => rfl) ?_ ?_ ?_
    · intro s c t k call f r w' hI hP hp hpre he
      simp only [Disciplined] at hP
      obtain ⟨hans, hnext⟩ := hI.answer hpre he (fun up fd ht => by rw [ht] at hP; exact hP)
        (fun self path flags i ht => by rw [ht] at hP; exact hP i) fun fd d n got key ht hc => by
          subst hc
          rw [ht] at hP
          exact hP key got f hp
      exact ⟨⟨hans, rfl⟩, hnext⟩
    · intro s c t work a prog p hI _ _ ha hn
      obtain ⟨hwp, hstage⟩ := wp_tierWork ha hn
      refine ⟨hwp, ?_⟩
      rcases hstage with rfl | hidle
      · rw [Function.update_eq_self]
        exact hI
      · exact hI.start ha hidle
    · intro s c names w' hI _ he
      obtain rfl := Option.some.inj he
      exact hI.rename names
  obtain ⟨c, hrun, hI⟩ := hinv
  refine ⟨c, hrun, fun i hi => hI.recoverable hi, fun i hi => ?_⟩
  obtain ⟨hlocal, hremote⟩ := hI.settled i hi
  cases hs : (view s.world c i).stub with
  | false => exact congrArg List.length (hlocal hs)
  | true => exact (hremote hs).2

/-! ## A run -/

/-- A call that names the object of file `0`, if of any. -/
def namesFirst : Call → Bool
  | .fsetxattr fd .objectId _ _ => fd.ino = 0
  | .getxattrProcSelf .. | .uploadObject .. | .downloadObject .. => false
  | _ => true

theorem objectId_of_namesFirst {w w' : World} {ch : Choice} {call : Call} {r : Rep call} {j : ℕ}
    (hc : namesFirst call = true) (he : exec w ch call = some (r, w')) (hj : j ≠ 0)
    (hnone : (w.inode j).objectId = none) : (w'.inode j).objectId = none := by
  have hneutral : isNeutral call = true → (w'.inode j).objectId = none := by
    intro hn
    have hsame := exec_neutral hn he j .objectId
    rw [show (w.inode j).xattr .objectId = none from hnone] at hsame
    exact Option.isNone_iff_eq_none.mp (Option.isSome_eq_false_iff.mp hsame)
  have hset : ∀ (i : ℕ) (x : Xattr) (v : Option Bytes), (x = .objectId → i = 0 ∨ v = none) →
      ((w.update i ((w.inode i).setXattr v x)).inode j).objectId = none := by
    intro i x v hx
    by_cases hi : j = i ∧ x = .objectId
    · obtain ⟨rfl, rfl⟩ := hi
      obtain rfl := (hx rfl).resolve_left hj
      exact World.xattr_setXattr_self w j none .objectId
    · refine Eq.trans (World.xattr_setXattr_of_ne w v (y := .objectId) fun hi' hx' =>
        hi ⟨hi', hx'.symm⟩) hnone
  cases call with
  | fsetxattr fd x v flag =>
    cases flag with
    | replace => exact hneutral rfl
    | create =>
      rcases exec_fsetxattr_create he with ⟨-, -, rfl⟩ | ⟨e, -, rfl, -⟩
      · refine hset _ _ _ fun hx => .inl ?_
        subst hx
        exact of_decide_eq_true hc
      · exact hnone
  | fremovexattr fd x =>
    rcases exec_fremovexattr he with ⟨-, -, rfl⟩ | ⟨e, -, rfl, -⟩
    · exact hset _ _ _ fun _ => .inr rfl
    · exact hnone
  | getxattrProcSelf fd x => exact absurd hc Bool.false_ne_true
  | uploadObject fd key => exact absurd hc Bool.false_ne_true
  | downloadObject fd key => exact absurd hc Bool.false_ne_true
  | _ => exact hneutral rfl

/-- `Disciplined` as a test, for two threads and one file with an object. -/
def disciplined (s : TierState Bool) : TierLabel Bool → Bool
  | .answer t _ => match (s.thread t).prog with
    | .call call _ => namesFirst call && match s.mons t with
      | .locking up fd => [false, true].all fun u =>
          !(if up then (s.mons u).opens fd.ino else (s.mons u).truncates fd.ino)
      | .entering _ path _ => match s.world.names path with
        | some i => [false, true].all fun u => !(s.mons u).uploads i && !(s.mons u).downloads i
        | none => true
      | .reading fd .. => match call with
        | .putEnd .. => decide (fd.ino = 0) && [false, true].all fun u =>
            (s.mons u).role = .idle || (s.mons u).ino = 0
        | _ => true
      | _ => true
    | .ret _ => true
  | .start .. => true
  | .env _ => false

/-- Only file `0` has an object. -/
def FirstOnly (s : TierState Bool) : Prop := ∀ j, j ≠ 0 → (s.world.inode j).objectId = none

theorem all_of_test {f : Bool → Bool} (h : ([false, true].all f) = true) (u : Bool) : f u = true :=
  List.all_eq_true.mp h u (by cases u <;> simp)

theorem disciplined_sound {s s' : TierState Bool} {l : TierLabel Bool} (hI : FirstOnly s)
    (h : disciplined s l = true) (hs : (tierSystem Bool 3).step s l = some s') :
    Disciplined s l ∧ FirstOnly s' := by
  cases l with
  | start t work =>
    obtain ⟨a, p, m, -, -, rfl⟩ := ThreadSystem.step_start hs
    exact ⟨trivial, hI⟩
  | env names => exact absurd h Bool.false_ne_true
  | answer t k =>
    obtain ⟨call, f, r, w, hp, he, rfl⟩ := ThreadSystem.step_answer hs
    simp only [disciplined, hp] at h
    obtain ⟨hnames, htest⟩ := Bool.and_eq_true_iff.mp h
    refine ⟨?_, fun j hj => objectId_of_namesFirst hnames (execOk_eq_some he).2.1 hj (hI j hj)⟩
    unfold Disciplined
    dsimp only
    cases hm : s.mons t with
    | locking up fd =>
      rw [hm] at htest
      refine fun _ => ⟨fun hup u => ?_, fun hdown u => ?_⟩
      · simpa [hup] using all_of_test htest u
      · simpa [hdown] using all_of_test htest u
    | entering self path flags =>
      intro i hi
      rw [hm] at htest
      dsimp only at htest
      rw [hi] at htest
      have hall : ∀ u, (s.mons u).uploads i = false ∧ (s.mons u).downloads i = false := fun u => by
        simpa using all_of_test htest u
      exact ⟨fun u => (hall u).1, fun _ u => (hall u).2⟩
    | reading fd d n got =>
      intro key got' f' hcall
      rw [hm] at htest
      obtain ⟨hput, -⟩ := Prog.call.inj (hp.symm.trans hcall)
      subst hput
      obtain ⟨hfd, htest⟩ := Bool.and_eq_true_iff.mp htest
      have hfd : fd.ino = 0 := of_decide_eq_true hfd
      refine ⟨fun j x hx _ => ?_, fun u fd' d' hu => ?_⟩
      · by_contra hj
        rw [hfd] at hj
        rw [hI j hj] at hx
        exact absurd hx.symm (Option.some_ne_none x)
      · have hzero := all_of_test htest u
        rw [hu] at hzero
        exact (of_decide_eq_true hzero : fd'.ino = 0).trans hfd.symm
    | _ => trivial

/-- A local file. -/
def localFile : World where
  inode i := if i = 0 then { data := [1, 2] } else {}
  names path := if path = [102] then some 0 else none
  store _ := none
  maxRequests := 1

/-- The file is uploaded; a client opens it, waits until it has been downloaded, reads it, writes
into it and closes it; and the file is uploaded again. -/
def roundTrip : List (TierLabel Bool) :=
  let upload := .start false (.party uploadIt) :: [.ok, .ok, .ok, .ok, .ok, .ok, .size 4096, .ok,
    .ok, .ok, .ok, .ok,
    .ok, .ok, .ok, .ok, .ok].map (.answer false)
  upload ++
    .start true (.party (.openFile 1 [] {} [102] oRdwr)) ::
      [.size 3, .ok, .ok, .ok, .ok, .ok, .ok].map (.answer true) ++
    .start false (.party (.downloadRoutine none)) :: [.ok, .ok, .ok, .ok, .ok, .ok, .ok, .ok,
      .size 4096, .ok, .ok,
      .ok, .ok, .ok, .ok, .ok].map (.answer false) ++
    [.start true (.party .poll), .answer true .ok, .start true (.read 0 2), .answer true .ok,
      .start true (.write 1 [7]), .answer true .ok, .start true .close, .answer true .ok] ++ upload

/-- After the round trip, the file is remote again, and what the client has written is there. -/
theorem tiering_transparent_roundTrip :
    ∃ (s : TierState Bool) (tr : List FsEvent), Trace (tierSystem Bool 3).step Disciplined
        ((tierSystem Bool 3).events Stage.emits) (tierAtRest Bool localFile) tr s ∧
      (s.world.inode 0).stub.isSome = true ∧ s.world.recoverable 0 = some [1, 7] ∧
      ∃ c, run plainStep (contents localFile) tr = some c ∧
        (∀ i, (∀ t, (s.mons t).truncates i = false) → s.world.recoverable i = some (c i)) ∧
        ∀ i, (∀ t, (s.mons t).unsettles i = false) →
          (s.world.inode i).data.length = (c i).length := by
  have hrun : ((run (guardedBy disciplined (tierSystem Bool 3).step) (tierAtRest Bool localFile)
      roundTrip).any fun s => (s.world.inode 0).stub.isSome && s.world.recoverable 0 ==
          some [1, 7]) = true := by
    decide +kernel
  obtain ⟨s, hs, hp⟩ := (Option.any_eq_true _ _).mp hrun
  obtain ⟨hstub, hcontent⟩ := Bool.and_eq_true_iff.mp hp
  obtain ⟨tr, htr⟩ : ∃ tr, Trace (tierSystem Bool 3).step Disciplined
      ((tierSystem Bool 3).events Stage.emits)
      (tierAtRest Bool localFile) tr s := by
    refine exists_trace_of_guarded (I := FirstOnly) (fun j hj => ?_)
      (fun s l t => disciplined_sound) hs
    show (if j = 0 then ({ data := [1, 2] } : Inode) else {}).objectId = none
    rw [if_neg hj]
  refine ⟨s, tr, htr, hstub, beq_iff_eq.mp hcontent, tiering_transparent (fun i hi => ?_) htr⟩
  have hnone : (localFile.inode i).stub = none := by
    show (if i = 0 then ({ data := [1, 2] } : Inode) else {}).stub = none
    split <;> rfl
  rw [hnone] at hi
  exact absurd hi Bool.false_ne_true

end Tiering

end CloudTiering
