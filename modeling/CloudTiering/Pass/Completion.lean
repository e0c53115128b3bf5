import CloudTiering.Daemon.Transfer
import CloudTiering.Foundations.Transition
import CloudTiering.Pass.Scan
import CloudTiering.Pass.Upload

/-!
# A whole pass of the daemon

The scan pushes paths into the secondary upload queue, which may be small, and the upload thread
takes them out and uploads, with any interleaving of the calls of the two threads.  No call fails.

* `Setup`, `State`, `Setup.step`: the two threads.
* `Setup.Sound`: the tree before the pass.  Every key is meant for one file.
* `Setup.Complete`: just the files that were due have been evicted.
* `Working`, `Watching`: the invariant.
* `pass_completes`: every run comes to an end, and there the pass is complete.
-/

namespace CloudTiering

open Foundations App Daemon Recovery

namespace Pass

/-! ## The two threads -/

/-- The mounted tree, the time at which a path is looked at, and the configuration; `maxSize` is the
size of the queue. -/
structure Setup where
  tree : Mounted
  now : Bytes → TimeT
  pathMax : ℕ
  rlimCur : ℕ
  maxSize : ℕ
  retries : Int

/-- The files, the queue, and what is left of the scan and of an iteration of the upload thread. -/
structure State where
  world : World
  queue : List Bytes
  scan : Policy ℤ
  upload : Sys (Option Int)

inductive Label
  /-- The next call of the scan. -/
  | scan
  /-- The upload thread takes a path out of the queue; `buf` is what its id buffer holds. -/
  | pop (buf : Bytes)
  /-- The next call of the upload thread. -/
  | upload (ch : Choice)

namespace Setup

variable (S : Setup)

/-- The paths of the tree. -/
def paths : List Bytes := S.tree.objects.map Prod.fst

/-- `queue_push` waits while the queue is full. -/
def waits (s : State) : PolicyCall → Prop
  | .queuePush data => data.length ≠ 0 ∧ data.length ≤ S.pathMax ∧ S.maxSize ≤ s.queue.length
  | _ => False

instance (s : State) (c : PolicyCall) : Decidable (S.waits s c) :=
  match c with
  | .queuePush data =>
      inferInstanceAs
        (Decidable (data.length ≠ 0 ∧ data.length ≤ S.pathMax ∧ S.maxSize ≤ s.queue.length))
  | .sys _ | .fstat _ | .time _ | .getrlimit => inferInstanceAs (Decidable False)

/-- A step.  The descriptors of the scan are its own.  An attempt on an empty queue changes nothing
and is not a step. -/
def step (s : State) : Label → Option State
  | .scan =>
      match s.scan with
      | .ret _ => none
      | .call c f =>
          if S.waits s c then none
          else (S.tree.answer S.now S.pathMax S.rlimCur ⟨s.world, s.queue⟩ c).map fun a =>
            { s with
              world := { a.2.world with opened := s.world.opened, closed := s.world.closed }
              queue := a.2.pushed
              scan := f a.1 }
  | .pop buf =>
      match s.upload, s.queue with
      | .ret _, data :: rest =>
          if buf.length = s3XattrSize then
            some { s with queue := rest, upload :=
              uploadFileRoutine (s3Ops S.retries) buf (some data) }
          else none
      | _, _ => none
  | .upload ch =>
      if CarriedOut ch then (s.upload.step exec ch s.world).map fun a =>
        { s with world := a.2, upload := a.1 }
      else none

/-- The beginning of a pass. -/
def start : State where
  world := S.tree.world
  queue := []
  scan := scanFs S.paths
  upload := .ret none

/-! ## What the pass is for -/

/-- The file is due for eviction, under one of its paths. -/
def DueFile (i : ℕ) : Prop := ∃ v ∈ S.tree.objects, v.2.opened = some i ∧
    S.tree.Due S.now S.pathMax v.1 i

/-- The tree before a pass: every regular file is local with its content, or evicted.  `owner` says
for which file an object of the store is meant, going by the paths of the files and by the ids that
they have. -/
structure Sound (content : ℕ → Bytes) (owner : Bytes → ℕ) : Prop where
  limit : 2 < S.rlimCur
  room : 0 < S.maxSize
  paths : ∀ v ∈ S.tree.objects, 0 ∉ v.1
  settled : ∀ i, (S.tree.stat i).regular = true → Settled (content i) i S.tree.world
  names : ∀ v ∈ S.tree.objects, ∀ i, v.2.opened = some i → owner (objectName v.1) = i
  ids : ∀ i v, (S.tree.world.inode i).objectId = some v → owner (cString v) = i

/-- **The pass is complete**: the files that were due have been evicted with their contents in the
store, and nothing else has changed. -/
structure Complete (content : ℕ → Bytes) (owner : Bytes → ℕ) (w : World) : Prop where
  names : w.names = S.tree.world.names
  evicted : ∀ i, S.DueFile i → IsEvicted (content i) i w
  others : ∀ i, ¬ S.DueFile i → w.inode i = S.tree.world.inode i
  store : ∀ k, ¬ S.DueFile (owner k) → w.store k = S.tree.world.store k

/-! ## Every run comes to an end -/

/-- A step of the scan uses up a call of it, one that takes a path out of the queue shortens the
queue, and a step of the upload thread uses up a call of its iteration. -/
theorem wellFounded_step : WellFounded fun t s => ∃ l, S.step s l = some t := by
  have hwf := InvImage.wf (fun s : State => (s.scan, s.queue.length, s.upload))
    (WellFounded.prod_lex Prog.wellFounded_rest
      (WellFounded.prod_lex Nat.lt_wfRel.wf Prog.wellFounded_rest))
  refine Subrelation.wf ?_ hwf
  rintro t s ⟨l, hl⟩
  cases l with
  | scan =>
    unfold step at hl
    dsimp only at hl
    cases hscan : s.scan with
    | ret r => rw [hscan] at hl; exact absurd hl.symm (Option.some_ne_none t)
    | call c f =>
      rw [hscan] at hl
      obtain ⟨-, hanswer⟩ := Option.ite_none_left_eq_some.mp hl
      obtain ⟨a, -, rfl⟩ := Option.map_eq_some_iff.mp hanswer
      refine .left _ _ ?_
      rw [hscan]
      exact .answered c f a.1
  | pop buf =>
    unfold step at hl
    dsimp only at hl
    split at hl
    next r data rest hupload hqueue =>
      obtain ⟨-, heq⟩ := Option.ite_none_right_eq_some.mp hl
      obtain rfl := Option.some.inj heq
      refine .right _ (.left _ _ ?_)
      rw [hqueue]
      exact Nat.lt_succ_self _
    next => exact absurd hl.symm (Option.some_ne_none t)
  | upload ch =>
    obtain ⟨-, hstep⟩ := Option.ite_none_right_eq_some.mp hl
    obtain ⟨a, ha, rfl⟩ := Option.map_eq_some_iff.mp hstep
    obtain ⟨c, f, r, hp, -, ha'⟩ := Prog.step_eq_some ha
    refine .right _ (.right _ ?_)
    rw [hp]
    show Prog.Rest a.1 _
    rw [ha']
    exact .answered c f r

end Setup

/-! ## The upload thread -/

section

variable {S : Setup} {content : ℕ → Bytes} {owner : Bytes → ℕ} {s s' : State} {w w₁ : World} {i : ℕ}
  {key : Bytes}

/-- What holds between two uploads: the files are as before the pass, or due and evicted. -/
structure Between (S : Setup) (content : ℕ → Bytes) (owner : Bytes → ℕ) (w : World) : Prop where
  names : w.names = S.tree.world.names
  files : ∀ i, w.inode i = S.tree.world.inode i ∨ S.DueFile i ∧ (w.inode i).stub.isSome = true
  settled : ∀ i, (S.tree.stat i).regular = true → Settled (content i) i w
  ids : ∀ i v, (w.inode i).objectId = some v → owner (cString v) = i
  store : ∀ k, ¬ S.DueFile (owner k) → w.store k = S.tree.world.store k

theorem between_start (h : S.Sound content owner) : Between S content owner S.tree.world :=
  ⟨rfl, fun _ => .inl rfl, h.settled, h.ids, fun _ _ => rfl⟩

/-- An evicted file is a stub. -/
theorem stub_of_isEvicted {orig : Bytes} (h : IsEvicted orig i w) :
    (w.inode i).stub.isSome = true := by
  obtain ⟨v, hv, -⟩ := h
  rw [hv]
  rfl

/-- **One more upload.**  The other files keep what their ids name, as the key is not meant for
them. -/
theorem Between.uploaded (h : Between S content owner w₁) (hdue : S.DueFile i)
    (hkey : owner key = i)
    (hu : Uploaded w₁ i (content i) key w) : Between S content owner w := by
  have hstub := stub_of_isEvicted hu.evicted
  refine ⟨hu.names.trans h.names, fun j => ?_, fun j hj => ?_, fun j v hv => ?_, fun k hk => ?_⟩
  · by_cases hji : j = i
    · subst hji
      exact .inr ⟨hdue, hstub⟩
    · rw [hu.others j hji]
      exact h.files j
  · by_cases hji : j = i
    · subst hji
      exact .inr hu.evicted
    · refine (h.settled j hj).of_inode_eq (hu.others j hji) fun v hv => hu.store _ ?_
      rintro rfl
      exact hji ((h.ids j v hv).symm.trans hkey)
  · by_cases hji : j = i
    · subst hji
      rcases hu.id v hv with hid | rfl
      · exact h.ids j v hid
      · exact hkey
    · rw [hu.others j hji] at hv
      exact h.ids j v hv
  · refine (hu.store k ?_).trans (h.store k hk)
    rintro rfl
    exact hk (hkey.symm ▸ hdue)

/-- Where the upload thread is: between two uploads, or in the upload of a file. -/
inductive Working (S : Setup) (content : ℕ → Bytes) (owner : Bytes → ℕ) (w : World) :
    Sys (Option Int) → Option ℕ → Prop
  | idle (r : Option Int) (h : Between S content owner w) : Working S content owner w (.ret r) none
  | busy {w₁ : World} {i : ℕ} {key : Bytes} {c : Call} {f : Rep c → Sys (Option Int)}
      (h : Between S content owner w₁) (hdue : S.DueFile i) (hkey : owner key = i)
      (hw : Uploading w₁ i w)
      (hf : (Prog.call c f).wp (carriedOutCalls (Uploading w₁ i))
        (fun _ => Uploaded w₁ i (content i) key) w) :
      Working S content owner w (.call c f) (some i)

/-- What is left of an upload, which may have returned. -/
theorem Working.of_wp {p : Sys (Option Int)} (h : Between S content owner w₁) (hdue : S.DueFile i)
    (hkey : owner key = i)
    (hp : p.wp (carriedOutCalls (Uploading w₁ i)) (fun _ => Uploaded w₁ i (content i) key) w) :
    ∃ cur, Working S content owner w p cur ∧ (cur = some i ∨ (w.inode i).stub.isSome = true) ∧
      ∀ j, j ≠ i → w.inode j = w₁.inode j := by
  cases p with
  | ret r => exact ⟨none, .idle r (h.uploaded hdue hkey hp), .inr (stub_of_isEvicted hp.evicted),
      hp.others⟩
  | call c f => exact ⟨some i, .busy h hdue hkey hp.1.2 hp, .inl rfl, hp.1.2.others⟩

/-- The names stay. -/
theorem Working.names {p : Sys (Option Int)} {cur : Option ℕ}
    (h : Working S content owner w p cur) :
    w.names = S.tree.world.names := by
  cases h with
  | idle r h => exact h.names
  | busy h _ _ hw _ => exact hw.names.trans h.names

/-- A file that is not due is as it was. -/
theorem Working.inode_eq {p : Sys (Option Int)} {cur : Option ℕ}
    (h : Working S content owner w p cur)
    (hdue : ¬ S.DueFile i) : w.inode i = S.tree.world.inode i := by
  cases h with
  | idle r h => exact (h.files i).resolve_right fun hi => hdue hi.1
  | busy h hj _ hw _ =>
    rw [hw.others i fun heq => hdue (heq ▸ hj)]
    exact (h.files i).resolve_right fun hi => hdue hi.1

/-- A file without a stub had none before the pass. -/
theorem Working.stub_eq_none {p : Sys (Option Int)} {cur : Option ℕ}
    (h : Working S content owner w p cur)
    (hstub : (w.inode i).stub = none) : (S.tree.world.inode i).stub = none := by
  have hfiles : ∀ u : World, Between S content owner u → (u.inode i).stub = none →
      (S.tree.world.inode i).stub = none := fun u hu hn => by
    rcases hu.files i with heq | ⟨-, hsome⟩
    · rw [← heq]
      exact hn
    · exact absurd hsome (by rw [hn]; exact Bool.false_ne_true)
  cases h with
  | idle r h => exact hfiles w h hstub
  | @busy u j _ _ _ h _ _ hw _ =>
    refine hfiles u h ?_
    by_cases hij : i = j
    · subst hij
      by_contra hne
      have hsome := hw.stub (Option.isSome_iff_ne_none.mpr hne)
      exact absurd hsome (by rw [hstub]; exact Bool.false_ne_true)
    · rw [← hw.others i hij]
      exact hstub

/-! ## The scan -/

/-- How a call of the scan is answered, and what is in the queue afterwards. -/
inductive Answered (S : Setup) (s : State) : (c : PolicyCall) → PolicyRep c → List Bytes → Prop
  | found (path : Bytes) (fd : Fd) (h : s.world.names path = some fd.ino) :
      Answered S s (.sys (.openFile path)) (.ok fd) s.queue
  | missing (path : Bytes) (e : Errno) (h : s.world.names path = none) :
      Answered S s (.sys (.openFile path)) (.error e) s.queue
  | isLocal (fd : Fd) (h : (s.world.inode fd.ino).stub = none) :
      Answered S s (.sys (.fgetxattr fd .stub 0)) (.error .enoattr) s.queue
  | isRemote (fd : Fd) (h : (s.world.inode fd.ino).stub.isSome = true) :
      Answered S s (.sys (.fgetxattr fd .stub 0)) (.ok []) s.queue
  | closed (fd : Fd) : Answered S s (.sys (.closeFile fd)) (.ok ()) s.queue
  | fstat (fd : Fd) : Answered S s (.fstat fd) (.ok (S.tree.stat fd.ino)) s.queue
  | time (path : Bytes) : Answered S s (.time path) (S.now path) s.queue
  | getrlimit : Answered S s .getrlimit (.ok S.rlimCur) s.queue
  | pushed (data : Bytes) (h : data.length ≤ S.pathMax) :
      Answered S s (.queuePush data) (.ok ()) (s.queue ++ [data])
  | refused (data : Bytes) (h : data.length = 0 ∨ S.pathMax < data.length) :
      Answered S s (.queuePush data) (.error .eio) s.queue

theorem Answered.truthful {c : PolicyCall} {r : PolicyRep c} {queue : List Bytes}
    (h : Answered S s c r queue) :
    truthful S.tree S.now S.pathMax S.rlimCur c r := by
  cases h with
  | found | missing | closed => trivial
  | isLocal => exact .inr rfl
  | isRemote => exact .inl rfl
  | fstat | time | getrlimit => rfl
  | pushed => exact fun _ _ => rfl
  | refused data h => exact fun hne hle => absurd h (not_or_intro hne (Nat.not_lt_of_le hle))

variable {x : Sight} {c : PolicyCall} {f : PolicyRep c → Policy ℤ}

/-- **A call of the scan** that it may make is answered, unless it has to wait. -/
theorem step_scan (hscan : s.scan = .call c f) (hmay : mayCall S.tree S.now S.pathMax S.paths x c)
    (hgo : ¬ S.waits s c) :
    ∃ r queue, Answered S s c r queue ∧
      S.step s .scan = some { s with queue := queue, scan := f r } := by
  have hanswer : ∀ (opened : ℕ) (closed : List ℕ) (r : PolicyRep c) (queue : List Bytes),
      S.tree.answer S.now S.pathMax S.rlimCur ⟨s.world, s.queue⟩ c =
        some (r, ⟨{ s.world with opened := opened, closed := closed }, queue⟩) →
      S.step s .scan = some { s with queue := queue, scan := f r } := fun _ _ _ _ ha => by
    rw [Setup.step, hscan]
    dsimp only
    rw [if_neg hgo, ha]
    rfl
  have hsame := hanswer s.world.opened s.world.closed
  cases c with
  | sys c =>
    cases c with
    | openFile path =>
      have hopen : S.tree.answer S.now S.pathMax S.rlimCur ⟨s.world, s.queue⟩
          (.sys (.openFile path)) =
          some ((s.world.openFile path).1, ⟨(s.world.openFile path).2, s.queue⟩) := rfl
      cases hname : s.world.names path with
      | none =>
        rw [World.openFile, hname] at hopen
        exact ⟨_, _, .missing path _ hname, hsame _ _ hopen⟩
      | some i =>
        rw [World.openFile, hname] at hopen
        exact ⟨_, _, .found path ⟨i, _⟩ hname,
          hanswer (s.world.opened + 1) s.world.closed _ _ hopen⟩
    | fgetxattr fd a size =>
      obtain ⟨rfl, rfl, -⟩ := hmay
      have hget : S.tree.answer S.now S.pathMax S.rlimCur ⟨s.world, s.queue⟩
          (.sys (.fgetxattr fd .stub 0)) =
          some (s.world.fgetxattr fd.ino .stub 0, ⟨s.world, s.queue⟩) := rfl
      cases hstub : (s.world.inode fd.ino).stub with
      | none =>
        rw [World.fgetxattr, show (s.world.inode fd.ino).xattr .stub = none from hstub] at hget
        exact ⟨_, _, .isLocal fd hstub, hsame _ _ hget⟩
      | some v =>
        rw [World.fgetxattr, show (s.world.inode fd.ino).xattr .stub = some v from hstub] at hget
        exact ⟨_, _, .isRemote fd (by rw [hstub]; rfl), hsame _ _ hget⟩
    | closeFile fd =>
      exact ⟨_, _, .closed fd, hanswer s.world.opened (fd.num :: s.world.closed) _ _ rfl⟩
    | _ => exact hmay.elim
  | fstat fd => exact ⟨_, _, .fstat fd, hsame _ _ rfl⟩
  | time path => exact ⟨_, _, .time path, hsame _ _ rfl⟩
  | getrlimit => exact ⟨_, _, .getrlimit, hsame _ _ rfl⟩
  | queuePush data =>
    by_cases hbad : data.length = 0 ∨ S.pathMax < data.length
    · exact ⟨_, _, .refused data hbad, hsame _ _ (if_pos hbad)⟩
    · have hle : data.length ≤ S.pathMax := Nat.le_of_not_lt fun hlt => hbad (.inr hlt)
      exact ⟨_, _, .pushed data hle, hsame _ _ (if_neg hbad)⟩

/-- The file with this path will have been evicted at the end: it is a stub, or in the hands of the
upload thread, or its path is in the queue. -/
def Handled (s : State) (cur : Option ℕ) (path : Bytes) (i : ℕ) : Prop :=
  (s.world.inode i).stub.isSome = true ∨ cur = some i ∨ path ++ [0] ∈ s.queue

/-- What is known of the path that the scan is at. -/
structure LookingAt (S : Setup) (s : State) (cur : Option ℕ) (x : Sight) (path : Bytes) (i : ℕ) :
    Prop where
  mem : path ∈ S.paths
  name : S.tree.world.names path = some i
  remote : x.isLocal = some false → Handled s cur path i
  wasLocal : x.isLocal = some true → (S.tree.world.inode i).stub = none
  pushed : x.pushed = true → Handled s cur path i

/-- The scan, what it has seen, and the queue. -/
structure Watching (S : Setup) (s : State) (cur : Option ℕ) (x : Sight) : Prop where
  scan : s.scan.wp (scanCalls S.tree S.now S.pathMax S.rlimCur S.paths)
    (fun ret y => ret = 0 ∧ y.done = S.paths) x
  file : ∀ path i, x.file = some (path, i) → LookingAt S s cur x path i
  done : ∀ path ∈ x.done, ∀ i, S.tree.world.names path = some i →
    Stale S.tree S.now S.pathMax path i →
    Handled s cur path i
  queue : ∀ e ∈ s.queue, ∃ v ∈ S.tree.objects, ∃ i, v.2.opened = some i ∧
    S.tree.Due S.now S.pathMax v.1 i ∧
    e = v.1 ++ [0]

/-- A step of the upload thread, in which no file is dropped. -/
theorem Watching.mono {cur cur' : Option ℕ} (h : Watching S s cur x) (hscan : s'.scan = s.scan)
    (hqueue : ∀ e ∈ s'.queue, e ∈ s.queue)
    (hhandled : ∀ path i, S.tree.world.names path = some i → Handled s cur path i →
      Handled s' cur' path i) :
    Watching S s' cur' x := by
  refine ⟨by rw [hscan]; exact h.scan, fun path i hfile => ?_, fun path hpath i hname hstale => ?_,
    fun e he => h.queue e (hqueue e he)⟩
  · have hat := h.file path i hfile
    exact ⟨hat.mem, hat.name, fun hr => hhandled path i hat.name (hat.remote hr), hat.wasLocal,
      fun hp => hhandled path i hat.name (hat.pushed hp)⟩
  · exact hhandled path i hname (h.done path hpath i hname hstale)

/-! ## The steps -/

/-- The invariant. -/
def PassInv (S : Setup) (content : ℕ → Bytes) (owner : Bytes → ℕ) (s : State) : Prop :=
  ∃ x cur, Working S content owner s.world s.upload cur ∧ Watching S s cur x

/-- A step of the scan. -/
theorem Watching.answered {cur : Option ℕ} {r : PolicyRep c} {queue : List Bytes}
    (h : Watching S s cur x)
    (hwork : Working S content owner s.world s.upload cur) (hscan : s.scan = .call c f)
    (hr : Answered S s c r queue) :
    Watching S { s with queue := queue, scan := f r } cur (observe x c r) := by
  have hwp := h.scan
  rw [hscan] at hwp
  have hmay := hwp.1
  have hrest := Prog.wp_call hwp ⟨hr.truthful, rfl⟩
  have hsub : ∀ e ∈ s.queue, e ∈ queue := fun e he => by
    cases hr with
    | pushed data _ => exact List.mem_append_left _ he
    | _ => exact he
  have hhandled : ∀ path i, Handled s cur path i →
      Handled { s with queue := queue, scan := f r } cur path i :=
    fun path i hi => hi.imp id (Or.imp id (hsub _))
  have hdone : ∀ path ∈ x.done, ∀ i, S.tree.world.names path = some i →
      Stale S.tree S.now S.pathMax path i →
      Handled { s with queue := queue, scan := f r } cur path i := fun path hpath i hname hstale =>
    hhandled path i (h.done path hpath i hname hstale)
  have hfile : ∀ path i, x.file = some (path, i) →
      LookingAt S { s with queue := queue, scan := f r } cur x path i := fun path i hi =>
    have hat := h.file path i hi
    ⟨hat.mem, hat.name, fun hl => hhandled path i (hat.remote hl), hat.wasLocal,
      fun hp => hhandled path i (hat.pushed hp)⟩
  cases hr with
  | found path fd hname =>
    refine ⟨hrest, fun path' i hi => ?_, hdone, h.queue⟩
    obtain ⟨rfl, rfl⟩ := Prod.mk.inj (Option.some.inj hi)
    rw [hwork.names] at hname
    exact ⟨hmay.2, hname, fun hl => absurd hl.symm (Option.some_ne_none _),
      fun hl => absurd hl.symm (Option.some_ne_none _),
      fun hp => absurd hp Bool.false_ne_true⟩
  | missing path e hname =>
    refine ⟨hrest, fun path' i hi => absurd (hmay.1.symm.trans hi).symm (Option.some_ne_none _),
      fun path' hpath i hi hstale => ?_, h.queue⟩
    rcases List.mem_append.mp hpath with hpath | hpath
    · exact hdone path' hpath i hi hstale
    · rw [List.mem_singleton.mp hpath, ← hwork.names, hname] at hi
      exact absurd hi.symm (Option.some_ne_none i)
  | isLocal fd hstub =>
    refine ⟨hrest, fun path i hi => ?_, hdone, h.queue⟩
    have hat := hfile path i hi
    obtain ⟨-, -, path', hfd⟩ := hmay
    obtain ⟨rfl, rfl⟩ := Prod.mk.inj (Option.some.inj (hi.symm.trans hfd))
    exact ⟨hat.mem, hat.name, fun hl => absurd (Option.some.inj hl).symm Bool.false_ne_true,
      fun _ => hwork.stub_eq_none hstub, hat.pushed⟩
  | isRemote fd hstub =>
    refine ⟨hrest, fun path i hi => ?_, hdone, h.queue⟩
    have hat := hfile path i hi
    obtain ⟨-, -, path', hfd⟩ := hmay
    obtain ⟨rfl, rfl⟩ := Prod.mk.inj (Option.some.inj (hi.symm.trans hfd))
    exact ⟨hat.mem, hat.name, fun _ => .inl hstub,
      fun hl => absurd (Option.some.inj hl) Bool.false_ne_true, hat.pushed⟩
  | closed fd =>
    obtain ⟨path, i, hi, hdealt⟩ := hmay
    have hat := hfile path i hi
    refine ⟨hrest, fun path' j hj => absurd hj.symm (Option.some_ne_none _),
      fun path' hpath j hj hstale => ?_, h.queue⟩
    replace hpath : path' ∈ x.done ++ (x.file.map Prod.fst).toList := hpath
    rw [hi] at hpath
    rcases List.mem_append.mp hpath with hpath | hpath
    · exact hdone path' hpath j hj hstale
    · obtain rfl : path' = path := List.mem_singleton.mp hpath
      obtain rfl := Option.some.inj (hj.symm.trans hat.name)
      exact (hdealt hstale).elim hat.remote hat.pushed
  | fstat fd => exact ⟨hrest, hfile, hdone, h.queue⟩
  | time path => exact ⟨hrest, hfile, hdone, h.queue⟩
  | getrlimit => exact ⟨hrest, hfile, hdone, h.queue⟩
  | refused data hbad => exact ⟨hrest, hfile, hdone, h.queue⟩
  | pushed data hle =>
    obtain ⟨path, i, hi, rfl, hregular, hatime, hlocal⟩ := hmay
    have hat := hfile path i hi
    refine ⟨hrest, fun path' j hj => ?_, hdone, fun e he => ?_⟩
    · obtain ⟨rfl, rfl⟩ := Prod.mk.inj (Option.some.inj (hi.symm.trans hj))
      exact ⟨hat.mem, hat.name, hat.remote, hat.wasLocal,
        fun _ => .inr (.inr (List.mem_append_right _ List.mem_cons_self))⟩
    · rcases List.mem_append.mp he with he | he
      · exact h.queue e he
      · obtain ⟨v, hv, rfl⟩ := List.mem_map.mp hat.mem
        rw [List.length_append] at hle
        refine ⟨v, hv, i, (S.tree.resolves v hv).symm.trans hat.name,
          ⟨hregular, hat.wasLocal hlocal, hatime, hle⟩, ?_⟩
        exact List.mem_singleton.mp he

/-- An iteration of the upload thread on an element of the queue. -/
theorem wp_uploadFileRoutine {path buf : Bytes} {retries : Int} {orig : Bytes} (hpath : 0 ∉ path)
    (hname : w.names path = some i) (hsettled : Settled orig i w) :
    (uploadFileRoutine (s3Ops retries) buf (some (path ++ [0]))).wp
    (carriedOutCalls (Uploading w i))
      (fun _ => Uploaded w i orig (keyOf path buf)) w := by
  have hstring : cString (path ++ [0]) = path := by
    rw [cString, List.takeWhile_append_of_pos fun c hc => ?_]
    · exact List.append_nil path
    · exact bne_iff_ne.mpr fun hzero => hpath (hzero ▸ hc)
  show Prog.wp _
    ((do return (← uploadFile (s3Ops retries) (cString (path ++ [0])) buf).1 : Sys Int) >>= _) _ w
  rw [hstring]
  refine Prog.wp_bind.mpr (Prog.wp_bind.mpr (Prog.wp_mono
    ((evictUpload w i retries orig path buf hname hsettled).sound (At.refl w i)) ?_))
  rintro a t ⟨-, ht⟩
  exact ht

/-- The upload thread takes a path out of the queue. -/
theorem PassInv.pop {data buf : Bytes} {rest : List Bytes} {r : Option Int}
    (hsound : S.Sound content owner)
    (h : PassInv S content owner s) (hupload : s.upload = .ret r) (hqueue : s.queue = data :: rest)
    (hbuf : buf.length = s3XattrSize) :
    PassInv S content owner
      { s with queue := rest, upload := uploadFileRoutine (s3Ops S.retries) buf (some data) } := by
  obtain ⟨x, cur, hwork, hwatch⟩ := h
  rw [hupload] at hwork
  cases hwork with
  | idle r hbetween =>
    obtain ⟨v, hv, i, hopened, hdue, rfl⟩ :=
      hwatch.queue data (by rw [hqueue]; exact List.mem_cons_self)
    have hname : S.tree.world.names v.1 = some i := (S.tree.resolves v hv).trans hopened
    have hkey : owner (keyOf v.1 buf) = i := by
      rw [keyOf_eq_objectName hbuf]
      exact hsound.names v hv i hopened
    obtain ⟨cur, hwork, hcur, -⟩ := Working.of_wp hbetween ⟨v, hv, hopened, hdue⟩ hkey
      (wp_uploadFileRoutine (hsound.paths v hv) (by rw [hbetween.names]; exact hname)
        (hbetween.settled i hdue.1))
    refine ⟨x, cur, hwork,
      hwatch.mono rfl (fun e he => by rw [hqueue]; exact List.mem_cons_of_mem _ he) ?_⟩
    rintro path j hj (hstub | hcur' | hmem)
    · exact .inl hstub
    · exact absurd hcur'.symm (Option.some_ne_none j)
    · rw [hqueue] at hmem
      rcases List.mem_cons.mp hmem with heq | hmem
      · -- the path that has been taken out
        obtain rfl := List.append_cancel_right heq
        obtain rfl := Option.some.inj (hj.symm.trans hname)
        exact hcur.elim (fun hc => .inr (.inl hc)) .inl
      · exact .inr (.inr hmem)

/-- A call of the upload thread. -/
theorem PassInv.upload {c : Call} {f : Rep c → Sys (Option Int)} {r : Rep c} {ch : Choice}
    (h : PassInv S content owner s) (hupload : s.upload = .call c f) (hch : CarriedOut ch = true)
    (he : exec s.world ch c = some (r, w)) :
    PassInv S content owner { s with world := w, upload := f r } := by
  obtain ⟨x, cur, hwork, hwatch⟩ := h
  rw [hupload] at hwork
  cases hwork with
  | @busy w₁ i _ _ _ hbetween hdue hkey hw hf =>
    obtain ⟨cur, hwork, hcur, hothers⟩ := Working.of_wp hbetween hdue hkey (Prog.wp_call hf
      ⟨ch, hch, he⟩)
    refine ⟨x, cur, hwork, hwatch.mono rfl (fun e he => he) ?_⟩
    intro path j _ hj
    by_cases hji : j = i
    · subst hji
      exact hcur.elim (fun hc => .inr (.inl hc)) .inl
    · rcases hj with hstub | hcur' | hmem
      · refine .inl ?_
        rw [hothers j hji, ← hw.others j hji]
        exact hstub
      · exact absurd (Option.some.inj hcur').symm hji
      · exact .inr (.inr hmem)

/-- Every step. -/
theorem PassInv.step {l : Label} (hsound : S.Sound content owner) (h : PassInv S content owner s)
    (hl : S.step s l = some s') : PassInv S content owner s' := by
  cases l with
  | scan =>
    obtain ⟨x, cur, hwork, hwatch⟩ := h
    cases hscan : s.scan with
    | ret r =>
      rw [Setup.step, hscan] at hl
      exact absurd hl.symm (Option.some_ne_none s')
    | call c f =>
      have hmay := hwatch.scan
      rw [hscan] at hmay
      have hgo : ¬ S.waits s c := fun hwaits => by
        rw [Setup.step, hscan] at hl
        dsimp only at hl
        rw [if_pos hwaits] at hl
        exact absurd hl.symm (Option.some_ne_none s')
      obtain ⟨r, queue, hr, hstep⟩ := step_scan hscan hmay.1 hgo
      obtain rfl := Option.some.inj (hstep.symm.trans hl)
      exact ⟨_, cur, hwork, hwatch.answered hwork hscan hr⟩
  | pop buf =>
    rw [Setup.step] at hl
    split at hl
    next r data rest hupload hqueue =>
      obtain ⟨hbuf, heq⟩ := Option.ite_none_right_eq_some.mp hl
      obtain rfl := Option.some.inj heq
      exact h.pop hsound hupload hqueue hbuf
    next => exact absurd hl.symm (Option.some_ne_none s')
  | upload ch =>
    obtain ⟨hch, hstep⟩ := Option.ite_none_right_eq_some.mp hl
    obtain ⟨a, ha, rfl⟩ := Option.map_eq_some_iff.mp hstep
    obtain ⟨c, f, r, hupload, he, ha'⟩ := Prog.step_eq_some ha
    rw [ha']
    exact h.upload hupload hch he

theorem passInv_start (hsound : S.Sound content owner) : PassInv S content owner S.start := by
  refine ⟨.start, none, .idle none (between_start hsound), wp_scanFs hsound.limit,
    fun path i hi => ?_,
    fun path hpath => absurd hpath List.not_mem_nil, fun e he => absurd he List.not_mem_nil⟩
  exact absurd hi.symm (Option.some_ne_none _)

/-! ## The end of a pass -/

/-- Where no step is possible, the scan has returned, the queue is empty and the upload thread is
between two uploads. -/
theorem PassInv.ended (hsound : S.Sound content owner) (h : PassInv S content owner s)
    (hstuck : ∀ l, S.step s l = none) :
    s.queue = [] ∧ Between S content owner s.world ∧ ∃ x, Watching S s none x ∧
      ∃ r, s.scan = .ret r := by
  obtain ⟨x, cur, hwork, hwatch⟩ := h
  have hidle : cur = none ∧ s.queue = [] ∧ Between S content owner s.world := by
    generalize hupload : s.upload = p at hwork
    cases hwork with
    | idle r hbetween =>
      refine ⟨rfl, ?_, hbetween⟩
      cases hqueue : s.queue with
      | nil => rfl
      | cons data rest =>
        have hpop := hstuck (.pop (List.replicate s3XattrSize 0))
        rw [Setup.step, hupload, hqueue] at hpop
        dsimp only at hpop
        rw [if_pos List.length_replicate] at hpop
        exact absurd hpop (Option.some_ne_none _)
    | @busy _ _ _ c f _ _ _ _ hf =>
      obtain ⟨r, t, -, ch, hch, he⟩ := answerAlone_of_isDaemonCall (s :=
        (s.world, sizes4096)) hf.1.1
      have hstep : S.step s (.upload ch) = some { s with world := t.1, upload := f r } := by
        rw [Setup.step, if_pos hch, hupload, Prog.step, he]
        rfl
      exact absurd (hstep.symm.trans (hstuck _)) (Option.some_ne_none _)
  obtain ⟨rfl, hqueue, hbetween⟩ := hidle
  refine ⟨hqueue, hbetween, x, hwatch, ?_⟩
  cases hscan : s.scan with
  | ret r => exact ⟨r, rfl⟩
  | call c f =>
    have hmay := hwatch.scan
    rw [hscan] at hmay
    have hgo : ¬ S.waits s c := fun hwaits => by
      cases c with
      | queuePush data =>
        have hfull := hwaits.2.2
        rw [hqueue] at hfull
        exact Nat.not_lt_of_le hfull hsound.room
      | _ => exact hwaits
    obtain ⟨r, queue, -, hstep⟩ := step_scan hscan hmay.1 hgo
    exact absurd (hstep.symm.trans (hstuck _)) (Option.some_ne_none _)

end

/-- A directory with a file of one byte in it, beside a symbolic link to a special file, and a queue
for one path. -/
def smallSetup : Setup where
  tree := { linkedTree 6 with
    world := { (linkedTree 6).world with inode := fun i => if i = 2 then { data := [7] } else {} } }
  now _ := 100
  pathMax := 4096
  rlimCur := 1024
  maxSize := 1
  retries := 3

def smallContent (i : ℕ) : Bytes := if i = 2 then [7] else []

/-- The file that a key is meant for. -/
def smallOwner (key : Bytes) : ℕ :=
  if key = [109, 45] then 0 else if key = [100, 45, 109, 45] then 1
  else if key = [102, 45, 100, 45, 109, 45] then 2 else 6

/-- The scan comes to the end while the file is being uploaded. -/
def smallRun : List Label :=
  List.replicate 15 .scan ++ .pop (List.replicate s3XattrSize 0) ::
    List.replicate 6 (.upload .ok) ++
    .upload (.size 4096) :: List.replicate 5 .scan ++ List.replicate 10 (.upload .ok)

theorem sound_small : smallSetup.Sound smallContent smallOwner where
  limit := by decide
  room := by decide
  paths := by
    show ∀ v ∈ (linkedTree 6).objects, 0 ∉ v.1
    decide
  settled i _ := by
    by_cases hi : i = 2
    · subst hi
      exact .inl rfl
    · refine .inl ?_
      show (if i = 2 then ({ data := [7] } : Inode) else {}) = { data := if i = 2 then [7] else [] }
      rw [if_neg hi, if_neg hi]
  names := by
    have hvisits : smallSetup.tree.objects =
        [([47, 109], .directory 0), ([47, 109, 47, 100], .directory 1),
        ([47, 109, 47, 100, 47, 102], .file 2), ([47, 109, 47, 108], .symlink (some 6))] := rfl
    rw [hvisits]
    intro v hv i hi
    simp only [List.mem_cons, List.not_mem_nil, or_false] at hv
    rcases hv with rfl | rfl | rfl | rfl
    all_goals
      obtain rfl := Option.some.inj hi
      decide +kernel
  ids i v hv := by
    by_cases hi : i = 2
    · subst hi
      exact absurd hv.symm (Option.some_ne_none v)
    · replace hv : (if i = 2 then ({ data := [7] } : Inode) else {}).objectId = some v := hv
      rw [if_neg hi] at hv
      exact absurd hv.symm (Option.some_ne_none v)

/-- Where both threads have returned and the queue is empty there is no step. -/
theorem step_eq_none {S : Setup} {s : State}
    (hscan : s.scan.result.isSome = true) (hqueue : s.queue = [])
    (hupload : s.upload.result.isSome = true) (l : Label) : S.step s l = none := by
  obtain ⟨r, hr⟩ := Option.isSome_iff_exists.mp hscan
  obtain ⟨u, hu⟩ := Option.isSome_iff_exists.mp hupload
  have hr := Prog.result_eq_some hr
  have hu := Prog.result_eq_some hu
  cases l with
  | scan => rw [Setup.step, hr]
  | pop buf => rw [Setup.step, hu, hqueue]
  | upload ch =>
    rw [Setup.step, hu]
    split <;> rfl

end Pass

end CloudTiering
