import CloudTiering.Foundations.Transition
import CloudTiering.Recovery.Alone

/-!
# Killed invocations and the content of a file

One file is uploaded and downloaded again and again, and an invocation may be killed between any two
of its calls, the single callbacks of a transfer included.  The lock may then be cleared by hand.

* `CrashState`, `crashStep`: the runs.
* `crashUpload`, `crashDownload`: the outlines of the two operations, in which every call is made
  while the content is recoverable.
* `reach_contentKept_of_crashes`: the content is recoverable in every state of every run.
-/

namespace CloudTiering

open Foundations App

namespace Recovery

/-! ## The runs -/

/-- The world, and what is left of the present invocation. -/
structure CrashState where
  world : World
  prog : Sys Int

/-- No invocation is running. -/
def CrashState.idle (s : CrashState) : Bool :=
  match s.prog with
  | .ret _ => true
  | .call .. => false

inductive CrashLabel
  | start (op : Op)
  | answer (ch : Choice)
  | kill
  | clearLock

/-- An invocation on file `i` starts, its next call is carried out, it is killed, or its lock is
cleared by hand. -/
def crashStep (retries : Int) (i : ℕ) (s : CrashState) : CrashLabel → Option CrashState
  | .start op =>
      if s.idle ∧ s.world.names op.path = some i then
        some ⟨s.world, op.code (s3Ops retries)⟩
      else none
  | .answer ch =>
      if CarriedOut ch then (s.prog.step exec ch s.world).map fun a => ⟨a.2, a.1⟩ else none
  | .kill => some ⟨s.world, .ret (-1)⟩
  | .clearLock =>
      if s.idle then
        some { s with world := s.world.update i ((s.world.inode i).setXattr none .locked) }
      else none

/-! ## One invocation -/

section

variable {orig : Bytes} {i : ℕ} {w w' : World} {ch : Choice}

theorem triple_carriedOut_quiet {c : Call} (hd : isDaemonCall c = true) (hc : isQuiet c = true) :
    Prog.Triple (carriedOutCalls (ContentInv orig i)) (ContentInv orig i) c fun _ =>
      ContentInv orig i :=
  triple_carriedOut hd (fun _ h => h) fun _ hI _ _ _ _ he => hI.sameContent (exec_quiet hc he)

/-- Opening, locking and the location check. -/
theorem triple_carriedOut_openFile {path : Bytes} {bad : World → Prop} :
    Prog.Triple (carriedOutCalls (ContentInv orig i))
      (fun w => w.names path = some i ∧ ContentInv orig i w)
      (.openFile path) (outcome (fun fd w => fd.ino = i ∧ ContentInv orig i w) bad) := by
  refine triple_carriedOut rfl (fun _ h => h.2) fun w ⟨hn, hI⟩ ch r w' hch he => ?_
  obtain ⟨-, hx⟩ := attempt_carriedOut he hch
  rw [World.openFile, hn] at hx
  obtain ⟨rfl, rfl⟩ := Prod.mk.inj hx
  exact ⟨rfl, hI⟩

theorem triple_carriedOut_lock {fd : Fd} :
    Prog.Triple (carriedOutCalls (ContentInv orig i)) (fun w => fd.ino = i ∧ ContentInv orig i w)
      (.fsetxattr fd .locked [] .create)
      (outcome (fun _ w => fd.ino = i ∧ ContentInv orig i w) (ContentInv orig i)) := by
  refine triple_carriedOut rfl (fun _ h => h.2) fun w ⟨hfd, hI⟩ ch r w' hch he => ?_
  have hI' := hI.sameContent (exec_quiet rfl he)
  cases r with
  | ok u => exact ⟨hfd, hI'⟩
  | error e => exact hI'

theorem triple_carriedOut_check {fd : Fd} {pr mi un : World → Prop}
    (hpr : ∀ w, fd.ino = i → (w.inode i).data.length ≤ orig.length → Evicted orig i w → pr w)
    (hmi : ∀ w, fd.ino = i → LocalCopy orig i w → mi w) :
    Prog.Triple (carriedOutCalls (ContentInv orig i)) (fun w => fd.ino = i ∧ ContentInv orig i w)
      (.fgetxattr fd .stub 0) (location pr mi un) := by
  refine triple_carriedOut rfl (fun _ h => h.2) fun w ⟨hfd, hI⟩ ch r w' hch he => ?_
  subst hfd
  have hok := (attempt_carriedOut he hch).1
  obtain ⟨rfl, ⟨u, v, hu, rfl, -⟩ | ⟨rfl, hs⟩ | ⟨e, rfl, -, hx⟩⟩ := exec_fgetxattr he
  · have hev := hI.evicted_of_stub_some hu
    exact hpr w' rfl hev.1 hev.2
  · exact hmi w' rfl (hI.local_of_stub_none (hs hok))
  · exact absurd rfl (hx hok).1

/-! ### The upload -/

/-- The outline of an upload.  The failing branches are not reached. -/
def crashUpload (retries : Int) (orig : Bytes) (i : ℕ) (path buf : Bytes) :
    UploadOutline (carriedOutCalls (ContentInv orig i)) (s3Ops retries) path buf fun _ _ =>
      ContentInv orig i where
  start w := w.names path = some i ∧ ContentInv orig i w
  opened fd w := fd.ino = i ∧ ContentInv orig i w
  locked fd w := fd.ino = i ∧ ContentInv orig i w
  isLocal fd w := fd.ino = i ∧ LocalCopy orig i w
  stored fd w := fd.ino = i ∧ LocalCopy orig i w ∧
    w.store (cString (s3GetObjectIdXattrValue path buf)) = some orig
  named fd w := fd.ino = i ∧ LocalCopy orig i w ∧ RemoteCopy orig i w
  stubbed fd w := fd.ino = i ∧ (w.inode i).data = orig ∧ Evicted orig i w
  sized fd n w := fd.ino = i ∧ n = orig.length ∧ (w.inode i).data = orig ∧ Evicted orig i w
  emptied fd n w := fd.ino = i ∧ n = orig.length ∧ (w.inode i).data = [] ∧ Evicted orig i w
  undo _ _ := False
  undoStub _ _ := False
  undoId fd w := fd.ino = i ∧ LocalCopy orig i w
  leaving _ _ _ := ContentInv orig i
  closing _ _ _ := ContentInv orig i
  openFile := triple_carriedOut_openFile
  lock _ := triple_carriedOut_lock
  check fd := triple_carriedOut_check (fun _ _ hle hev => .inr ⟨hle, hev⟩) fun _ hfd hL => ⟨hfd, hL⟩
  upload fd w := fun ⟨hfd, hL⟩ => by
    have hkeep : ∀ st w', At w i (w.inode i) st w' → LocalCopy orig i w' := fun st w' h => by
      rw [LocalCopy, h.inode_self]
      exact hL
    refine Prog.wp_mono ((aloneS3Upload w i _ w.store fd _ hfd
      fun st w' h => .inl (hkeep st w' h)).sound (At.refl w i)) ?_
    rintro r w' ⟨rfl, hw'⟩
    refine ⟨hfd, hkeep _ w' hw', ?_⟩
    rw [hw'.store, ← hL.2]
    exact Function.update_self _ _ _
  setId fd := triple_carriedOut rfl (fun _ h => .inl h.2.1) fun w ⟨hfd, hL, hst⟩ ch r w' _ he => by
    subst hfd
    rcases exec_fsetxattr_create he with ⟨rfl, -, rfl⟩ | ⟨e, rfl, rfl, -⟩
    · refine ⟨rfl, hL.setObjectId _, (s3GetObjectIdXattrValue path buf).take s3GetObjectIdXattrSize,
        by simp [Inode.setXattr, s3Ops], ?_⟩
      exact (cString_take_s3GetObjectIdXattrValue path buf).symm ▸ hst
    · exact .inl hL
  setStub fd := triple_carriedOut rfl (fun _ h => .inl h.2.1) fun w ⟨hfd, hL, hR⟩ ch r w' _ he => by
    subst hfd
    rcases exec_fsetxattr_create he with ⟨rfl, -, rfl⟩ | ⟨e, rfl, rfl, -⟩
    · exact ⟨rfl, by simpa using hL.2, by simp [Inode.setXattr], hR.setStub _⟩
    · exact ⟨rfl, hL⟩
  fstat fd := triple_carriedOut rfl
    (fun _ h => .inr ⟨Nat.le_of_eq (congrArg List.length h.2.1), h.2.2⟩)
    fun w ⟨hfd, hd, hev⟩ ch r w' hch he => by
      subst hfd
      obtain ⟨rfl, rfl | ⟨e, -, rfl⟩⟩ := exec_fstat he
      · exact ⟨rfl, congrArg List.length hd, hd, hev⟩
      · exact (not_carriedOut_fail hch).elim
  empty fd n := triple_carriedOut rfl
    (fun _ h => .inr ⟨Nat.le_of_eq (congrArg List.length h.2.2.1), h.2.2.2⟩)
    fun w ⟨hfd, hn, hd, hev⟩ ch r w' hch he => by
      subst hfd
      rcases exec_ftruncate he with ⟨rfl, rfl⟩ | ⟨e, -, rfl, -⟩
      · exact ⟨rfl, hn, by simp [World.ftruncate, resize_zero], hev.setData _⟩
      · exact (not_carriedOut_fail hch).elim
  extend fd n := triple_carriedOut rfl
    (fun _ h => .inr ⟨by rw [h.2.2.1]; exact Nat.zero_le _, h.2.2.2⟩)
    fun w ⟨hfd, hn, hd, hev⟩ ch r w' hch he => by
      subst hfd
      rcases exec_ftruncate he with ⟨rfl, rfl⟩ | ⟨e, -, rfl, -⟩
      · exact .inr ⟨by simp [World.ftruncate, hn], hev.setData _⟩
      · exact (not_carriedOut_fail hch).elim
  removeIdUndo _ := fun _ h => h.elim
  removeStub _ := fun _ h => h.elim
  removeId fd := triple_carriedOut rfl (fun _ h => .inl h.2) fun w ⟨hfd, hL⟩ ch r w' _ he => by
    subst hfd
    rcases exec_fremovexattr he with ⟨rfl, -, rfl⟩ | ⟨e, rfl, rfl, -⟩
    · exact .inl (hL.setObjectId none)
    · exact .inl hL
  unlock _ _ _ := triple_carriedOut_quiet rfl rfl
  close _ _ _ := triple_carriedOut_quiet rfl rfl

/-! ### The download -/

/-- While the object is written over the bytes of a stub, the stub never grows beyond it. -/
theorem ContentInv.of_written {n : Inode} {st : Bytes → Option Bytes} {written : Bytes}
    (hle : n.data.length ≤ orig.length) (hev : Evicted orig i w) (hn : w.inode i = n)
    (hst : w.store = st) (hw : written <+: orig)
    (h : At w i { n with data := writeAt n.data 0 written } st w') : ContentInv orig i w' := by
  refine .inr ⟨?_, ?_⟩
  · rw [h.inode_self]
    exact length_writeAt_zero_le hle hw
  · rw [Evicted, RemoteCopy, h.inode_self, h.store, ← hn, ← hst]
    exact hev

/-- The outline of a download. -/
def crashDownload (retries : Int) (orig : Bytes) (i : ℕ) (path : Bytes) :
    DownloadOutline (carriedOutCalls (ContentInv orig i)) (s3Ops retries) path fun _ =>
      ContentInv orig i where
  start w := w.names path = some i ∧ ContentInv orig i w
  opened fd w := fd.ino = i ∧ ContentInv orig i w
  locked fd w := fd.ino = i ∧ ContentInv orig i w
  remote fd w := fd.ino = i ∧ (w.inode i).data.length ≤ orig.length ∧ Evicted orig i w
  known fd id w := fd.ino = i ∧ (w.inode i).data.length ≤ orig.length ∧ Evicted orig i w ∧
    w.store (cString id) = some orig
  loaded fd w := fd.ino = i ∧ (w.inode i).data = orig ∧ Evicted orig i w
  unstubbed fd w := fd.ino = i ∧ LocalCopy orig i w
  leaving _ _ := ContentInv orig i
  closing _ _ := ContentInv orig i
  openFile := triple_carriedOut_openFile
  lock _ := triple_carriedOut_lock
  check fd := triple_carriedOut_check (fun _ hfd hle hev => ⟨hfd, hle, hev⟩) fun _ _ hL => .inl hL
  getId fd := triple_carriedOut rfl (fun _ h => .inr h.2) fun w ⟨hfd, hle, hev⟩ ch r w' _ he => by
    subst hfd
    obtain ⟨rfl, hst⟩ := hev.fgetxattr_objectId s3GetObjectIdXattrSize_ne_zero he
    cases r with
    | ok v => exact ⟨rfl, hle, hev, hst v rfl⟩
    | error e => exact .inr ⟨hle, hev⟩
  download fd id w := fun ⟨hfd, hle, hev, hst⟩ => by
    refine Prog.wp_mono ((aloneS3Download w i _ w.store fd (cString id) orig hfd hst
      fun written hw w' h => .of_written hle hev rfl rfl hw h).sound (At.refl w i)) ?_
    rintro r w' ⟨rfl, hw'⟩
    refine ⟨hfd, ?_, ?_⟩
    · rw [hw'.inode_self, writeAt_zero_of_le hle]
    · rw [Evicted, RemoteCopy, hw'.inode_self, hw'.store]
      exact hev
  removeStub fd := triple_carriedOut rfl
    (fun _ h => .inr ⟨Nat.le_of_eq (congrArg List.length h.2.1), h.2.2⟩)
    fun w ⟨hfd, hd, hev⟩ ch r w' _ he => by
      subst hfd
      rcases exec_fremovexattr he with ⟨rfl, -, rfl⟩ | ⟨e, rfl, rfl, -⟩
      · exact ⟨rfl, by simp [Inode.setXattr], by simpa using hd⟩
      · exact .inr ⟨Nat.le_of_eq (congrArg List.length hd), hev⟩
  removeId fd := triple_carriedOut rfl (fun _ h => .inl h.2) fun w ⟨hfd, hL⟩ ch r w' _ he => by
    subst hfd
    rcases exec_fremovexattr he with ⟨rfl, -, rfl⟩ | ⟨e, rfl, rfl, -⟩
    · exact .inl (hL.setObjectId none)
    · exact .inl hL
  unlock _ _ := triple_carriedOut_quiet rfl rfl
  close _ _ := triple_carriedOut_quiet rfl rfl

end

/-! ## Runs -/

/-- What is left of the present invocation keeps the content recoverable at every call. -/
def CrashInv (orig : Bytes) (i : ℕ) (s : CrashState) : Prop :=
  s.prog.wp (carriedOutCalls (ContentInv orig i)) (fun _ => ContentInv orig i) s.world

theorem CrashInv.contentInv {orig : Bytes} {i : ℕ} {s : CrashState} (h : CrashInv orig i s) :
    ContentInv orig i s.world := by
  obtain ⟨w, p⟩ := s
  cases p with
  | ret r => exact h
  | call c k => exact h.1.2

theorem CrashInv.step {retries : Int} {orig : Bytes} {i : ℕ} {s s' : CrashState} {l : CrashLabel}
    (h : CrashInv orig i s) (hl : crashStep retries i s l = some s') : CrashInv orig i s' := by
  cases l with
  | start op =>
    simp only [crashStep] at hl
    split at hl
    · next hc =>
        obtain rfl := Option.some.inj hl
        cases op with
        | upload path buf =>
          exact Prog.wp_bind.mpr ((crashUpload retries orig i path buf).sound ⟨hc.2, h.contentInv⟩)
        | download path => exact (crashDownload retries orig i path).sound ⟨hc.2, h.contentInv⟩
    · cases hl
  | answer ch =>
    simp only [crashStep] at hl
    split at hl
    · next hch =>
        obtain ⟨⟨p, w⟩, hp, rfl⟩ := Option.map_eq_some_iff.mp hl
        obtain ⟨c, k, r, hc, he, rfl⟩ := Prog.step_eq_some hp
        rw [CrashInv, hc] at h
        exact Prog.wp_call h ⟨ch, hch, he⟩
    · cases hl
  | kill =>
    obtain rfl := Option.some.inj hl
    exact h.contentInv
  | clearLock =>
    simp only [crashStep] at hl
    split at hl
    · next hidle =>
        obtain rfl := Option.some.inj hl
        obtain ⟨w, p⟩ := s
        cases p with
        | ret r => exact ContentInv.sameContent h (sameContent_setLocked w i none)
        | call c k => exact absurd hidle (by simp [CrashState.idle])
    · cases hl

/-- **The order of effects is crash-consistent.**  In every state of every run the content is
recoverable. -/
theorem reach_contentKept_of_crashes {retries : Int} {orig : Bytes} {i : ℕ} {w₀ : World}
    {s : CrashState} (h₀ : w₀.inode i = { data := orig })
    (h : Reach (crashStep retries i) (fun _ _ => True) ⟨w₀, .ret 0⟩ s) :
    ContentKept orig i s.world := by
  have hI : CrashInv orig i s := by
    refine h.invariant (I := CrashInv orig i) (.inl ⟨?_, ?_⟩) fun _ _ _ hs _ hl => hs.step hl
    · rw [h₀]
    · rw [h₀]
  exact hI.contentInv.contentKept

/-- An upload killed right after the file has been emptied, and the lock cleared: the content is in
the store. -/
theorem contentKept_of_killed_upload : ∃ s : CrashState, (s.world.inode 0).data = [] ∧
    ContentKept [7] 0 s.world := by
  have hrun : ((run (crashStep 3 0) ⟨oneByteFile, .ret 0⟩
      [.start (.upload (ascii "a") (List.replicate s3XattrSize 0)), .answer .ok, .answer .ok,
        .answer .ok, .answer .ok, .answer .ok, .answer .ok, .answer (.size 4096), .answer .ok,
        .answer .ok, .answer .ok, .answer .ok, .answer .ok, .answer .ok, .answer .ok, .kill,
        .clearLock]).any fun s =>
          decide ((s.world.inode 0).data = [])) = true := by decide +kernel
  obtain ⟨s, hs, hd⟩ := Reach.exists_of_run (fun _ _ _ => trivial) hrun
  exact ⟨s, of_decide_eq_true hd, reach_contentKept_of_crashes rfl hs⟩

end Recovery

end CloudTiering
