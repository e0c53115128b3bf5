import CloudTiering.App.Outline
import CloudTiering.App.ObjectId
import CloudTiering.Foundations.Transition
import CloudTiering.Recovery.Content

/-!
# Failing calls and the content of a file

One file is uploaded and downloaded again and again while the calls behind the location check may
fail.  In each invocation at most one call fails, since the code then only cleans up and returns,
and the clean-up calls do not fail.

* `FaultState`, `faultStep`: the runs.
* `reach_contentKept`: the content is kept in every run in which no extension of the emptied file
  back to its length fails.
* `not_contentKept_of_extension_failed`: where that call fails, the clean-up takes both attributes
  away from a file that has been emptied, and the content is gone.
-/

namespace CloudTiering

open Foundations App

namespace Recovery

/-! ## The runs -/

/-- Has the call failed?  A location check that finds no attribute has not. -/
def callFailed : (c : Call) → Rep c → Bool
  | .openFile _, .error _ => true
  | .closeFile _, .error _ => true
  | .fsetxattr .., .error _ => true
  | .fgetxattr _ .stub _, _ => false
  | .fgetxattr .., .error _ => true
  | .fremovexattr .., .error _ => true
  | .fstat _, .error _ => true
  | .ftruncate .., .error _ => true
  | .uploadObject .., .error _ => true
  | .downloadObject .., .error _ => true
  | _, _ => false

/-- Is this the attribute read of the location check? -/
def isLocationCheck : Call → Bool
  | .fgetxattr _ .stub _ => true
  | _ => false

/-- A call under a choice of the environment, where `failed` says that a call of this invocation has
failed already: from then on every call is carried out, and the location check always is. -/
def execFaulty (s : World × Bool) (ch : Choice) (c : Call) : Option (Rep c × (World × Bool)) :=
  if ch ≠ .ok ∧ (s.2 ∨ isLocationCheck c) then none
  else (exec s.1 ch c).map fun a => (a.1, (a.2, s.2 || callFailed c a.1))

/-- The world, whether a call of the present invocation has failed, and what is left of it. -/
structure FaultState where
  world : World
  failed : Bool
  prog : Sys Int

/-- The invocation has returned. -/
def FaultState.returned (s : FaultState) : Bool :=
  match s.prog with
  | .ret _ => true
  | .call .. => false

inductive FaultLabel
  | start (op : Op)
  | answer (ch : Choice)

/-- An invocation on file `i` starts, or the next call of the present one is answered. -/
def faultStep (i : ℕ) (s : FaultState) : FaultLabel → Option FaultState
  | .start op =>
      if s.returned ∧ s.world.names op.path = some i then
        some ⟨s.world, false, op.code storeOps⟩
      else none
  | .answer ch => (s.prog.step execFaulty ch (s.world, s.failed)).map fun a =>
      ⟨a.2.1, a.2.2, a.1⟩

/-- The condition on a choice: no `ftruncate` to a positive length fails.  There is one such call,
the one that makes an emptied file sparse again, and the file was not empty then. -/
def ExtensionCarriedOut (c : Call) (ch : Choice) : Prop :=
  ∀ fd len, c = .ftruncate fd len → 0 < len → ch = .ok

/-- The same as a condition on a step. -/
def NoFailedExtension (s : FaultState) : FaultLabel → Prop
  | .start _ => True
  | .answer ch => ∀ c k, s.prog = .call c k → ExtensionCarriedOut c ch

/-! ## One invocation -/

/-- The answers that the condition leaves. -/
def faultCalls : Calls Call Rep (World × Bool) where
  pre _ _ := True
  post s c r t := ∃ ch, ExtensionCarriedOut c ch ∧ execFaulty s ch c = some (r, t)

/-- What such an answer says: after a failure the call has been carried out, and the location check
always has. -/
theorem faultCalls_post {s t : World × Bool} {c : Call} {r : Rep c} (h : faultCalls.post s c r t) :
    ∃ ch, ExtensionCarriedOut c ch ∧ (s.2 = true → ch = .ok) ∧
      (isLocationCheck c = true → ch = .ok) ∧ exec s.1 ch c = some (r, t.1) ∧
      t.2 = (s.2 || callFailed c r) := by
  obtain ⟨ch, hext, he⟩ := h
  unfold execFaulty at he
  split at he
  · cases he
  · next hc =>
      obtain ⟨⟨r', w'⟩, hr, heq⟩ := Option.map_eq_some_iff.mp he
      obtain ⟨rfl, rfl⟩ := Prod.mk.inj heq
      refine ⟨ch, hext, fun hs => ?_, fun hl => ?_, hr, rfl⟩
      · exact Classical.byContradiction fun hne => hc ⟨hne, .inl hs⟩
      · exact Classical.byContradiction fun hne => hc ⟨hne, .inr hl⟩

/-- A triple for the world alone, whatever has failed. -/
theorem triple_world {P : World × Bool → Prop} {c : Call} {Q : Rep c → World × Bool → Prop}
    (h : ∀ w failed, P (w, failed) → ∀ ch r w', ExtensionCarriedOut c ch →
      (failed = true → ch = .ok) → (isLocationCheck c = true → ch = .ok) →
      exec w ch c = some (r, w') → Q r (w', failed || callFailed c r)) :
    Prog.Triple faultCalls P c Q := by
  rintro ⟨w, failed⟩ hP
  refine ⟨trivial, fun r t ht => ?_⟩
  obtain ⟨ch, hext, hf, hl, he, hb⟩ := faultCalls_post ht
  have hQ := h w failed hP ch r t.1 hext hf hl he
  rw [← hb] at hQ
  exact hQ

/-- Quiet calls keep what is known of the content. -/
theorem triple_quiet {orig : Bytes} {i : ℕ} {c : Call} (hc : isQuiet c = true) :
    Prog.Triple faultCalls (fun s => ContentInv orig i s.1) c fun _ s => ContentInv orig i s.1 :=
  triple_world fun _ _ hP _ _ _ _ _ _ he => hP.sameContent (exec_quiet hc he)

/-- The outline of an upload: between the two `ftruncate` calls the content is in the store alone,
and a clean-up there would lose it. -/
def uploadOutline (orig : Bytes) (i : ℕ) (path buf : Bytes) :
    UploadOutline faultCalls storeOps path buf fun _ _ s => ContentInv orig i s.1 where
  start s := s.1.names path = some i ∧ ContentInv orig i s.1
  opened fd s := fd.ino = i ∧ ContentInv orig i s.1
  locked fd s := fd.ino = i ∧ ContentInv orig i s.1
  isLocal fd s := fd.ino = i ∧ LocalCopy orig i s.1
  stored fd s := fd.ino = i ∧ LocalCopy orig i s.1 ∧
    s.1.store (cString (s3GetObjectIdXattrValue path buf)) = some orig
  named fd s := fd.ino = i ∧ LocalCopy orig i s.1 ∧ RemoteCopy orig i s.1
  stubbed fd s := fd.ino = i ∧ (s.1.inode i).data = orig ∧ Evicted orig i s.1
  sized fd n s := fd.ino = i ∧ n = orig.length ∧ (s.1.inode i).data = orig ∧ Evicted orig i s.1
  emptied fd n s := fd.ino = i ∧ n = orig.length ∧ (s.1.inode i).data = [] ∧ Evicted orig i s.1
  undo fd s := fd.ino = i ∧ (s.1.inode i).data = orig ∧ s.2 = true
  undoStub fd s := fd.ino = i ∧ (s.1.inode i).data = orig ∧ s.2 = true
  undoId fd s := fd.ino = i ∧ LocalCopy orig i s.1
  leaving _ _ _ s := ContentInv orig i s.1
  closing _ _ _ s := ContentInv orig i s.1
  openFile := triple_world fun w failed ⟨hn, hI⟩ ch r w' _ _ _ he => by
    rcases exec_openFile he with ⟨j, hj, rfl, rfl⟩ | ⟨e, rfl, rfl⟩
    · exact ⟨Option.some.inj (hj.symm.trans hn), hI⟩
    · exact hI
  lock fd := triple_world fun w failed ⟨hfd, hI⟩ ch r w' _ _ _ he => by
    have hI' := hI.sameContent (exec_quiet rfl he)
    cases r with
    | ok u => exact ⟨hfd, hI'⟩
    | error e => exact hI'
  check fd := triple_world fun w failed ⟨hfd, hI⟩ ch r w' _ _ hl he => by
    subst hfd
    obtain ⟨rfl, ⟨u, v, -, rfl, -⟩ | ⟨rfl, hs⟩ | ⟨e, rfl, -, hx⟩⟩ := exec_fgetxattr he
    · exact hI
    · exact ⟨rfl, hI.local_of_stub_none (hs (hl rfl))⟩
    · exact absurd rfl (hx (hl rfl)).1
  upload fd s := fun ⟨hfd, hL⟩ => by
    subst hfd
    have hcall : Prog.Triple faultCalls (fun s => LocalCopy orig fd.ino s.1)
        (.uploadObject fd (cString (s3GetObjectIdXattrValue path buf)))
        (outcome (fun _ t => LocalCopy orig fd.ino t.1 ∧
          t.1.store (cString (s3GetObjectIdXattrValue path buf)) = some orig)
          fun t => LocalCopy orig fd.ino t.1) := by
      refine triple_world fun w failed hL ch r w' _ _ _ he => ?_
      rcases exec_uploadObject he with ⟨rfl, rfl⟩ | ⟨e, rfl, rfl⟩
      · rw [hL.2]
        exact ⟨hL, World.store_put_self w _ _⟩
      · exact hL
    refine hcall.bind hL fun r t ht => ?_
    cases r with
    | ok u => exact ⟨rfl, ht⟩
    | error e => exact .inl ht
  setId fd := triple_world fun w failed ⟨hfd, hL, hst⟩ ch r w' _ _ _ he => by
    subst hfd
    rcases exec_fsetxattr_create he with ⟨rfl, -, rfl⟩ | ⟨e, rfl, rfl, -⟩
    · refine ⟨rfl, hL.setObjectId _, (s3GetObjectIdXattrValue path buf).take s3GetObjectIdXattrSize,
        by simp [Inode.setXattr, storeOps], ?_⟩
      exact (cString_take_s3GetObjectIdXattrValue path buf).symm ▸ hst
    · exact .inl hL
  setStub fd := triple_world fun w failed ⟨hfd, hL, hR⟩ ch r w' _ _ _ he => by
    subst hfd
    rcases exec_fsetxattr_create he with ⟨rfl, -, rfl⟩ | ⟨e, rfl, rfl, -⟩
    · exact ⟨rfl, by simpa using hL.2, by simp [Inode.setXattr], hR.setStub _⟩
    · exact ⟨rfl, hL⟩
  fstat fd := triple_world fun w failed ⟨hfd, hd, hev⟩ ch r w' _ _ _ he => by
    subst hfd
    obtain ⟨rfl, rfl | ⟨e, rfl, -⟩⟩ := exec_fstat he
    · exact ⟨rfl, congrArg List.length hd, hd, hev⟩
    · exact .inr ⟨Nat.le_of_eq (congrArg List.length hd), hev⟩
  empty fd n := triple_world fun w failed ⟨hfd, hn, hd, hev⟩ ch r w' _ _ _ he => by
    subst hfd
    rcases exec_ftruncate he with ⟨rfl, rfl⟩ | ⟨e, rfl, -, rfl⟩
    · exact ⟨rfl, hn, by simp [World.ftruncate, resize_zero], hev.setData _⟩
    · exact ⟨rfl, hd, Bool.or_true _⟩
  extend fd n := triple_world fun w failed ⟨hfd, hn, hd, hev⟩ ch r w' hext _ _ he => by
    subst hfd
    rcases exec_ftruncate he with ⟨rfl, rfl⟩ | ⟨e, rfl, rfl, rfl⟩
    · exact .inr ⟨by simp [World.ftruncate, hn], hev.setData _⟩
    · -- a failure is possible here only if the file was empty
      have hzero : n = 0 := Nat.eq_zero_of_not_pos fun hpos =>
        Choice.noConfusion (hext fd n rfl hpos)
      have horig : orig = [] := List.eq_nil_of_length_eq_zero (hn.symm.trans hzero)
      exact ⟨rfl, hd.trans horig.symm, Bool.or_true _⟩
  removeIdUndo fd := triple_world fun w failed ⟨hfd, hd, hf⟩ ch r w' _ _ _ he => by
    subst hfd
    refine ⟨rfl, ?_, Bool.or_eq_true_iff.mpr (.inl hf)⟩
    rcases exec_fremovexattr he with ⟨rfl, -, rfl⟩ | ⟨e, rfl, rfl, -⟩
    · simpa using hd
    · exact hd
  removeStub fd := triple_world fun w failed ⟨hfd, hd, hf⟩ ch r w' _ hok _ he => by
    subst hfd
    rcases exec_fremovexattr he with ⟨rfl, -, rfl⟩ | ⟨e, rfl, rfl, hx⟩
    · exact .inl ⟨by simp [Inode.setXattr], by simpa using hd⟩
    · exact .inl ⟨(hx (hok hf)).2, hd⟩
  removeId fd := triple_world fun w failed ⟨hfd, hL⟩ ch r w' _ _ _ he => by
    subst hfd
    rcases exec_fremovexattr he with ⟨rfl, -, rfl⟩ | ⟨e, rfl, rfl, -⟩
    · exact .inl (hL.setObjectId none)
    · exact .inl hL
  unlock _ _ _ := triple_quiet rfl
  close _ _ _ := triple_quiet rfl

/-- The outline of a download: the stub stays until the whole object is there. -/
def downloadOutline (orig : Bytes) (i : ℕ) (path : Bytes) :
    DownloadOutline faultCalls storeOps path fun _ s => ContentInv orig i s.1 where
  start s := s.1.names path = some i ∧ ContentInv orig i s.1
  opened fd s := fd.ino = i ∧ ContentInv orig i s.1
  locked fd s := fd.ino = i ∧ ContentInv orig i s.1
  remote fd s := fd.ino = i ∧ (s.1.inode i).data.length ≤ orig.length ∧ Evicted orig i s.1
  known fd id s := fd.ino = i ∧ (s.1.inode i).data.length ≤ orig.length ∧ Evicted orig i s.1 ∧
    s.1.store (cString id) = some orig
  loaded fd s := fd.ino = i ∧ (s.1.inode i).data = orig ∧ Evicted orig i s.1
  unstubbed fd s := fd.ino = i ∧ LocalCopy orig i s.1
  leaving _ _ s := ContentInv orig i s.1
  closing _ _ s := ContentInv orig i s.1
  openFile := triple_world fun w failed ⟨hn, hI⟩ ch r w' _ _ _ he => by
    rcases exec_openFile he with ⟨j, hj, rfl, rfl⟩ | ⟨e, rfl, rfl⟩
    · exact ⟨Option.some.inj (hj.symm.trans hn), hI⟩
    · exact hI
  lock fd := triple_world fun w failed ⟨hfd, hI⟩ ch r w' _ _ _ he => by
    have hI' := hI.sameContent (exec_quiet rfl he)
    cases r with
    | ok u => exact ⟨hfd, hI'⟩
    | error e => exact hI'
  check fd := triple_world fun w failed ⟨hfd, hI⟩ ch r w' _ _ _ he => by
    subst hfd
    obtain ⟨rfl, ⟨u, v, hu, rfl, -⟩ | ⟨rfl, -⟩ | ⟨e, rfl, hne, -⟩⟩ := exec_fgetxattr he
    · exact ⟨rfl, hI.evicted_of_stub_some hu⟩
    · exact hI
    · cases e with
      | enoattr => exact absurd rfl hne
      | _ => exact hI
  getId fd := triple_world fun w failed ⟨hfd, hle, hev⟩ ch r w' _ _ _ he => by
    subst hfd
    obtain ⟨rfl, hst⟩ := hev.fgetxattr_objectId s3GetObjectIdXattrSize_ne_zero he
    cases r with
    | ok v => exact ⟨rfl, hle, hev, hst v rfl⟩
    | error e => exact .inr ⟨hle, hev⟩
  download fd id s := fun ⟨hfd, hle, hev, hst⟩ => by
    subst hfd
    have hcall : Prog.Triple faultCalls
        (fun s => (s.1.inode fd.ino).data.length ≤ orig.length ∧ Evicted orig fd.ino s.1 ∧
          s.1.store (cString id) = some orig)
        (.downloadObject fd (cString id))
        (outcome (fun _ t => (t.1.inode fd.ino).data = orig ∧ Evicted orig fd.ino t.1)
          fun t => ContentInv orig fd.ino t.1) := by
      refine triple_world fun w failed ⟨hle, hev, hst⟩ ch r w' _ _ _ he => ?_
      rcases exec_downloadObject he with ⟨rfl, obj, hobj, rfl⟩ | ⟨e, rfl, rfl | ⟨obj, n, hobj, rfl⟩⟩
      · obtain rfl : orig = obj := Option.some.inj (hst.symm.trans hobj)
        exact ⟨by simpa [World.write] using writeAt_zero_of_le hle, hev.setData _⟩
      · exact .inr ⟨hle, hev⟩
      · obtain rfl : orig = obj := Option.some.inj (hst.symm.trans hobj)
        refine .inr ⟨?_, hev.setData _⟩
        rw [World.write, World.inode_update_self]
        exact length_writeAt_zero_le hle (List.take_prefix n orig)
    refine hcall.bind ⟨hle, hev, hst⟩ fun r t ht => ?_
    cases r with
    | ok u => exact ⟨rfl, ht⟩
    | error e => exact ht
  removeStub fd := triple_world fun w failed ⟨hfd, hd, hev⟩ ch r w' _ _ _ he => by
    subst hfd
    rcases exec_fremovexattr he with ⟨rfl, -, rfl⟩ | ⟨e, rfl, rfl, -⟩
    · exact ⟨rfl, by simp [Inode.setXattr], by simpa using hd⟩
    · exact .inr ⟨Nat.le_of_eq (congrArg List.length hd), hev⟩
  removeId fd := triple_world fun w failed ⟨hfd, hL⟩ ch r w' _ _ _ he => by
    subst hfd
    rcases exec_fremovexattr he with ⟨rfl, -, rfl⟩ | ⟨e, rfl, rfl, -⟩
    · exact .inl (hL.setObjectId none)
    · exact .inl hL
  unlock _ _ := triple_quiet rfl
  close _ _ := triple_quiet rfl

/-- An invocation on the file keeps what is known of its content. -/
theorem wp_code {orig : Bytes} {i : ℕ} {op : Op} {s : World × Bool}
    (hn : s.1.names op.path = some i) (hI : ContentInv orig i s.1) :
    (op.code storeOps).wp faultCalls (fun _ t => ContentInv orig i t.1) s := by
  cases op with
  | upload path buf =>
    exact Prog.wp_bind.mpr ((uploadOutline orig i path buf).sound ⟨hn, hI⟩)
  | download path => exact (downloadOutline orig i path).sound ⟨hn, hI⟩

/-! ## Runs -/

/-- What is left of the present invocation will leave the content recoverable. -/
def FaultInv (orig : Bytes) (i : ℕ) (s : FaultState) : Prop :=
  s.prog.wp faultCalls (fun _ t => ContentInv orig i t.1) (s.world, s.failed)

theorem FaultInv.contentInv {orig : Bytes} {i : ℕ} {s : FaultState} (h : FaultInv orig i s)
    (hret : s.returned = true) : ContentInv orig i s.world := by
  obtain ⟨w, failed, p⟩ := s
  cases p with
  | ret r => exact h
  | call c k => exact absurd hret (by simp [FaultState.returned])

theorem FaultInv.step {orig : Bytes} {i : ℕ} {s s' : FaultState} {l : FaultLabel}
    (h : FaultInv orig i s) (hP : NoFailedExtension s l) (hl : faultStep i s l = some s') :
    FaultInv orig i s' := by
  cases l with
  | start op =>
    simp only [faultStep] at hl
    split at hl
    · next hc =>
        obtain rfl := Option.some.inj hl
        exact wp_code hc.2 (h.contentInv hc.1)
    · cases hl
  | answer ch =>
    obtain ⟨⟨p, w, failed⟩, hp, rfl⟩ := Option.map_eq_some_iff.mp hl
    obtain ⟨c, k, r, hc, he, rfl⟩ := Prog.step_eq_some hp
    rw [FaultInv, hc] at h
    exact Prog.wp_call h ⟨ch, hP c k hc, he⟩

/-- **No failure loses data, as long as an emptied file can be extended again.**  At every return
the content is recoverable. -/
theorem reach_contentKept {orig : Bytes} {i : ℕ} {w₀ : World} {s : FaultState}
    (h₀ : w₀.inode i = { data := orig })
    (h : Reach (faultStep i) NoFailedExtension ⟨w₀, false, .ret 0⟩ s) (hret : s.returned = true) :
    ContentKept orig i s.world := by
  have hI : FaultInv orig i s := by
    refine h.invariant (I := FaultInv orig i) (.inl ⟨?_, ?_⟩) fun _ _ _ hs hP hl => hs.step hP hl
    · rw [h₀]
    · rw [h₀]
  exact (hI.contentInv hret).contentKept

/-- The eviction of that file. -/
def evictOneByteFile : FaultLabel := .start (.upload (ascii "a") (List.replicate s3XattrSize 0))

/-- Where every call is carried out, the content is kept: the file is a stub, the content in the
store. -/
theorem contentKept_oneByteFile : ∃ s : FaultState, (s.world.inode 0).stub = some [] ∧
    s.returned = true ∧ ContentKept [7] 0 s.world := by
  have hP : ∀ s, ∀ l ∈ evictOneByteFile :: List.replicate 11 (.answer .ok),
      NoFailedExtension s l := by
    intro s l hl
    rcases List.mem_cons.mp hl with rfl | hl
    · trivial
    · obtain rfl := List.eq_of_mem_replicate hl
      exact fun _ _ _ _ _ _ _ => rfl
  have hrun : ((run (faultStep 0) ⟨oneByteFile, false, .ret 0⟩
      (evictOneByteFile :: List.replicate 11 (.answer .ok))).any fun s =>
        s.returned && decide ((s.world.inode 0).stub = some [])) = true := by decide
  obtain ⟨s, hs, hp⟩ := Reach.exists_of_run hP hrun
  obtain ⟨hret, hd⟩ := (Bool.and_eq_true _ _).mp hp
  exact ⟨s, of_decide_eq_true hd, hret, reach_contentKept rfl hs hret⟩

/-- **Where the extension fails, the content is lost**: the clean-up takes both attributes away from
the file that has just been emptied. -/
theorem not_contentKept_of_extension_failed :
    ∃ s, Reach (faultStep 0) (fun _ _ => True) ⟨oneByteFile, false, .ret 0⟩ s ∧
      s.returned = true ∧ ¬ContentKept [7] 0 s.world := by
  have hrun : ((run (faultStep 0) ⟨oneByteFile, false, .ret 0⟩
      (evictOneByteFile :: (List.replicate 8 (.answer .ok) ++ .answer (.fail .eio) ::
        List.replicate 4 (.answer .ok)))).any fun s =>
          s.returned && decide (¬ContentKept [7] 0 s.world)) = true := by decide
  obtain ⟨s, hs, hp⟩ := Reach.exists_of_run (fun _ _ _ => trivial) hrun
  obtain ⟨hret, hk⟩ := (Bool.and_eq_true _ _).mp hp
  exact ⟨s, hs, hret, of_decide_eq_true hk⟩

end Recovery

end CloudTiering
