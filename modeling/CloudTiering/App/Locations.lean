import CloudTiering.App.ReturnCodes

/-!
# What an unknown location is taken for

`is_local_file_fd` has three results: local, remote, and unknown where the attribute read has
failed.  Both of its callers use it as a truth value, and to both of them unknown is as good as
local.

* `CheckFailed`, `UploadCalled`: what the record of a run says.
* `settledUpload`, `settledDownload`: the outlines.
* `location_iff`: a remote file is left alone by uploads, and `0` from a download means that the
  file is local, just if the location check does not fail on a remote file.
* `stub_uploaded`: what happens otherwise.
-/

namespace CloudTiering

open Foundations

namespace App

/-! ## What the record says -/

/-- The attribute read of the location check has failed. -/
def CheckFailed (log : Log) : Prop := ∃ fd, (.fgetxattr fd .stub 0, false) ∈ log

/-- The store's `upload` has been called: it begins with `dup`. -/
def UploadCalled (log : Log) : Prop := ∃ fd b, (.dup fd, b) ∈ log

theorem CheckFailed.concat {log : Log} (h : CheckFailed log) (e : Call × Bool) :
    CheckFailed (log ++ [e]) := by
  obtain ⟨fd, hfd⟩ := h
  exact ⟨fd, List.mem_append_left [e] hfd⟩

theorem UploadCalled.concat {log : Log} (h : UploadCalled log) (e : Call × Bool) :
    UploadCalled (log ++ [e]) := by
  obtain ⟨fd, b, hfd⟩ := h
  exact ⟨fd, b, List.mem_append_left [e] hfd⟩

/-- Only a failing location check makes a difference. -/
theorem checkFailed_concat {log : Log} {e : Call × Bool}
    (he : ∀ fd, e ≠ (.fgetxattr fd .stub 0, false)) :
    CheckFailed (log ++ [e]) ↔ CheckFailed log := by
  refine exists_congr fun fd => ?_
  rw [List.mem_append, List.mem_singleton]
  exact or_iff_left fun h => he fd h.symm

/-- Only a `dup` makes a difference. -/
theorem uploadCalled_concat {log : Log} {e : Call × Bool} (he : ∀ fd b, e ≠ (.dup fd, b)) :
    UploadCalled (log ++ [e]) ↔ UploadCalled log := by
  refine exists_congr fun fd => exists_congr fun b => ?_
  rw [List.mem_append, List.mem_singleton]
  exact or_iff_left fun h => he fd b h.symm

/-- The location check finds the attribute, or misses it, or has failed. -/
theorem check_cases {w w' : World} {ch : Choice} {fd : Fd} {r : Except Errno Bytes}
    (he : exec w ch (.fgetxattr fd .stub 0) = some (r, w')) :
    w' = w ∧ ((CarriedOut ch = true ∧ ((∃ v, r = .ok v ∧ (w.inode fd.ino).stub.isSome = true) ∨
      r = .error .enoattr ∧ (w.inode fd.ino).stub = none)) ∨
        (CarriedOut ch = false ∧ ∃ e, r = .error e)) := by
  rcases attempt_eq_some he with ⟨rfl, -⟩ | ⟨e, rfl, hx⟩
  · have hcheck := check_truthful he fun _ h => absurd (congrArg Prod.snd h) (by simp [CarriedOut])
    exact ⟨hcheck.1, .inl ⟨rfl, hcheck.2⟩⟩
  · obtain ⟨hr, hw⟩ := Prod.mk.inj hx
    exact ⟨hw, .inr ⟨rfl, e, hr⟩⟩

/-! ## Uploads -/

section

variable {i : ℕ} {n₀ : Inode} {w w' : World} {log : Log} {e : Call × Bool}

/-- The file is as remote as it was, and nothing has gone wrong. -/
def Untouched (i : ℕ) (n₀ : Inode) (t : World × Log) : Prop :=
  (t.1.inode i).stub = n₀.stub ∧ ¬ CheckFailed t.2 ∧ ¬ UploadCalled t.2

/-- The file is local, or its location is unknown and has been taken for local. -/
def TakenForLocal (n₀ : Inode) (t : World × Log) : Prop := n₀.stub = none ∨ CheckFailed t.2

/-- The same, and the store's `upload` has been called. -/
def SentOff (n₀ : Inode) (t : World × Log) : Prop :=
  n₀.stub = none ∨ CheckFailed t.2 ∧ UploadCalled t.2

/-- The location of a remote file has been known to the upload if and only if the file has been left
alone. -/
def UploadSound (n₀ : Inode) (t : World × Log) : Prop :=
  (n₀.stub.isSome = true → ¬ UploadCalled t.2) ↔ (n₀.stub.isSome = true → ¬ CheckFailed t.2)

theorem Untouched.next (h : Untouched i n₀ (w, log)) (hc : ∀ fd, e ≠ (.fgetxattr fd .stub 0, false))
    (hu : ∀ fd b, e ≠ (.dup fd, b)) (hs : (w'.inode i).stub = (w.inode i).stub) :
    Untouched i n₀ (w', log ++ [e]) :=
  ⟨hs.trans h.1, fun hf => h.2.1 ((checkFailed_concat hc).mp hf),
    fun hf => h.2.2 ((uploadCalled_concat hu).mp hf)⟩

theorem Untouched.sound (h : Untouched i n₀ (w, log)) : UploadSound n₀ (w, log) :=
  iff_of_true (fun _ => h.2.2) fun _ => h.2.1

theorem SentOff.sound {t : World × Log} (h : SentOff n₀ t) : UploadSound n₀ t := by
  rcases h with h | ⟨hc, hu⟩
  · refine iff_of_true ?_ ?_
    · intro hs
      rw [h] at hs
      exact absurd hs Bool.false_ne_true
    · intro hs
      rw [h] at hs
      exact absurd hs Bool.false_ne_true
  · by_cases hs : n₀.stub.isSome = true
    · exact iff_of_false (fun h => h hs hu) fun h => h hs hc
    · exact iff_of_true (fun h => absurd h hs) fun h => absurd h hs

theorem TakenForLocal.concat {t : World × Log} (h : TakenForLocal n₀ t) (w' : World)
    (e : Call × Bool) :
    TakenForLocal n₀ (w', t.2 ++ [e]) :=
  h.imp id fun hc => hc.concat e

theorem SentOff.concat {t : World × Log} (h : SentOff n₀ t) (w' : World) (e : Call × Bool) :
    SentOff n₀ (w', t.2 ++ [e]) :=
  h.imp id fun hc => ⟨hc.1.concat e, hc.2.concat e⟩

/-- Behind the call of the store's `upload` no call makes a difference. -/
theorem triple_sentOff {c : Call} {Q : Rep c → World × Log → Prop}
    (hQ : ∀ r t, SentOff n₀ t → Q r t) :
    Prog.Triple (loggedCalls fun _ => True) (SentOff n₀) c Q :=
  triple_logged fun _ _ _ r w' h _ _ => hQ r _ (h.concat w' _)

theorem wp_sentOff {α : Type} {p : Sys α} {t : World × Log} (h : SentOff n₀ t) :
    p.wp (loggedCalls fun _ => True) (fun _ => SentOff n₀) t := by
  induction p generalizing t with
  | ret a => exact h
  | call c k ih =>
    refine ⟨trivial, ?_⟩
    rintro r ⟨w', log'⟩ ⟨ch, -, hlog, -⟩
    dsimp only at hlog
    rw [hlog]
    exact ih r (h.concat w' _)

/-- The outline of an upload. -/
def settledUpload (retries : Int) (path buf : Bytes) (i : ℕ) (n₀ : Inode) :
    UploadOutline (loggedCalls fun _ => True) (s3Ops retries) path buf fun _ _ t =>
      UploadSound n₀ t where
  start t := t.1.names path = some i ∧ Untouched i n₀ t
  opened fd t := fd.ino = i ∧ Untouched i n₀ t
  locked fd t := fd.ino = i ∧ Untouched i n₀ t
  isLocal _ t := TakenForLocal n₀ t
  stored _ t := SentOff n₀ t
  named _ t := SentOff n₀ t
  stubbed _ t := SentOff n₀ t
  sized _ _ t := SentOff n₀ t
  emptied _ _ t := SentOff n₀ t
  undo _ t := SentOff n₀ t
  undoStub _ t := SentOff n₀ t
  undoId _ t := SentOff n₀ t
  leaving _ _ _ t := Untouched i n₀ t ∨ SentOff n₀ t
  closing _ _ _ t := Untouched i n₀ t ∨ SentOff n₀ t
  openFile := triple_logged fun w log ch r w' ⟨hname, h⟩ he _ => by
    rcases exec_openFile he with ⟨j, hj, rfl, rfl⟩ | ⟨e, rfl, rfl⟩
    · obtain rfl := Option.some.inj (hname.symm.trans hj)
      exact ⟨rfl, h.next (by simp) (by simp) rfl⟩
    · exact (h.next (by simp) (by simp) rfl).sound
  lock fd := triple_logged fun w log ch r w' ⟨hfd, h⟩ he _ => by
    have hnext : Untouched i n₀ (w', log ++ [(.fsetxattr fd .locked [] .create, CarriedOut ch)]) :=
      h.next (by simp) (by simp) ((exec_quiet rfl he).stub i)
    cases r with
    | ok u => exact ⟨hfd, hnext⟩
    | error e => exact .inl hnext
  check fd := triple_logged fun w log ch r w' ⟨hfd, h⟩ he _ => by
    subst hfd
    obtain ⟨rfl, ⟨hok, ⟨v, rfl, -⟩ | ⟨rfl, hnone⟩⟩ | ⟨hfail, e, rfl⟩⟩ := check_cases he
    · rw [hok]
      exact .inl (h.next (by simp) (by simp) rfl)
    · exact .inl (h.1.symm.trans hnone)
    · -- the read has failed: this is taken for local, whatever the error is
      have hfailed : TakenForLocal n₀ (w', log ++ [(.fgetxattr fd .stub 0, CarriedOut ch)]) :=
        .inr ⟨fd, by rw [hfail]; simp⟩
      cases e <;> exact hfailed
  upload fd t ht := by
    have hdup : Prog.Triple (loggedCalls fun _ => True) (TakenForLocal n₀) (.dup fd) fun _ =>
        SentOff n₀ := by
      refine triple_logged fun w log ch r w' h _ _ => h.imp id fun hc =>
        ⟨hc.concat _, fd, CarriedOut ch, ?_⟩
      exact List.mem_append_right log List.mem_cons_self
    refine hdup.bind ht fun r t ht => Prog.wp_mono (wp_sentOff ht) fun r t ht => ?_
    split
    · exact .inr ht
    · exact ht
  setId _ := triple_sentOff fun r t ht => by
    cases r with
    | ok u => exact ht
    | error e => exact .inr ht
  setStub _ := triple_sentOff fun r t ht => by cases r <;> exact ht
  fstat _ := triple_sentOff fun r t ht => by
    cases r with
    | ok n => exact ht
    | error e => exact .inr ht
  empty _ _ := triple_sentOff fun r t ht => by cases r <;> exact ht
  extend _ _ := triple_sentOff fun r t ht => by
    cases r with
    | ok u => exact .inr ht
    | error e => exact ht
  removeIdUndo _ := triple_sentOff fun _ _ ht => ht
  removeStub _ := triple_sentOff fun _ _ ht => .inr ht
  removeId _ := triple_sentOff fun _ _ ht => .inr ht
  unlock fd _ _ := triple_logged fun w log ch _ w' h he _ => by
    rcases h with h | h
    · exact .inl (h.next (by simp) (by simp) ((exec_quiet rfl he).stub i))
    · exact .inr (h.concat w' _)
  close fd _ _ := triple_logged fun w log ch _ w' h he _ => by
    rcases h with h | h
    · exact (h.next (by simp) (by simp) ((exec_quiet rfl he).stub i)).sound
    · exact (h.concat w' _).sound

end

/-! ## Downloads -/

section

variable {i : ℕ} {n₀ : Inode} {w w' : World} {log : Log} {e : Call × Bool}

/-- The location of a remote file has been known to the download if and only if the file is local
where the download is to return `0`. -/
def DownloadSound (i : ℕ) (n₀ : Inode) (r : Int) (t : World × Log) : Prop :=
  (r = 0 → (t.1.inode i).stub = none) ↔ (n₀.stub.isSome = true → ¬ CheckFailed t.2)

theorem DownloadSound.next {r : Int} (h : DownloadSound i n₀ r (w, log))
    (hc : ∀ fd, e ≠ (.fgetxattr fd .stub 0, false)) (hs : (w'.inode i).stub = (w.inode i).stub) :
    DownloadSound i n₀ r (w', log ++ [e]) := by
  unfold DownloadSound at h ⊢
  dsimp only at h ⊢
  rw [checkFailed_concat hc, hs]
  exact h

/-- A download that fails says nothing. -/
theorem downloadSound_failed {t : World × Log} (h : ¬ CheckFailed t.2) :
    DownloadSound i n₀ (-1) t :=
  iff_of_true (fun h => absurd h (by decide)) fun _ => h

/-- A call of a download on a file whose location it knows. -/
theorem triple_known {c : Call} {Q : Rep c → World × Log → Prop}
    (hc : ∀ fd, c ≠ .fgetxattr fd .stub 0)
    (hQ : ∀ r t, ¬ CheckFailed t.2 → Q r t) :
    Prog.Triple (loggedCalls fun _ => True) (fun t => ¬ CheckFailed t.2) c Q := by
  refine triple_logged fun w log ch r w' h _ _ => hQ r _ fun hf => h ((checkFailed_concat ?_).mp hf)
  exact fun fd heq => hc fd (Prod.mk.inj heq).1

/-- The outline of a download. -/
def settledDownload (retries : Int) (path : Bytes) (i : ℕ) (n₀ : Inode) :
    DownloadOutline (loggedCalls fun _ => True) (s3Ops retries) path fun r t =>
      DownloadSound i n₀ r t where
  start t := t.1.names path = some i ∧ (t.1.inode i).stub = n₀.stub ∧ ¬ CheckFailed t.2
  opened fd t := fd.ino = i ∧ (t.1.inode i).stub = n₀.stub ∧ ¬ CheckFailed t.2
  locked fd t := fd.ino = i ∧ (t.1.inode i).stub = n₀.stub ∧ ¬ CheckFailed t.2
  remote fd t := fd.ino = i ∧ ¬ CheckFailed t.2
  known fd _ t := fd.ino = i ∧ ¬ CheckFailed t.2
  loaded fd t := fd.ino = i ∧ ¬ CheckFailed t.2
  unstubbed fd t := fd.ino = i ∧ (t.1.inode i).stub = none ∧ ¬ CheckFailed t.2
  leaving _ r t := DownloadSound i n₀ r t
  closing _ r t := DownloadSound i n₀ r t
  openFile := triple_logged fun w log ch r w' ⟨hname, hs, h⟩ he _ => by
    have hno : ¬ CheckFailed (log ++ [(.openFile path, CarriedOut ch)]) :=
      fun hf => h ((checkFailed_concat (by simp)).mp hf)
    rcases exec_openFile he with ⟨j, hj, rfl, rfl⟩ | ⟨e, rfl, rfl⟩
    · obtain rfl := Option.some.inj (hname.symm.trans hj)
      exact ⟨rfl, hs, hno⟩
    · exact downloadSound_failed hno
  lock fd := triple_logged fun w log ch r w' ⟨hfd, hs, h⟩ he _ => by
    have hno : ¬ CheckFailed (log ++ [(.fsetxattr fd .locked [] .create, CarriedOut ch)]) :=
      fun hf => h ((checkFailed_concat (by simp)).mp hf)
    cases r with
    | ok u => exact ⟨hfd, ((exec_quiet rfl he).stub i).trans hs, hno⟩
    | error e => exact downloadSound_failed hno
  check fd := triple_logged fun w log ch r w' ⟨hfd, hs, h⟩ he _ => by
    subst hfd
    obtain ⟨rfl, ⟨hok, hcases⟩ | ⟨hfail, e, rfl⟩⟩ := check_cases he
    · have hno : ¬ CheckFailed (log ++ [(.fgetxattr fd .stub 0, CarriedOut ch)]) := by
        rw [checkFailed_concat (by simp [hok])]
        exact h
      rcases hcases with ⟨v, rfl, -⟩ | ⟨rfl, hnone⟩
      · exact ⟨rfl, hno⟩
      · exact iff_of_true (fun _ => hnone) fun _ => hno
    · -- the read has failed, and the download is about to return `0`
      have hsound : DownloadSound fd.ino n₀ 0
          (w', log ++ [(.fgetxattr fd .stub 0, CarriedOut ch)]) := by
        have hfailed : CheckFailed (log ++ [(.fgetxattr fd .stub 0, CarriedOut ch)]) :=
          ⟨fd, by rw [hfail]; simp⟩
        have hstub : (w'.inode fd.ino).stub = n₀.stub := hs
        unfold DownloadSound
        dsimp only
        rw [hstub]
        cases n₀.stub with
        | none => exact iff_of_true (fun _ => rfl) fun h => absurd h Bool.false_ne_true
        | some v => exact iff_of_false (fun h => absurd (h rfl) (by simp)) fun h => h rfl hfailed
      cases e <;> exact hsound
  getId fd := Prog.Triple.lift fun hfd => triple_known (by simp) fun r t ht => by
    cases r with
    | ok v => exact ⟨hfd, ht⟩
    | error e => exact downloadSound_failed ht
  download fd id t ht := by
    refine Prog.wp_mono (Prog.wp_of_allCalls_keep (I := fun t => ¬ CheckFailed t.2)
      (allCalls_s3Download retries fd id) (fun _ _ _ _ => trivial) ?_ ht.2) fun r t h => ?_
    · rintro ⟨w, log⟩ c r ⟨w', log'⟩ hc hno ⟨ch, -, hlog, -⟩
      dsimp only at hlog
      rw [hlog]
      refine fun hf => hno ((checkFailed_concat ?_).mp hf)
      rintro fd' heq
      rw [(Prod.mk.inj heq).1] at hc
      exact absurd hc (by simp [isTransferCall])
    · split
      · exact downloadSound_failed h
      · exact ⟨ht.1, h⟩
  removeStub fd := triple_logged fun w log ch r w' ⟨hfd, h⟩ he _ => by
    subst hfd
    have hno : ¬ CheckFailed (log ++ [(.fremovexattr fd .stub, CarriedOut ch)]) :=
      fun hf => h ((checkFailed_concat (by simp)).mp hf)
    rcases exec_fremovexattr he with ⟨rfl, -, rfl⟩ | ⟨e, rfl, rfl, -⟩
    · exact ⟨rfl, World.xattr_setXattr_self w fd.ino none .stub, hno⟩
    · exact downloadSound_failed hno
  removeId fd := triple_logged fun w log ch r w' ⟨hfd, hnone, h⟩ he _ => by
    subst hfd
    have hno : ¬ CheckFailed (log ++ [(.fremovexattr fd .objectId, CarriedOut ch)]) :=
      fun hf => h ((checkFailed_concat (by simp)).mp hf)
    rcases exec_fremovexattr he with ⟨rfl, -, rfl⟩ | ⟨e, rfl, rfl, -⟩
    · refine iff_of_true (fun _ => ?_) fun _ => hno
      have hkept := World.xattr_setXattr_of_ne w (j := fd.ino) (i := fd.ino) none
        fun _ => (by simp : Xattr.stub ≠ .objectId)
      exact hkept.trans hnone
    · exact downloadSound_failed hno
  unlock fd r := triple_logged fun w log ch _ w' h he _ =>
    h.next (by simp) ((exec_quiet rfl he).stub i)
  close fd r := triple_logged fun w log ch _ w' h he _ =>
    h.next (by simp) ((exec_quiet rfl he).stub i)

end

/-! ## The result -/

theorem not_checkFailed_nil : ¬ CheckFailed [] := by
  rintro ⟨fd, h⟩
  exact absurd h List.not_mem_nil

theorem not_uploadCalled_nil : ¬ UploadCalled [] := by
  rintro ⟨fd, b, h⟩
  exact absurd h List.not_mem_nil

/-- **When a location is taken for what it is**: an upload calls the store's `upload` on no remote
file, and a download returns `0` only if the file is local, if and only if the attribute read of the
location check does not fail on a remote file. -/
theorem location_iff {w w' : World} {i : ℕ} {path : Bytes} {retries : Int} {cs cs' : List Choice}
    {log : Log} (hname : w.names path = some i) :
    (∀ buf a, (uploadFile (s3Ops retries) path buf).runWith (Prog.scripted execLogged)
      ((w, []), cs) =
        some (a, ((w', log), cs')) →
      (((w.inode i).stub.isSome = true → ¬ UploadCalled log) ↔
        ((w.inode i).stub.isSome = true → ¬ CheckFailed log))) ∧
    ∀ r, (downloadFile (s3Ops retries) path).runWith (Prog.scripted execLogged) ((w, []), cs) =
        some (r, ((w', log), cs')) →
      ((r = 0 → (w'.inode i).stub = none) ↔
        ((w.inode i).stub.isSome = true → ¬ CheckFailed log)) := by
  refine ⟨fun buf a hrun => ?_, fun r hrun => ?_⟩
  · refine of_runWith_logged (Q := fun _ t => UploadSound (w.inode i) t) ?_ hrun fun _ _ => trivial
    exact (settledUpload retries path buf i (w.inode i)).sound
      ⟨hname, rfl, not_checkFailed_nil, not_uploadCalled_nil⟩
  · refine of_runWith_logged (Q := fun r t => DownloadSound i (w.inode i) r t) ?_ hrun fun _ _ =>
      trivial
    exact (settledDownload retries path i (w.inode i)).sound ⟨hname, rfl, not_checkFailed_nil⟩

/-- A remote file of one byte, with its object. -/
def storedFile : World where
  inode _ := { data := [0], stub := some [], objectId := some [1, 0] }
  names _ := some 0
  store key := if key = [1] then some [7] else none

/-- A remote file is not uploaded again, and it is downloaded. -/
theorem location_storedFile :
    (∃ a w' log, (uploadFile (s3Ops 1) [1] (List.replicate s3XattrSize 0)).runWith
      (Prog.scripted execLogged)
          ((storedFile, []), [.ok, .ok, .ok, .ok, .ok]) = some (a, ((w', log), [])) ∧
        (((storedFile.inode 0).stub.isSome = true → ¬ UploadCalled log) ↔
          ((storedFile.inode 0).stub.isSome = true → ¬ CheckFailed log))) ∧
      ∃ r w' log, (downloadFile (s3Ops 1) [1]).runWith (Prog.scripted execLogged) ((storedFile, []),
          [.ok, .ok, .ok, .ok, .ok, .ok, .ok, .size 1, .ok, .ok, .ok, .ok, .ok, .ok, .ok]) =
          some (r, ((w', log), [])) ∧
        ((r = 0 → (w'.inode 0).stub = none) ↔
          ((storedFile.inode 0).stub.isSome = true → ¬ CheckFailed log)) := by
  have hup : ∃ a w' log, (uploadFile (s3Ops 1) [1] (List.replicate s3XattrSize 0)).runWith
      (Prog.scripted execLogged) ((storedFile, []), [.ok, .ok, .ok, .ok, .ok]) =
        some (a, ((w', log), [])) := ⟨_, _, _, rfl⟩
  have hdown : ∃ r w' log, (downloadFile (s3Ops 1) [1]).runWith (Prog.scripted execLogged)
      ((storedFile, []),
      [.ok, .ok, .ok, .ok, .ok, .ok, .ok, .size 1, .ok, .ok, .ok, .ok, .ok, .ok, .ok]) =
        some (r, ((w', log), [])) := ⟨_, _, _, rfl⟩
  obtain ⟨a, w', log, hup⟩ := hup
  obtain ⟨r, v', log', hdown⟩ := hdown
  exact ⟨⟨a, w', log, hup, (location_iff rfl).1 _ a hup⟩, r, v', log', hdown,
    (location_iff rfl).2 r hdown⟩

/-- **A stub that is uploaded**: the attribute read fails, and the stub is taken for a local
file. -/
theorem stub_uploaded :
    ¬ ∀ (w w' : World) (i : ℕ) (path buf : Bytes) (retries : Int) (cs cs' : List Choice) (log : Log)
      (a : Int × Bytes), w.names path = some i →
      (uploadFile (s3Ops retries) path buf).runWith (Prog.scripted execLogged) ((w, []), cs) =
        some (a, ((w', log), cs')) →
      (w.inode i).stub.isSome = true → ¬ UploadCalled log := by
  intro h
  refine h storedFile _ 0 [1] (List.replicate s3XattrSize 0) 1
    [.ok, .ok, .fail .eio, .ok, .ok, .ok, .size 1, .ok, .ok, .ok, .ok, .ok, .ok] [] _ _ rfl rfl rfl
    ⟨⟨0, 0⟩, true, by decide⟩

/-- There the object, the only copy of the content, is replaced by the zero of the stub. -/
example : ((uploadFile (s3Ops 1) [1] (List.replicate s3XattrSize 0)).runWith
    (Prog.scripted execLogged)
    ((storedFile, []), [.ok, .ok, .fail .eio, .ok, .ok, .ok, .size 1, .ok, .ok, .ok, .ok,
      .ok, .ok])).map
      (fun a => a.2.1.1.store [1]) = some (some [0]) := by decide

end App

end CloudTiering
