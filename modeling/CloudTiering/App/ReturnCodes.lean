import CloudTiering.App.Outline
import CloudTiering.App.S3Outline
import CloudTiering.System.Answers

/-!
# What the return code says

`upload_file` and `download_file` change two attributes, one after the other, and on a later failure
have to restore what they have changed.  A run is given by the list of the environment's choices; it
records the calls and whether each has been carried out.

* `Log`, `execLogged`: the record of the calls.
* `KeepsWord`: what the return code promises about the location of the file.
* `wp_uploadFile_word`, `wp_downloadFile_word`: the outlines.
* `returnCode_iff`: the word is kept just if the two calls do not fail for which there is no
  clean-up.
-/

namespace CloudTiering

open Foundations

namespace App

/-! ## The record of the calls -/

/-- The calls made so far, and whether each has been carried out. -/
abbrev Log := List (Call × Bool)

/-- `exec` with a record of the calls. -/
def execLogged (s : World × Log) (ch : Choice) (c : Call) : Option (Rep c × (World × Log)) :=
  (exec s.1 ch c).map fun a => (a.1, (a.2, s.2 ++ [(c, CarriedOut ch)]))

/-- The reading of the calls, recorded, in which every entry of the record is an allowed one. -/
def loggedCalls (allowed : Call × Bool → Prop) : Calls Call Rep (World × Log) where
  pre _ _ := True
  post s c r s' := ∃ ch, exec s.1 ch c = some (r, s'.1) ∧ s'.2 = s.2 ++ [(c, CarriedOut ch)] ∧
    allowed (c, CarriedOut ch)

theorem triple_logged {allowed : Call × Bool → Prop} {P : World × Log → Prop} {c : Call}
    {Q : Rep c → World × Log → Prop}
    (h : ∀ w log ch r w', P (w, log) → exec w ch c = some (r, w') → allowed (c, CarriedOut ch) →
      Q r (w', log ++ [(c, CarriedOut ch)])) :
    Prog.Triple (loggedCalls allowed) P c Q := by
  rintro ⟨w, log⟩ hP
  refine ⟨trivial, ?_⟩
  rintro r ⟨w', log'⟩ ⟨ch, he, hlog, hallowed⟩
  dsimp only at hlog
  rw [hlog]
  exact h w log ch r w' hP he hallowed

/-- What is checked for the recorded reading holds of a run that ends with an allowed record. -/
theorem of_runWith_logged {allowed : Call × Bool → Prop} {α : Type} {p : Sys α}
    {Q : α → World × Log → Prop} {w w' : World} {cs cs' : List Choice} {log : Log} {a : α}
    (h : p.wp (loggedCalls allowed) Q (w, []))
    (hrun : p.runWith (Prog.scripted execLogged) ((w, []), cs) = some (a, ((w', log), cs')))
    (hallowed : ∀ e ∈ log, allowed e) : Q a (w', log) := by
  have hstep : ∀ (t : (World × Log) × List Choice) (c : Call) (r : Rep c)
      (t' : (World × Log) × List Choice), Prog.scripted execLogged t c = some (r, t') →
      ∃ ch, exec t.1.1 ch c = some (r, t'.1.1) ∧ t'.1.2 = t.1.2 ++ [(c, CarriedOut ch)] := by
    intro t c r t' ht
    obtain ⟨ch, -, he⟩ := Prog.scripted_eq_some ht
    obtain ⟨⟨r', v⟩, hr, heq⟩ := Option.map_eq_some_iff.mp he
    obtain ⟨rfl, hw⟩ := Prod.mk.inj heq
    exact ⟨ch, by rw [← hw]; exact hr, by rw [← hw]⟩
  refine Prog.wp_of_runWith_good (G := fun t => ∀ e ∈ t.1.2, allowed e) Prod.fst ?_ ?_
    h hrun hallowed
  · intro t c r t' ht hG e he
    obtain ⟨ch, -, hlog⟩ := hstep t c r t' ht
    exact hG e (by rw [hlog]; exact List.mem_append_left _ he)
  · intro t c r t' ht hG
    obtain ⟨ch, he, hlog⟩ := hstep t c r t' ht
    exact ⟨ch, he, hlog, hG _ (by rw [hlog]; simp)⟩

/-! ## The word -/

/-- What the return code of a call promises: `0` that both location attributes are set (`remote`) or
that both are missing, `-1` that they are as before. -/
def KeepsWord (remote : Bool) (n n' : Inode) (r : Int) : Prop :=
  (r = 0 → n'.stub.isSome = remote ∧ n'.objectId.isSome = remote) ∧
    (r = -1 → n'.stub = n.stub ∧ n'.objectId = n.objectId)

theorem keepsWord_of_same {remote : Bool} {n n' : Inode} (hs : n'.stub = n.stub)
    (ho : n'.objectId = n.objectId) : KeepsWord remote n n' (-1) :=
  ⟨fun h => absurd h (by decide), fun _ => ⟨hs, ho⟩⟩

theorem keepsWord_zero {remote : Bool} {n n' : Inode} (hs : n'.stub.isSome = remote)
    (ho : n'.objectId.isSome = remote) : KeepsWord remote n n' 0 :=
  ⟨fun _ => ⟨hs, ho⟩, fun h => absurd h (by decide)⟩

/-- `fstat` has failed after the stub attribute had been set. -/
def FstatFailed (log : Log) : Prop :=
  ∃ fd fd', [(Call.fsetxattr fd .stub [] .create, true), (.fstat fd', false)].Sublist log

/-- The removal of `object_id` has failed. -/
def RemovalFailed (log : Log) : Prop := ∃ fd, (.fremovexattr fd .objectId, false) ∈ log

/-- The entries of a record in which the location check and the clean-up have not failed. -/
def uploadAllowed (e : Call × Bool) : Prop :=
  ∀ fd, e ≠ (.fgetxattr fd .stub 0, false) ∧ ∀ x, x ≠ .locked → e ≠ (.fremovexattr fd x, false)

/-- The entries of a record in which the location check has not failed. -/
def downloadAllowed (e : Call × Bool) : Prop := ∀ fd, e ≠ (.fgetxattr fd .stub 0, false)

/-- An entry for a call other than `fstat` does not make a difference. -/
theorem fstatFailed_concat {log : Log} {e : Call × Bool} (he : ∀ fd, e ≠ (.fstat fd, false)) :
    FstatFailed (log ++ [e]) ↔ FstatFailed log := by
  refine exists_congr fun fd => exists_congr fun fd' =>
    Prog.pair_sublist_concat.trans (or_iff_left ?_)
  rintro ⟨-, rfl⟩
  exact he fd' rfl

/-- A failing `fstat` makes a difference once the stub attribute has been set. -/
theorem fstatFailed_concat_fstat {log : Log} {fd' : Fd} :
    FstatFailed (log ++ [(.fstat fd', false)]) ↔
      FstatFailed log ∨ ∃ fd, (.fsetxattr fd .stub [] .create, true) ∈ log := by
  constructor
  · rintro ⟨fd, fd'', h⟩
    rcases Prog.pair_sublist_concat.mp h with h | ⟨h, -⟩
    · exact .inl ⟨fd, fd'', h⟩
    · exact .inr ⟨fd, h⟩
  · rintro (⟨fd, fd'', h⟩ | ⟨fd, h⟩)
    · exact ⟨fd, fd'', Prog.pair_sublist_concat.mpr (.inl h)⟩
    · exact ⟨fd, fd', Prog.pair_sublist_concat.mpr (.inr ⟨h, rfl⟩)⟩

theorem removalFailed_concat {log : Log} {e : Call × Bool}
    (he : ∀ fd, e ≠ (.fremovexattr fd .objectId, false)) :
    RemovalFailed (log ++ [e]) ↔ RemovalFailed log := by
  refine exists_congr fun fd => ?_
  rw [List.mem_append, List.mem_singleton]
  exact or_iff_left fun h => he fd h.symm

/-! ## Calls under the two restrictions -/

section

variable {w w' : World} {ch : Choice} {fd : Fd}

/-- The location check of a call is truthful. -/
theorem check_truthful {r : Except Errno Bytes}
    (he : exec w ch (.fgetxattr fd .stub 0) = some (r, w'))
    (hallowed : downloadAllowed (.fgetxattr fd .stub 0, CarriedOut ch)) :
    w' = w ∧ ((∃ v, r = .ok v ∧ (w.inode fd.ino).stub.isSome = true) ∨
      r = .error .enoattr ∧ (w.inode fd.ino).stub = none) := by
  have hok : ch = .ok := (attempt_ok_or_failed he).resolve_right fun hfail =>
    hallowed fd (by rw [hfail])
  obtain ⟨hw, ⟨u, v, hu, hr, -⟩ | ⟨hr, hnone⟩ | ⟨e, -, -, hsize⟩⟩ := exec_fgetxattr he
  · exact ⟨hw, .inl ⟨v, hr, by rw [show (w.inode fd.ino).stub = some u from hu]; rfl⟩⟩
  · exact ⟨hw, .inr ⟨hr, hnone hok⟩⟩
  · exact absurd rfl (hsize hok).1

/-- The removal of an attribute that is there, as part of a clean-up. -/
theorem cleanup_removes {x : Xattr} {r : Except Errno Unit} (hx : x ≠ .locked)
    (he : exec w ch (.fremovexattr fd x) = some (r, w'))
    (hallowed : uploadAllowed (.fremovexattr fd x, CarriedOut ch))
    (hsome : ((w.inode fd.ino).xattr x).isSome) :
    w' = w.update fd.ino ((w.inode fd.ino).setXattr none x) := by
  have hok : ch = .ok :=
    (attempt_ok_or_failed he).resolve_right fun hfail => (hallowed fd).2 x hx (by rw [hfail])
  rcases exec_fremovexattr he with ⟨-, -, hw⟩ | ⟨e, -, -, hnone⟩
  · exact hw
  · rw [(hnone hok).2] at hsome
    exact absurd hsome (by simp)

end

/-! ## Uploads -/

section

variable {i : ℕ} {n₀ : Inode}

/-- The location attributes of the file are these, and `fstat` has not failed behind the stub. -/
def Held (i : ℕ) (stub objectId : Option Bytes) (t : World × Log) : Prop :=
  (t.1.inode i).stub = stub ∧ (t.1.inode i).objectId = objectId ∧ ¬ FstatFailed t.2

/-- The same, and the stub attribute has not been set by this call. -/
def Fresh (i : ℕ) (stub objectId : Option Bytes) (t : World × Log) : Prop :=
  Held i stub objectId t ∧ ∀ fd, (.fsetxattr fd .stub [] .create, true) ∉ t.2

/-- A call that returns `r` now keeps its word just if `fstat` has not failed behind the stub. -/
def UploadWord (i : ℕ) (n₀ : Inode) (r : Int) (t : World × Log) : Prop :=
  KeepsWord true n₀ (t.1.inode i) r ↔ ¬ FstatFailed t.2

variable {w w' : World} {log : Log} {e : Call × Bool} {stub objectId stub' objectId' : Option Bytes}

theorem Held.next (h : Held i stub objectId (w, log)) (he : ∀ fd, e ≠ (.fstat fd, false))
    (hs : (w'.inode i).stub = stub') (ho : (w'.inode i).objectId = objectId') :
    Held i stub' objectId' (w', log ++ [e]) :=
  ⟨hs, ho, fun hf => h.2.2 ((fstatFailed_concat he).mp hf)⟩

theorem Fresh.next (h : Fresh i stub objectId (w, log))
    (he : ∀ fd, e ≠ (.fsetxattr fd .stub [] .create, true))
    (hs : (w'.inode i).stub = stub') (ho : (w'.inode i).objectId = objectId') :
    Fresh i stub' objectId' (w', log ++ [e]) := by
  refine ⟨⟨hs, ho, ?_⟩, fun fd hfd => ?_⟩
  · rintro ⟨fd, fd', hsub⟩
    rcases Prog.pair_sublist_concat.mp hsub with hsub | ⟨hset, -⟩
    · exact h.1.2.2 ⟨fd, fd', hsub⟩
    · exact h.2 fd hset
  · rcases List.mem_append.mp hfd with hfd | hfd
    · exact h.2 fd hfd
    · exact he fd (List.mem_singleton.mp hfd).symm

/-- The word is kept: the attributes are as before, and `-1` is to be returned. -/
theorem Held.word (h : Held i n₀.stub n₀.objectId (w, log)) : UploadWord i n₀ (-1) (w, log) :=
  iff_of_true (keepsWord_of_same h.1 h.2.1) h.2.2

/-- A call that leaves the location attributes alone. -/
theorem UploadWord.next {r : Int} (h : UploadWord i n₀ r (w, log))
    (he : ∀ fd, e ≠ (.fstat fd, false))
    (hw : SameContent w w') : UploadWord i n₀ r (w', log ++ [e]) := by
  unfold UploadWord KeepsWord at h ⊢
  dsimp only at h ⊢
  rw [fstatFailed_concat he, hw.stub, hw.objectId]
  exact h

/-- The word of an upload. -/
def uploadWord (retries : Int) (path buf : Bytes) (hboth : n₀.stub.isSome = n₀.objectId.isSome) :
    UploadOutline (loggedCalls uploadAllowed) (s3Ops retries) path buf fun r _ t =>
      UploadWord i n₀ r t where
  start t := Fresh i n₀.stub n₀.objectId t ∧ t.1.names path = some i
  opened fd t := fd.ino = i ∧ Fresh i n₀.stub n₀.objectId t
  locked fd t := fd.ino = i ∧ Fresh i n₀.stub n₀.objectId t
  isLocal fd t := fd.ino = i ∧ n₀.stub = none ∧ n₀.objectId = none ∧ Fresh i none none t
  stored fd t := fd.ino = i ∧ n₀.stub = none ∧ n₀.objectId = none ∧ Fresh i none none t
  named fd t := fd.ino = i ∧ n₀.stub = none ∧ n₀.objectId = none ∧ ∃ v, Fresh i none (some v) t
  stubbed fd t := fd.ino = i ∧ n₀.stub = none ∧ n₀.objectId = none ∧
    (∃ v, Held i (some []) (some v) t) ∧ (.fsetxattr fd .stub [] .create, true) ∈ t.2
  sized fd _ t := fd.ino = i ∧ n₀.stub = none ∧ n₀.objectId = none ∧
    ∃ v, Held i (some []) (some v) t
  emptied fd _ t := fd.ino = i ∧ n₀.stub = none ∧ n₀.objectId = none ∧
    ∃ v, Held i (some []) (some v) t
  undo fd t := fd.ino = i ∧ n₀.stub = none ∧ n₀.objectId = none ∧ ∃ v, Held i (some []) (some v) t
  undoStub fd t := fd.ino = i ∧ n₀.stub = none ∧ n₀.objectId = none ∧ Held i (some []) none t
  undoId fd t := fd.ino = i ∧ n₀.stub = none ∧ n₀.objectId = none ∧ ∃ v, Held i none (some v) t
  leaving _ _ r t := UploadWord i n₀ r t
  closing _ _ r t := UploadWord i n₀ r t
  openFile := triple_logged fun w log ch r w' ⟨hfresh, hname⟩ he _ => by
    rcases exec_openFile he with ⟨j, hj, rfl, rfl⟩ | ⟨e, rfl, rfl⟩
    · obtain rfl := Option.some.inj (hname.symm.trans hj)
      exact ⟨rfl, hfresh.next (by simp) hfresh.1.1 hfresh.1.2.1⟩
    · exact (hfresh.next (by simp) hfresh.1.1 hfresh.1.2.1).1.word
  lock fd := triple_logged fun w log ch r w' ⟨hfd, hfresh⟩ he _ => by
    have hsame : SameContent w w' := exec_quiet rfl he
    have hnext : Fresh i n₀.stub n₀.objectId
        (w', log ++ [(.fsetxattr fd .locked [] .create, CarriedOut ch)]) :=
      hfresh.next (by simp) ((hsame.stub i).trans hfresh.1.1)
        ((hsame.objectId i).trans hfresh.1.2.1)
    cases r with
    | ok u => exact ⟨hfd, hnext⟩
    | error e => exact hnext.1.word
  check fd := triple_logged fun w log ch r w' ⟨hfd, hfresh⟩ he hallowed => by
    subst hfd
    obtain ⟨rfl, ⟨v, rfl, hsome⟩ | ⟨rfl, hnone⟩⟩ := check_truthful he fun fd => (hallowed fd).1
    · -- the file is remote: both attributes are set
      have hstub := hfresh.1.1
      have hid := hfresh.1.2.1
      refine iff_of_true (keepsWord_zero hsome ?_) (hfresh.next (by simp) hstub hid).1.2.2
      dsimp only at hstub hid
      rw [hid, ← hboth, ← hstub]
      exact hsome
    · have hn : n₀.stub = none := hfresh.1.1.symm.trans hnone
      have hid : n₀.objectId = none := by
        rw [hn] at hboth
        exact Option.isNone_iff_eq_none.mp (by simpa using hboth.symm)
      refine ⟨rfl, hn, hid, hfresh.next (by simp) hnone (hfresh.1.2.1.trans hid)⟩
  upload fd t ht := by
    obtain ⟨hfd, hn, hid, hfresh⟩ := ht
    refine Prog.wp_mono (Prog.wp_of_allCalls_keep (I := fun t => Fresh i none none t)
      (allCalls_s3Upload retries fd _) (fun _ _ _ _ => trivial) ?_ hfresh) fun r t ht => ?_
    · rintro ⟨w, log⟩ c r ⟨w', log'⟩ hc hfresh ⟨ch, he, hlog, -⟩
      dsimp only at hlog
      rw [hlog]
      have hattr := (exec_transfer hc he).1 i
      refine hfresh.next ?_ ((hattr .stub).trans hfresh.1.1) ((hattr .objectId).trans hfresh.1.2.1)
      rintro fd' heq
      rw [(Prod.mk.inj heq).1] at hc
      exact absurd hc (by simp [isTransferCall])
    · have hword : Held i n₀.stub n₀.objectId t := by
        rw [hn, hid]
        exact ht.1
      split
      · exact hword.word
      · exact ⟨hfd, hn, hid, ht⟩
  setId fd := triple_logged fun w log ch r w' ⟨hfd, hn, hid, hfresh⟩ he _ => by
    subst hfd
    rcases exec_fsetxattr_create he with ⟨rfl, -, rfl⟩ | ⟨e, rfl, rfl, -⟩
    · refine ⟨rfl, hn, hid, (s3GetObjectIdXattrValue path buf).take s3GetObjectIdXattrSize,
        hfresh.next (by simp) ?_ ?_⟩
      · rw [World.inode_update_self]
        exact hfresh.1.1
      · rw [World.inode_update_self]
        rfl
    · refine Held.word (Fresh.next hfresh (by simp) ?_ ?_).1
      · rw [hn]
        exact hfresh.1.1
      · rw [hid]
        exact hfresh.1.2.1
  setStub fd := triple_logged fun w log ch r w' ⟨hfd, hn, hid, v, hfresh⟩ he _ => by
    subst hfd
    rcases exec_fsetxattr_create he with ⟨rfl, hnone, rfl⟩ | ⟨e, rfl, rfl, -⟩
    · rw [carriedOut_of_attempt_ok he]
      refine ⟨rfl, hn, hid, ⟨v, hfresh.1.next (by simp) ?_ ?_⟩, by simp⟩
      · rw [World.inode_update_self]
        rfl
      · rw [World.inode_update_self]
        exact hfresh.1.2.1
    · exact ⟨rfl, hn, hid, v, hfresh.1.next (by simp) hfresh.1.1 hfresh.1.2.1⟩
  fstat fd := triple_logged fun w log ch r w' ⟨hfd, hn, hid, ⟨v, hheld⟩, hset⟩ he _ => by
    obtain ⟨rfl, rfl | ⟨e, rfl, rfl⟩⟩ := exec_fstat he
    · rw [carriedOut_of_attempt_ok he]
      exact ⟨hfd, hn, hid, v, hheld.next (by simp) hheld.1 hheld.2.1⟩
    · -- the stub attribute stays set, and `-1` is returned
      refine iff_of_false (fun hword => ?_) fun hno =>
        hno (fstatFailed_concat_fstat.mpr (.inr ⟨fd, hset⟩))
      have hstub := (hword.2 rfl).1
      rw [hn] at hstub
      exact absurd (hheld.1.symm.trans hstub) (by simp)
  empty fd n := triple_logged fun w log ch r w' ⟨hfd, hn, hid, v, hheld⟩ he _ => by
    subst hfd
    rcases exec_ftruncate he with ⟨rfl, rfl⟩ | ⟨e, rfl, rfl, rfl⟩
    · refine ⟨rfl, hn, hid, v, hheld.next (by simp) ?_ ?_⟩
      · rw [World.ftruncate, World.inode_update_self]
        exact hheld.1
      · rw [World.ftruncate, World.inode_update_self]
        exact hheld.2.1
    · exact ⟨rfl, hn, hid, v, hheld.next (by simp) hheld.1 hheld.2.1⟩
  extend fd n := triple_logged fun w log ch r w' ⟨hfd, hn, hid, v, hheld⟩ he _ => by
    subst hfd
    rcases exec_ftruncate he with ⟨rfl, rfl⟩ | ⟨e, rfl, rfl, rfl⟩
    · refine iff_of_true (keepsWord_zero ?_ ?_) fun hf =>
        hheld.2.2 ((fstatFailed_concat (by simp)).mp hf)
      · rw [World.ftruncate, World.inode_update_self]
        exact congrArg Option.isSome hheld.1
      · rw [World.ftruncate, World.inode_update_self]
        exact congrArg Option.isSome hheld.2.1
    · exact ⟨rfl, hn, hid, v, hheld.next (by simp) hheld.1 hheld.2.1⟩
  removeIdUndo fd := triple_logged fun w log ch r w' ⟨hfd, hn, hid, v, hheld⟩ he hallowed => by
    subst hfd
    obtain rfl := cleanup_removes (by simp) he hallowed (by
      rw [show (w.inode fd.ino).xattr .objectId = some v from hheld.2.1]
      rfl)
    refine ⟨rfl, hn, hid, hheld.next (by simp) ?_ ?_⟩
    · rw [World.inode_update_self]
      exact hheld.1
    · rw [World.inode_update_self]
      rfl
  removeStub fd := triple_logged fun w log ch r w' ⟨hfd, hn, hid, hheld⟩ he hallowed => by
    subst hfd
    obtain rfl := cleanup_removes (by simp) he hallowed (by
      rw [show (w.inode fd.ino).xattr .stub = some [] from hheld.1]
      rfl)
    refine Held.word (hheld.next (by simp) ?_ ?_)
    · rw [World.inode_update_self, hn]
      rfl
    · rw [World.inode_update_self, hid]
      exact hheld.2.1
  removeId fd := triple_logged fun w log ch r w' ⟨hfd, hn, hid, v, hheld⟩ he hallowed => by
    subst hfd
    obtain rfl := cleanup_removes (by simp) he hallowed (by
      rw [show (w.inode fd.ino).xattr .objectId = some v from hheld.2.1]
      rfl)
    refine Held.word (hheld.next (by simp) ?_ ?_)
    · rw [World.inode_update_self, hn]
      exact hheld.1
    · rw [World.inode_update_self, hid]
      rfl
  unlock fd b r := triple_logged fun w log ch _ w' h he _ => h.next (by simp) (exec_quiet rfl he)
  close fd b r := triple_logged fun w log ch _ w' h he _ => h.next (by simp) (exec_quiet rfl he)

end

/-! ## Downloads -/

section

variable {i : ℕ} {n₀ : Inode}

/-- The location attributes of the file are these, and no removal of `object_id` has failed. -/
def Kept (i : ℕ) (stub objectId : Option Bytes) (t : World × Log) : Prop :=
  (t.1.inode i).stub = stub ∧ (t.1.inode i).objectId = objectId ∧ ¬ RemovalFailed t.2

/-- A call that returns `r` now keeps its word just if no removal of `object_id` has failed. -/
def DownloadWord (i : ℕ) (n₀ : Inode) (r : Int) (t : World × Log) : Prop :=
  KeepsWord false n₀ (t.1.inode i) r ↔ ¬ RemovalFailed t.2

variable {w w' : World} {log : Log} {e : Call × Bool} {stub objectId stub' objectId' : Option Bytes}

theorem Kept.next (h : Kept i stub objectId (w, log))
    (he : ∀ fd, e ≠ (.fremovexattr fd .objectId, false))
    (hs : (w'.inode i).stub = stub') (ho : (w'.inode i).objectId = objectId') :
    Kept i stub' objectId' (w', log ++ [e]) :=
  ⟨hs, ho, fun hf => h.2.2 ((removalFailed_concat he).mp hf)⟩

/-- The word is kept: the attributes are as before, and `-1` is to be returned. -/
theorem Kept.word (h : Kept i n₀.stub n₀.objectId (w, log)) : DownloadWord i n₀ (-1) (w, log) :=
  iff_of_true (keepsWord_of_same h.1 h.2.1) h.2.2

/-- A call that leaves the location attributes alone. -/
theorem DownloadWord.next {r : Int} (h : DownloadWord i n₀ r (w, log))
    (he : ∀ fd, e ≠ (.fremovexattr fd .objectId, false)) (hw : SameContent w w') :
    DownloadWord i n₀ r (w', log ++ [e]) := by
  unfold DownloadWord KeepsWord at h ⊢
  dsimp only at h ⊢
  rw [removalFailed_concat he, hw.stub, hw.objectId]
  exact h

/-- The word of a download. -/
def downloadWord (retries : Int) (path : Bytes) (hboth : n₀.stub.isSome = n₀.objectId.isSome) :
    DownloadOutline (loggedCalls downloadAllowed) (s3Ops retries) path fun r t =>
      DownloadWord i n₀ r t where
  start t := Kept i n₀.stub n₀.objectId t ∧ t.1.names path = some i
  opened fd t := fd.ino = i ∧ Kept i n₀.stub n₀.objectId t
  locked fd t := fd.ino = i ∧ Kept i n₀.stub n₀.objectId t
  remote fd t := fd.ino = i ∧ n₀.stub.isSome ∧ Kept i n₀.stub n₀.objectId t
  known fd _ t := fd.ino = i ∧ n₀.stub.isSome ∧ Kept i n₀.stub n₀.objectId t
  loaded fd t := fd.ino = i ∧ n₀.stub.isSome ∧ Kept i n₀.stub n₀.objectId t
  unstubbed fd t := fd.ino = i ∧ n₀.stub.isSome ∧ Kept i none n₀.objectId t
  leaving _ r t := DownloadWord i n₀ r t
  closing _ r t := DownloadWord i n₀ r t
  openFile := triple_logged fun w log ch r w' ⟨hkept, hname⟩ he _ => by
    rcases exec_openFile he with ⟨j, hj, rfl, rfl⟩ | ⟨e, rfl, rfl⟩
    · obtain rfl := Option.some.inj (hname.symm.trans hj)
      exact ⟨rfl, hkept.next (by simp) hkept.1 hkept.2.1⟩
    · exact (hkept.next (by simp) hkept.1 hkept.2.1).word
  lock fd := triple_logged fun w log ch r w' ⟨hfd, hkept⟩ he _ => by
    have hsame : SameContent w w' := exec_quiet rfl he
    have hnext : Kept i n₀.stub n₀.objectId
        (w', log ++ [(.fsetxattr fd .locked [] .create, CarriedOut ch)]) :=
      hkept.next (by simp) ((hsame.stub i).trans hkept.1) ((hsame.objectId i).trans hkept.2.1)
    cases r with
    | ok u => exact ⟨hfd, hnext⟩
    | error e => exact hnext.word
  check fd := triple_logged fun w log ch r w' ⟨hfd, hkept⟩ he hallowed => by
    subst hfd
    obtain ⟨rfl, ⟨v, rfl, hsome⟩ | ⟨rfl, hnone⟩⟩ := check_truthful he hallowed
    · exact ⟨rfl, hkept.1 ▸ hsome, hkept.next (by simp) hkept.1 hkept.2.1⟩
    · -- the file is local: both attributes are missing
      have hstub := hkept.1
      have hid := hkept.2.1
      refine iff_of_true (keepsWord_zero (by rw [hnone]; rfl) ?_)
        (hkept.next (by simp) hstub hid).2.2
      dsimp only at hstub hid
      rw [hid, ← hboth, ← hstub, hnone]
      rfl
  getId fd := triple_logged fun w log ch r w' ⟨hfd, hsome, hkept⟩ he _ => by
    obtain ⟨rfl, -⟩ := exec_fgetxattr he
    have hnext : Kept i n₀.stub n₀.objectId
        (w', log ++ [(.fgetxattr fd .objectId s3GetObjectIdXattrSize, CarriedOut ch)]) :=
      hkept.next (by simp) hkept.1 hkept.2.1
    cases r with
    | ok v => exact ⟨hfd, hsome, hnext⟩
    | error e => exact hnext.word
  download fd id t ht := by
    obtain ⟨hfd, hsome, hkept⟩ := ht
    refine Prog.wp_mono (Prog.wp_of_allCalls_keep (I := fun t => Kept i n₀.stub n₀.objectId t)
      (allCalls_s3Download retries fd id) (fun _ _ _ _ => trivial) ?_ hkept) fun r t ht => ?_
    · rintro ⟨w, log⟩ c r ⟨w', log'⟩ hc hkept ⟨ch, he, hlog, -⟩
      dsimp only at hlog
      rw [hlog]
      have hattr := (exec_transfer hc he).1 i
      refine hkept.next ?_ ((hattr .stub).trans hkept.1) ((hattr .objectId).trans hkept.2.1)
      rintro fd' heq
      rw [(Prod.mk.inj heq).1] at hc
      exact absurd hc (by simp [isTransferCall])
    · split
      · exact ht.word
      · exact ⟨hfd, hsome, ht⟩
  removeStub fd := triple_logged fun w log ch r w' ⟨hfd, hsome, hkept⟩ he _ => by
    subst hfd
    rcases exec_fremovexattr he with ⟨rfl, -, rfl⟩ | ⟨e, rfl, rfl, -⟩
    · refine ⟨rfl, hsome, hkept.next (by simp) ?_ ?_⟩
      · rw [World.inode_update_self]
        rfl
      · rw [World.inode_update_self]
        exact hkept.2.1
    · exact (hkept.next (by simp) hkept.1 hkept.2.1).word
  removeId fd := triple_logged fun w log ch r w' ⟨hfd, hsome, hkept⟩ he _ => by
    subst hfd
    rcases attempt_eq_some he with ⟨rfl, -⟩ | ⟨e, rfl, hx⟩
    · rcases exec_fremovexattr he with ⟨rfl, -, rfl⟩ | ⟨e, -, -, hnone⟩
      · refine iff_of_true (keepsWord_zero ?_ ?_) fun hf =>
          hkept.2.2 ((removalFailed_concat (by simp [CarriedOut])).mp hf)
        · rw [World.inode_update_self]
          exact congrArg Option.isSome hkept.1
        · rw [World.inode_update_self]
          rfl
      · -- an attribute that is there is not missing
        have hid : n₀.objectId = none := hkept.2.1.symm.trans (hnone rfl).2
        rw [hboth, hid] at hsome
        exact absurd hsome (by simp)
    · -- the stub attribute stays removed, and `-1` is returned
      obtain ⟨rfl, rfl⟩ := Prod.mk.inj hx
      refine iff_of_false (fun hword => ?_) fun hno => hno ⟨fd, by simp [CarriedOut]⟩
      have hstub : n₀.stub = none := (hword.2 rfl).1.symm.trans hkept.1
      rw [hstub] at hsome
      exact absurd hsome (by simp)
  unlock fd r := triple_logged fun w log ch _ w' h he _ => h.next (by simp) (exec_quiet rfl he)
  close fd r := triple_logged fun w log ch _ w' h he _ => h.next (by simp) (exec_quiet rfl he)

end

/-! ## The result -/

theorem not_fstatFailed_nil : ¬ FstatFailed [] := by
  rintro ⟨fd, fd', h⟩
  exact absurd h (by simp)

theorem not_removalFailed_nil : ¬ RemovalFailed [] := by
  rintro ⟨fd, h⟩
  exact absurd h (by simp)

/-- **When the return code tells where the file is**, for a file that has both location attributes
or neither: an upload whose location check is truthful and whose clean-up does not fail keeps its
word if and only if `fstat` does not fail once the stub attribute is set; a download whose location
check is truthful, if and only if the removal of `object_id` does not fail. -/
theorem returnCode_iff {w w' : World} {i : ℕ} {path : Bytes} {retries : Int} {cs cs' : List Choice}
    {log : Log} (hname : w.names path = some i)
    (hboth : (w.inode i).stub.isSome = (w.inode i).objectId.isSome) :
    (∀ buf a, (uploadFile (s3Ops retries) path buf).runWith (Prog.scripted execLogged)
      ((w, []), cs) =
        some (a, ((w', log), cs')) → (∀ e ∈ log, uploadAllowed e) →
      (KeepsWord true (w.inode i) (w'.inode i) a.1 ↔ ¬ FstatFailed log)) ∧
    ∀ r, (downloadFile (s3Ops retries) path).runWith (Prog.scripted execLogged) ((w, []), cs) =
        some (r, ((w', log), cs')) → (∀ e ∈ log, downloadAllowed e) →
      (KeepsWord false (w.inode i) (w'.inode i) r ↔ ¬ RemovalFailed log) := by
  refine ⟨fun buf a hrun hallowed => ?_, fun r hrun hallowed => ?_⟩
  · refine of_runWith_logged (Q := fun a t => UploadWord i (w.inode i) a.1 t) ?_ hrun hallowed
    exact (uploadWord retries path buf hboth).sound
      ⟨⟨⟨rfl, rfl, not_fstatFailed_nil⟩, fun _ h => absurd h (by simp)⟩, hname⟩
  · refine of_runWith_logged (Q := fun r t => DownloadWord i (w.inode i) r t) ?_ hrun hallowed
    exact (downloadWord retries path hboth).sound ⟨⟨rfl, rfl, not_removalFailed_nil⟩, hname⟩

/-- A local file of one byte is uploaded, and a remote one is downloaded. -/
theorem returnCode_oneByteFile :
    (∃ a w' log, (uploadFile (s3Ops 1) [1] (List.replicate s3XattrSize 0)).runWith
        (Prog.scripted execLogged)
        (({ inode := fun _ => { data := [7] }, names := fun _ => some 0,
            store := fun _ => none }, []),
          [.ok, .ok, .ok, .ok, .ok, .ok, .size 1, .ok, .ok, .ok, .ok, .ok, .ok, .ok, .ok, .ok,
            .ok]) =
          some (a, ((w', log), [])) ∧
        (KeepsWord true { data := [7] } (w'.inode 0) a.1 ↔ ¬ FstatFailed log)) ∧
      ∃ r w' log, (downloadFile (s3Ops 1) [1]).runWith (Prog.scripted execLogged)
          (({ inode := fun _ => { data := [0], stub := some [], objectId := some [1, 0] },
              names := fun _ => some 0, store := fun _ => some [7] }, []),
            [.ok, .ok, .ok, .ok, .ok, .ok, .ok, .size 1, .ok, .ok, .ok, .ok, .ok, .ok, .ok]) =
          some (r, ((w', log), [])) ∧
        (KeepsWord false { data := [0], stub := some [], objectId := some [1, 0] } (w'.inode 0) r ↔
          ¬ RemovalFailed log) := by
  constructor
  · have hrun : ∃ a w' log, (uploadFile (s3Ops 1) [1] (List.replicate s3XattrSize 0)).runWith
        (Prog.scripted execLogged)
        (({ inode := fun _ => { data := [7] }, names := fun _ => some 0,
            store := fun _ => none }, []),
          [.ok, .ok, .ok, .ok, .ok, .ok, .size 1, .ok, .ok, .ok, .ok, .ok, .ok, .ok, .ok, .ok,
            .ok]) =
        some (a, ((w', log), [])) ∧ ∀ e ∈ log, uploadAllowed e :=
      ⟨_, _, _, rfl, by simp [uploadAllowed, CarriedOut]⟩
    obtain ⟨a, w', log, hrun, hallowed⟩ := hrun
    exact ⟨a, w', log, hrun, (returnCode_iff rfl rfl).1 _ a hrun hallowed⟩
  · have hrun : ∃ r w' log, (downloadFile (s3Ops 1) [1]).runWith (Prog.scripted execLogged)
        (({ inode := fun _ => { data := [0], stub := some [], objectId := some [1, 0] },
            names := fun _ => some 0, store := fun _ => some [7] }, []),
          [.ok, .ok, .ok, .ok, .ok, .ok, .ok, .size 1, .ok, .ok, .ok, .ok, .ok, .ok, .ok]) =
        some (r, ((w', log), [])) ∧ ∀ e ∈ log, downloadAllowed e :=
      ⟨_, _, _, rfl, by simp [downloadAllowed, CarriedOut]⟩
    obtain ⟨r, w', log, hrun, hallowed⟩ := hrun
    exact ⟨r, w', log, hrun, (returnCode_iff rfl rfl).2 r hrun hallowed⟩

/-- An upload sets both attributes, then `fstat` fails: `-1` is returned and the file stays
evicted. -/
theorem not_returnCode :
    ¬ ∀ (w w' : World) (i : ℕ) (path buf : Bytes) (retries : Int) (cs cs' : List Choice) (log : Log)
      (a : Int × Bytes), w.names path = some i → (w.inode i).locked = none →
      (w.inode i).stub.isSome = (w.inode i).objectId.isSome →
      (uploadFile (s3Ops retries) path buf).runWith (Prog.scripted execLogged) ((w, []), cs) =
        some (a, ((w', log), cs')) → (∀ e ∈ log, uploadAllowed e) →
      KeepsWord true (w.inode i) (w'.inode i) a.1 := by
  intro h
  have hword := h { inode := fun _ => { data := [7] }, names := fun _ => some 0, store :=
    fun _ => none }
    _ 0 [1] (List.replicate s3XattrSize 0) 1
    [.ok, .ok, .ok, .ok, .ok, .ok, .size 1, .ok, .ok, .ok, .ok, .ok, .fail .eio, .ok, .ok]
      [] _ _ rfl rfl
    rfl rfl (by simp [uploadAllowed, CarriedOut])
  exact absurd (hword.2 rfl).1 (by decide)

end App

end CloudTiering
