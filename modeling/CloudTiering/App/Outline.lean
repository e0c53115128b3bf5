import CloudTiering.App.Ops

/-!
# Proof outlines for `upload_file` and `download_file`

An outline puts an assertion in front of every call of the program.  To check a program it is enough
to check each call against the assertions before and after it; the walk through the program, with
its error paths, is made here once.

* `outcome`: the assertion after a call that can fail.
* `UploadOutline`, `UploadOutline.sound`.
* `DownloadOutline`, `DownloadOutline.sound`.
-/

namespace CloudTiering

open Foundations

namespace App

variable {σ : Type}

/-- The assertion after a call: `good` of the answer, or `bad` when the call has failed. -/
def outcome {α : Type} (good : α → σ → Prop) (bad : σ → Prop) : Except Errno α → σ → Prop
  | .ok a => good a
  | .error _ => bad

/-- The attribute read of the location check: `present`, or `missing`, or `unknown` on another
error. -/
def location (present missing unknown : σ → Prop) : Except Errno Bytes → σ → Prop
  | .ok _ => present
  | .error .enoattr => missing
  | .error _ => unknown

theorem wp_isLocalFileFd_of_location {K : Calls Call Rep σ} {fd : Fd} {P pr mi un : σ → Prop}
    {Q : Int → σ → Prop} {s : σ}
    (h : Prog.Triple K P (.fgetxattr fd .stub 0) (location pr mi un)) (hs : P s)
    (hpr : ∀ t, pr t → Q 0 t) (hmi : ∀ t, mi t → Q 1 t) (hun : ∀ t, un t → Q (-1) t) :
    (isLocalFileFd fd).wp K Q s := by
  refine wp_isLocalFileFd (h s hs).1 (fun v t ht => hpr t ((h s hs).2 _ t ht))
    (fun t ht => hmi t ((h s hs).2 _ t ht)) (fun e t he ht => hun t ?_)
  have hl := (h s hs).2 _ t ht
  cases e with
  | enoattr => exact absurd rfl he
  | _ => exact hl

/-! ## `upload_file` -/

/-- An outline of `upload_file`.  `leaving fd b r` stands before the last unlocking, with `r` to be
returned and `b` in the id buffer; `undo`, `undoId`, `undoStub` stand before the removals of the
clean-up. -/
structure UploadOutline (K : Calls Call Rep σ) (ops : Ops) (path buf : Bytes)
    (Q : Int → Bytes → σ → Prop) where
  start : σ → Prop
  opened : Fd → σ → Prop
  locked : Fd → σ → Prop
  isLocal : Fd → σ → Prop
  stored : Fd → σ → Prop
  named : Fd → σ → Prop
  stubbed : Fd → σ → Prop
  sized : Fd → ℕ → σ → Prop
  emptied : Fd → ℕ → σ → Prop
  undo : Fd → σ → Prop
  undoStub : Fd → σ → Prop
  undoId : Fd → σ → Prop
  leaving : Fd → Bytes → Int → σ → Prop
  closing : Fd → Bytes → Int → σ → Prop
  openFile : Prog.Triple K start (.openFile path) (outcome opened (Q (-1) buf))
  lock : ∀ fd, Prog.Triple K (opened fd) (.fsetxattr fd .locked [] .create)
    (outcome (fun _ => locked fd) (closing fd buf (-1)))
  check : ∀ fd, Prog.Triple K (locked fd) (.fgetxattr fd .stub 0)
    (location (leaving fd buf 0) (isLocal fd) (isLocal fd))
  upload : ∀ fd s, isLocal fd s → (ops.upload fd (ops.getObjectIdXattrValue path buf)).wp K
    (fun r t => if r = -1 then leaving fd (ops.getObjectIdXattrValue path buf) (-1) t
      else stored fd t) s
  setId : ∀ fd, Prog.Triple K (stored fd)
    (.fsetxattr fd .objectId
      ((ops.getObjectIdXattrValue path buf).take ops.getObjectIdXattrSize) .create)
    (outcome (fun _ => named fd) (leaving fd (ops.getObjectIdXattrValue path buf) (-1)))
  setStub : ∀ fd, Prog.Triple K (named fd) (.fsetxattr fd .stub [] .create)
    (outcome (fun _ => stubbed fd) (undoId fd))
  fstat : ∀ fd, Prog.Triple K (stubbed fd) (.fstat fd)
    (outcome (sized fd) (leaving fd (ops.getObjectIdXattrValue path buf) (-1)))
  empty : ∀ fd n, Prog.Triple K (sized fd n) (.ftruncate fd 0)
    (outcome (fun _ => emptied fd n) (undo fd))
  extend : ∀ fd n, Prog.Triple K (emptied fd n) (.ftruncate fd n)
    (outcome (fun _ => leaving fd (ops.getObjectIdXattrValue path buf) 0) (undo fd))
  removeIdUndo : ∀ fd, Prog.Triple K (undo fd) (.fremovexattr fd .objectId) fun _ => undoStub fd
  removeStub : ∀ fd, Prog.Triple K (undoStub fd) (.fremovexattr fd .stub)
    fun _ => leaving fd (ops.getObjectIdXattrValue path buf) (-1)
  removeId : ∀ fd, Prog.Triple K (undoId fd) (.fremovexattr fd .objectId)
    fun _ => leaving fd (ops.getObjectIdXattrValue path buf) (-1)
  unlock : ∀ fd b r, Prog.Triple K (leaving fd b r) (.fremovexattr fd .locked)
    fun _ => closing fd b r
  close : ∀ fd b r, Prog.Triple K (closing fd b r) (.closeFile fd) fun _ => Q r b

/-! Removals and closing, whose results are not looked at. -/

theorem wp_removeXattr_triple {K : Calls Call Rep σ} {fd : Fd} {x : Xattr} {P Q : σ → Prop} {s : σ}
    (h : Prog.Triple K P (.fremovexattr fd x) fun _ => Q) (hs : P s) :
    (removeXattr fd x).wp K (fun _ t => Q t) s :=
  wp_removeXattr (h s hs).1 (fun t ht => (h s hs).2 _ t ht) fun _ t ht => (h s hs).2 _ t ht

theorem wp_unlockFile_triple {K : Calls Call Rep σ} {fd : Fd} {P Q : σ → Prop} {s : σ}
    (h : Prog.Triple K P (.fremovexattr fd .locked) fun _ => Q) (hs : P s) :
    (unlockFile fd).wp K (fun _ t => Q t) s :=
  wp_unlockFile (h s hs).1 (fun t ht => (h s hs).2 _ t ht) fun _ t ht => (h s hs).2 _ t ht

theorem wp_closeHandleErr_triple {K : Calls Call Rep σ} {fd : Fd} {P Q : σ → Prop} {s : σ}
    (h : Prog.Triple K P (.closeFile fd) fun _ => Q) (hs : P s) :
    (closeHandleErr fd).wp K (fun _ t => Q t) s :=
  Prog.wp_bind.mpr ⟨(h s hs).1, fun r t ht => (h s hs).2 r t ht⟩

theorem wp_setXattr_triple {K : Calls Call Rep σ} {fd : Fd} {x : Xattr} {v : Bytes}
    {fl : XattrFlag} {P good bad : σ → Prop} {Q : Int → σ → Prop} {s : σ}
    (h : Prog.Triple K P (.fsetxattr fd x v fl) (outcome (fun _ => good) bad)) (hs : P s)
    (hgood : ∀ t, good t → Q 0 t) (hbad : ∀ t, bad t → Q (-1) t) :
    (setXattr fd x v fl).wp K Q s :=
  wp_setXattr (h s hs).1 (fun t ht => hgood t ((h s hs).2 _ t ht))
    fun _ t ht => hbad t ((h s hs).2 _ t ht)

/-- The end of every path: unlock, close, return. -/
theorem wp_leave {K : Calls Call Rep σ} {α : Type} {fd : Fd} {leaving closing : σ → Prop} {a : α}
    {Q : α → σ → Prop} {s : σ}
    (hu : Prog.Triple K leaving (.fremovexattr fd .locked) fun _ => closing)
    (hc : Prog.Triple K closing (.closeFile fd) fun _ => Q a) (hs : leaving s) :
    (do
      let _ ← unlockFile fd
      closeHandleErr fd
      return a : Sys α).wp K Q s := by
  refine Prog.wp_bind.mpr (Prog.wp_mono (wp_unlockFile_triple hu hs) fun _ t ht => ?_)
  exact Prog.wp_bind.mpr (wp_closeHandleErr_triple hc ht)

namespace UploadOutline

variable {K : Calls Call Rep σ} {ops : Ops} {path buf : Bytes} {Q : Int → Bytes → σ → Prop}
  (O : UploadOutline K ops path buf Q)

include O

theorem sound_local {fd : Fd} {s : σ} (hs : O.isLocal fd s) :
    (uploadLocalFile ops fd (ops.getObjectIdXattrValue path buf)).wp K
      (fun r t => Q r (ops.getObjectIdXattrValue path buf) t) s := by
  have hleave : ∀ r t, O.leaving fd (ops.getObjectIdXattrValue path buf) r t →
      (do
        let _ ← unlockFile fd
        closeHandleErr fd
        return r : Sys Int).wp K
          (fun r t => Q r (ops.getObjectIdXattrValue path buf) t) t := fun r t ht =>
    wp_leave (O.unlock fd _ r) (O.close fd _ r) ht
  have hundo : ∀ t, O.undo fd t →
      (do
        let _ ← removeXattr fd .objectId
        let _ ← removeXattr fd .stub
        let _ ← unlockFile fd
        closeHandleErr fd
        return -1 : Sys Int).wp K
          (fun r t => Q r (ops.getObjectIdXattrValue path buf) t) t := by
    intro t ht
    refine Prog.wp_bind.mpr (Prog.wp_mono (wp_removeXattr_triple (O.removeIdUndo fd) ht) ?_)
    intro _ t ht
    refine Prog.wp_bind.mpr (Prog.wp_mono (wp_removeXattr_triple (O.removeStub fd) ht) ?_)
    exact fun _ t ht => hleave (-1) t ht
  refine Prog.wp_bind.mpr (Prog.wp_mono (O.upload fd s hs) fun r t ht => ?_)
  by_cases hr : r = -1
  · rw [if_pos hr] at ht
    rw [if_pos hr]
    exact hleave (-1) t ht
  rw [if_neg hr] at ht
  rw [if_neg hr]
  refine Prog.wp_bind.mpr (wp_setXattr_triple (O.setId fd) ht (fun t ht => ?_) fun t ht => ?_)
  swap
  · exact hleave (-1) t ht
  refine Prog.wp_bind.mpr (wp_setXattr_triple (O.setStub fd) ht (fun t ht => ?_) fun t ht => ?_)
  swap
  · refine Prog.wp_bind.mpr (Prog.wp_mono (wp_removeXattr_triple (O.removeId fd) ht) ?_)
    exact fun _ t ht => hleave (-1) t ht
  refine Prog.Triple.bind (O.fstat fd) ht fun r t ht => ?_
  cases r with
  | error e => exact hleave (-1) t ht
  | ok n =>
    refine Prog.Triple.bind (O.empty fd n) ht fun r t ht => ?_
    cases r with
    | error e => exact hundo t ht
    | ok u =>
      refine Prog.Triple.bind (O.extend fd n) ht fun r t ht => ?_
      cases r with
      | error e => exact hundo t ht
      | ok u => exact hleave 0 t ht

/-- **An outline proves its specification.** -/
theorem sound {s : σ} (hs : O.start s) :
    (uploadFile ops path buf).wp K (fun a => Q a.1 a.2) s := by
  refine Prog.Triple.bind O.openFile hs fun r t ht => ?_
  cases r with
  | error e => exact ht
  | ok fd =>
    refine Prog.wp_bind.mpr ?_
    refine wp_tryLockFile (O.lock fd t ht).1 (fun t' ht' => ?_) fun e t' ht' => ?_
    swap
    · exact Prog.wp_bind.mpr (wp_closeHandleErr_triple (O.close fd _ _)
        ((O.lock fd t ht).2 _ t' ht'))
    have hlocal : ∀ u, O.isLocal fd u →
        (do
          return (← uploadLocalFile ops fd (ops.getObjectIdXattrValue path buf),
            ops.getObjectIdXattrValue path buf) : Sys (Int × Bytes)).wp K
          (fun a => Q a.1 a.2) u := fun u hu => Prog.wp_bind.mpr (O.sound_local hu)
    refine Prog.wp_bind.mpr (wp_isLocalFileFd_of_location (O.check fd)
      ((O.lock fd t ht).2 _ t' ht') (fun u hu => ?_) hlocal hlocal)
    exact wp_leave (Q := fun a : Int × Bytes => Q a.1 a.2) (O.unlock fd buf 0) (O.close fd buf 0) hu

end UploadOutline

/-! ## `download_file` -/

/-- An outline of `download_file`. -/
structure DownloadOutline (K : Calls Call Rep σ) (ops : Ops) (path : Bytes)
    (Q : Int → σ → Prop) where
  start : σ → Prop
  opened : Fd → σ → Prop
  locked : Fd → σ → Prop
  remote : Fd → σ → Prop
  known : Fd → Bytes → σ → Prop
  loaded : Fd → σ → Prop
  unstubbed : Fd → σ → Prop
  leaving : Fd → Int → σ → Prop
  closing : Fd → Int → σ → Prop
  openFile : Prog.Triple K start (.openFile path) (outcome opened (Q (-1)))
  lock : ∀ fd, Prog.Triple K (opened fd) (.fsetxattr fd .locked [] .create)
    (outcome (fun _ => locked fd) (closing fd (-1)))
  check : ∀ fd, Prog.Triple K (locked fd) (.fgetxattr fd .stub 0)
    (location (remote fd) (leaving fd 0) (leaving fd 0))
  getId : ∀ fd, Prog.Triple K (remote fd) (.fgetxattr fd .objectId ops.getObjectIdXattrSize)
    (outcome (known fd) (leaving fd (-1)))
  download : ∀ fd id s, known fd id s → (ops.download fd id).wp K
    (fun r t => if r = -1 then leaving fd (-1) t else loaded fd t) s
  removeStub : ∀ fd, Prog.Triple K (loaded fd) (.fremovexattr fd .stub)
    (outcome (fun _ => unstubbed fd) (leaving fd (-1)))
  removeId : ∀ fd, Prog.Triple K (unstubbed fd) (.fremovexattr fd .objectId)
    (outcome (fun _ => leaving fd 0) (leaving fd (-1)))
  unlock : ∀ fd r, Prog.Triple K (leaving fd r) (.fremovexattr fd .locked) fun _ => closing fd r
  close : ∀ fd r, Prog.Triple K (closing fd r) (.closeFile fd) fun _ => Q r

namespace DownloadOutline

variable {K : Calls Call Rep σ} {ops : Ops} {path : Bytes} {Q : Int → σ → Prop}
  (O : DownloadOutline K ops path Q)

include O

theorem sound_remote {fd : Fd} {s : σ} (hs : O.remote fd s) :
    (downloadRemoteFile ops fd).wp K Q s := by
  have hleave : ∀ r t, O.leaving fd r t →
      (do
        let _ ← unlockFile fd
        closeHandleErr fd
        return r : Sys Int).wp K Q t := fun r t ht =>
    wp_leave (O.unlock fd r) (O.close fd r) ht
  refine Prog.wp_bind.mpr (wp_getXattr (O.getId fd s hs).1 (fun v t ht => ?_) fun e t ht => ?_)
  swap
  · exact hleave (-1) t ((O.getId fd s hs).2 _ t ht)
  have hknown : O.known fd v t := (O.getId fd s hs).2 _ t ht
  refine Prog.wp_bind.mpr (Prog.wp_mono (O.download fd v t hknown) fun r t ht => ?_)
  by_cases hr : r = -1
  · rw [if_pos hr] at ht
    rw [if_pos hr]
    exact hleave (-1) t ht
  rw [if_neg hr] at ht
  rw [if_neg hr]
  refine Prog.wp_bind.mpr (wp_removeXattr (O.removeStub fd t ht).1 (fun t' ht' => ?_)
    fun e t' ht' => hleave (-1) t' ((O.removeStub fd t ht).2 _ t' ht'))
  have hun : O.unstubbed fd t' := (O.removeStub fd t ht).2 _ t' ht'
  refine Prog.wp_bind.mpr (wp_removeXattr (O.removeId fd t' hun).1 (fun u hu => ?_)
    fun e u hu => hleave (-1) u ((O.removeId fd t' hun).2 _ u hu))
  exact hleave 0 u ((O.removeId fd t' hun).2 _ u hu)

/-- **An outline proves its specification.** -/
theorem sound {s : σ} (hs : O.start s) : (downloadFile ops path).wp K Q s := by
  refine Prog.Triple.bind O.openFile hs fun r t ht => ?_
  cases r with
  | error e => exact ht
  | ok fd =>
    refine Prog.wp_bind.mpr ?_
    refine wp_tryLockFile (O.lock fd t ht).1 (fun t' ht' => ?_) fun e t' ht' => ?_
    swap
    · exact Prog.wp_bind.mpr (wp_closeHandleErr_triple (O.close fd (-1))
        ((O.lock fd t ht).2 _ t' ht'))
    refine Prog.wp_bind.mpr (wp_isLocalFileFd_of_location (O.check fd)
      ((O.lock fd t ht).2 _ t' ht') (fun u hu => ?_) (fun u hu => ?_) fun u hu => ?_)
    · exact O.sound_remote hu
    · exact wp_leave (O.unlock fd 0) (O.close fd 0) hu
    · exact wp_leave (O.unlock fd 0) (O.close fd 0) hu

end DownloadOutline

end App

end CloudTiering
