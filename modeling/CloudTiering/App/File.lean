import CloudTiering.System.Kernel

/-!
# `file.c`: attributes, the lock, the location of a file

The daemon's wrappers around the attribute system calls.  A failed call is logged and reported as
`-1`; logging has no effect and is left out.  Each wrapper comes with its rule for `wp`: one call,
and the two ways it can be answered.
-/

namespace CloudTiering

open Foundations

namespace App

/-- `set_xattr`. -/
def setXattr (fd : Fd) (xattr : Xattr) (value : Bytes) (flags : XattrFlag) : Sys Int := do
  match ← sys (.fsetxattr fd xattr value flags) with
  | .error _ => return -1
  | .ok _ => return 0

/-- `get_xattr_tunable`: the return value, and what has been stored in the buffer. -/
def getXattrTunable (fd : Fd) (xattr : Xattr) (valueSize : ℕ) (ignoreEnoattr : Bool) :
    Sys (Int × Bytes) := do
  match ← sys (.fgetxattr fd xattr valueSize) with
  | .error e => if ignoreEnoattr ∧ e = .enoattr then return (1, []) else return (-1, [])
  | .ok value => return (0, value)

/-- `get_xattr`. -/
def getXattr (fd : Fd) (xattr : Xattr) (valueSize : ℕ) : Sys (Int × Bytes) :=
  getXattrTunable fd xattr valueSize false

/-- `remove_xattr_tunable`. -/
def removeXattrTunable (fd : Fd) (xattr : Xattr) (ignoreEnoattr : Bool) : Sys Int := do
  match ← sys (.fremovexattr fd xattr) with
  | .error e => if ignoreEnoattr ∧ e = .enoattr then return 0 else return -1
  | .ok _ => return 0

/-- `remove_xattr`. -/
def removeXattr (fd : Fd) (xattr : Xattr) : Sys Int :=
  removeXattrTunable fd xattr false

/-- `try_lock_file`. -/
def tryLockFile (fd : Fd) : Sys Int := do
  if (← setXattr fd .locked [] .create) = -1 then return -1
  return 0

/-- `unlock_file`. -/
def unlockFile (fd : Fd) : Sys Int := do
  if (← removeXattr fd .locked) = -1 then return -1
  return 0

/-- `is_local_file_fd`: `1` if the stub attribute is not set, `0` if it is, `-1` on error. -/
def isLocalFileFd (fd : Fd) : Sys Int := do
  return (← getXattrTunable fd .stub 0 true).1

/-! ## The rules for `wp` -/

section Wp

variable {σ : Type} {K : Calls Call Rep σ} {s : σ}

theorem wp_setXattr {fd : Fd} {x : Xattr} {v : Bytes} {fl : XattrFlag} {Q : Int → σ → Prop}
    (hpre : K.pre s (.fsetxattr fd x v fl))
    (hok : ∀ t, K.post s (.fsetxattr fd x v fl) (.ok ()) t → Q 0 t)
    (herr : ∀ e t, K.post s (.fsetxattr fd x v fl) (.error e) t → Q (-1) t) :
    (setXattr fd x v fl).wp K Q s := by
  refine Prog.wp_bind.mpr ⟨hpre, fun r t ht => ?_⟩
  cases r with
  | error e => exact herr e t ht
  | ok u => exact hok t ht

theorem wp_removeXattr {fd : Fd} {x : Xattr} {Q : Int → σ → Prop}
    (hpre : K.pre s (.fremovexattr fd x))
    (hok : ∀ t, K.post s (.fremovexattr fd x) (.ok ()) t → Q 0 t)
    (herr : ∀ e t, K.post s (.fremovexattr fd x) (.error e) t → Q (-1) t) :
    (removeXattr fd x).wp K Q s := by
  refine Prog.wp_bind.mpr ⟨hpre, fun r t ht => ?_⟩
  cases r with
  | error e =>
    show Prog.wp K (if false ∧ e = .enoattr then pure 0 else pure (-1)) Q t
    rw [if_neg (by simp)]
    exact herr e t ht
  | ok u => exact hok t ht

theorem wp_getXattr {fd : Fd} {x : Xattr} {n : ℕ} {Q : Int × Bytes → σ → Prop}
    (hpre : K.pre s (.fgetxattr fd x n))
    (hok : ∀ v t, K.post s (.fgetxattr fd x n) (.ok v) t → Q (0, v) t)
    (herr : ∀ e t, K.post s (.fgetxattr fd x n) (.error e) t → Q (-1, []) t) :
    (getXattr fd x n).wp K Q s := by
  refine Prog.wp_bind.mpr ⟨hpre, fun r t ht => ?_⟩
  cases r with
  | error e =>
    show Prog.wp K (if false ∧ e = .enoattr then pure (1, []) else pure (-1, [])) Q t
    rw [if_neg (by simp)]
    exact herr e t ht
  | ok v => exact hok v t ht

theorem wp_tryLockFile {fd : Fd} {Q : Int → σ → Prop}
    (hpre : K.pre s (.fsetxattr fd .locked [] .create))
    (hok : ∀ t, K.post s (.fsetxattr fd .locked [] .create) (.ok ()) t → Q 0 t)
    (herr : ∀ e t, K.post s (.fsetxattr fd .locked [] .create) (.error e) t → Q (-1) t) :
    (tryLockFile fd).wp K Q s := by
  refine Prog.wp_bind.mpr (wp_setXattr hpre (fun t ht => ?_) fun e t ht => ?_)
  · exact hok t ht
  · exact herr e t ht

theorem wp_unlockFile {fd : Fd} {Q : Int → σ → Prop}
    (hpre : K.pre s (.fremovexattr fd .locked))
    (hok : ∀ t, K.post s (.fremovexattr fd .locked) (.ok ()) t → Q 0 t)
    (herr : ∀ e t, K.post s (.fremovexattr fd .locked) (.error e) t → Q (-1) t) :
    (unlockFile fd).wp K Q s := by
  refine Prog.wp_bind.mpr (wp_removeXattr hpre (fun t ht => ?_) fun e t ht => ?_)
  · exact hok t ht
  · exact herr e t ht

/-- The three results of the location check. -/
theorem wp_isLocalFileFd {fd : Fd} {Q : Int → σ → Prop}
    (hpre : K.pre s (.fgetxattr fd .stub 0))
    (hremote : ∀ v t, K.post s (.fgetxattr fd .stub 0) (.ok v) t → Q 0 t)
    (hlocal : ∀ t, K.post s (.fgetxattr fd .stub 0) (.error .enoattr) t → Q 1 t)
    (herr : ∀ e t, e ≠ .enoattr → K.post s (.fgetxattr fd .stub 0) (.error e) t → Q (-1) t) :
    (isLocalFileFd fd).wp K Q s := by
  refine Prog.wp_bind.mpr (Prog.wp_bind.mpr ⟨hpre, fun r t ht => ?_⟩)
  cases r with
  | ok v => exact hremote v t ht
  | error e =>
    by_cases he : e = .enoattr
    · subst he
      exact hlocal t ht
    · show Prog.wp K (if true ∧ e = .enoattr then pure (1, []) else pure (-1, [])) _ t
      rw [if_neg (by simp [he])]
      exact herr e t he ht

end Wp

end App

end CloudTiering
