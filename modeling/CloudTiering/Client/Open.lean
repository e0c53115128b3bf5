import CloudTiering.System.Kernel

/-!
# `syms.c`, `open.c`: the wrapped `open`

What the client library does around the C library's `open`: the location check, the removal of the
attributes of a file that is truncated anyway, the request for a download, and the polling until the
file is local.  A return value `-1` with its `errno` is `.error`.

The library's variables are passed in and out.  The loop of `poll_file_location` has no bound: one
iteration of it is a program, and `Opening.polling` says that there will be another one.
-/

namespace CloudTiering

open Foundations

namespace Client

/-! ## `syms.c` -/

/-- `IS_LOCAL_PREDICATE`. -/
def isLocalPredicate (errno : Errno) : Bool :=
  errno = .enoattr || errno = .enotsup || errno = .erange

/-- `is_local_file`: `1` if the file is local, `0` if it is remote. -/
def isLocalFile (fd : Fd) (flags : ℕ) : Sys (Except Errno Int) := do
  -- a descriptor for writing only cannot read attributes
  let ret : Except Errno Unit ←
    if flags &&& oWronly = oWronly then sys (.fsetxattr fd .stub [] .replace)
    else Except.map (fun _ => ()) <$> sys (.fgetxattr fd .stub 0)
  match ret with
  | .ok _ => return .ok 0
  | .error errno =>
      if isLocalPredicate errno then
        return .ok 1
      else if errno = .eperm then
        match ← sys (.getxattrProcSelf fd .stub) with
        | .error errno => if isLocalPredicate errno then return .ok 1 else return .error errno
        | .ok _ => return .ok 0
      else
        return .error errno

/-- `clear_xattrs`. -/
def clearXattrs (fd : Fd) : Sys Int := do
  let stubRet : Int ← match ← sys (.fremovexattr fd .stub) with
    | .error errno => if errno ≠ .enoattr then pure (-1) else pure 0
    | .ok _ => pure 0
  match ← sys (.fremovexattr fd .objectId) with
  | .error errno => if errno ≠ .enoattr then return -1 else return stubRet
  | .ok _ => return stubRet

/-- The variables of the library in one process: `once_control` has been used, `pid`, and whether
`queue` is not `NULL`. -/
structure Vars where
  once : Bool := false
  pid : Option ℕ := none
  queue : Bool := false

/-- `init_vars_once` in process `self`. -/
def initVarsOnce (self : ℕ) (vars : Vars) : Sys Vars := do
  let vars := { vars with once := true, pid := some (← sys (.getpid self)) }
  if vars.queue then
    return vars
  else
    match ← sys .shmOpen with
    | .error _ => return vars
    | .ok _ =>
      match ← sys .shmStat with
      | .error _ => return vars
      | .ok stSize =>
        match ← sys (.shmMap stSize) with
        | .error _ => return { vars with queue := false }
        | .ok _ => return { vars with queue := true }

/-- `PROC_PID_FD_FD_PATH_MAX_LEN`. -/
def procPidFdFdPathMaxLen : ℕ := 10 + 20 + 20 + 1

/-- The buffer `path` of `schedule_download` after `snprintf`: the path, which always fits, its
`'\0'`, and what was in the rest of the buffer before. -/
def downloadRequest (pid fd : ℕ) (stale : Bytes) : Bytes :=
  let path := procPidFdFdPath pid fd
  path ++ 0 :: (stale.take procPidFdFdPathMaxLen).drop (path.length + 1)

/-- `schedule_download` in process `self`; `stale` is in the buffer before. -/
def scheduleDownload (self : ℕ) (stale : Bytes) (vars : Vars) (fd : Fd) :
    Sys (Except Errno Unit × Vars) := do
  let vars ← if vars.once then pure vars else initVarsOnce self vars
  if vars.queue then
    match ← sys (.queuePush (downloadRequest (vars.pid.getD 0) fd.num stale)) with
    | .error _ => return (.error .enomem, vars)
    | .ok _ => return (.ok (), vars)
  else
    return (.error .enomem, vars)

/-! ## `open.c` -/

/-- How far a call of `open` is: it has returned, or it goes on with the loop of
`poll_file_location`. -/
inductive Opening
  | done (ret : Except Errno Fd)
  | polling (fd : Fd) (flags : ℕ)

/-- One iteration of the loop of `poll_file_location`, and what `finish_open_common` does behind the
loop. -/
def pollFileLocation (fd : Fd) (flags : ℕ) : Sys Opening := do
  match ← isLocalFile fd flags with
  | .error errno => return .done (.error errno)
  | .ok ret => if ret = 0 then return .polling fd flags else return .done (.ok fd)

/-- `finish_open_common`, up to the loop of `poll_file_location`. -/
def finishOpenCommon (self : ℕ) (stale : Bytes) (vars : Vars) (fd : Fd) (flags : ℕ) :
    Sys (Opening × Vars) := do
  match ← isLocalFile fd flags with
  | .error errno => return (.done (.error (if errno = .ebadfd then .eio else errno)), vars)
  | .ok ret =>
      if ret ≠ 0 then
        return (.done (.ok fd), vars)
      else if flags &&& oTrunc = oTrunc then
        if (← clearXattrs fd) = -1 then
          let _ ← sys (.closeFile fd)
          return (.done (.error .eio), vars)
        return (.done (.ok fd), vars)
      else
        match ← scheduleDownload self stale vars fd with
        | (.error errno, vars) => return (.done (.error errno), vars)
        | (.ok _, vars) => return (.polling fd flags, vars)

/-- The wrapped `open`, in a process in which the C library's `open` has been found. -/
def openFile (self : ℕ) (stale : Bytes) (vars : Vars) (path : Bytes) (flags : ℕ) :
    Sys (Opening × Vars) := do
  match ← sys (.libcOpen self path flags) with
  | .error errno => return (.done (.error errno), vars)
  | .ok fd => finishOpenCommon self stale vars fd flags

/-! ## The calls of a request -/

/-- The calls in front of the polling. -/
def isRequestStep : Call → Bool
  | .getpid _ | .shmOpen | .shmStat | .shmMap _ | .queuePush _ => true
  | _ => false

/-- A request is made by such calls only. -/
theorem allCalls_scheduleDownload (self : ℕ) (stale : Bytes) (vars : Vars) (fd : Fd) :
    (scheduleDownload self stale vars fd).AllCalls fun c => isRequestStep c = true := by
  have hinit : (initVarsOnce self vars).AllCalls fun c => isRequestStep c = true := by
    refine .bind (Prog.allCalls_ask rfl) fun pid => ?_
    dsimp only
    split
    · trivial
    · refine .bind (Prog.allCalls_ask rfl) fun r => ?_
      cases r with
      | error e => trivial
      | ok u =>
      refine .bind (Prog.allCalls_ask rfl) fun r => ?_
      cases r with
      | error e => trivial
      | ok stSize =>
      refine .bind (Prog.allCalls_ask rfl) fun r => ?_
      cases r <;> trivial
  unfold scheduleDownload
  split
  on_goal 1 =>
    refine .bind (P := fun c => isRequestStep c = true) (p := pure vars) trivial fun vars => ?_
  on_goal 2 => refine .bind hinit fun vars => ?_
  -- the push is the same whether the variables had been set before or not
  all_goals
    dsimp only
    split
    · refine .bind (Prog.allCalls_ask rfl) fun r => ?_
      cases r <;> trivial
    · trivial

/-! ## The path of a request -/

/-- A decimal digit is neither `'\0'` nor `'/'`, and its byte says which one it is. -/
theorem digit_byte {n : ℕ} {c : Char} (hc : c ∈ (Nat.repr n).toList) :
    Char.ofNat (UInt8.ofNat c.toNat).toNat = c ∧ UInt8.ofNat c.toNat ≠ 0 ∧
      UInt8.ofNat c.toNat ≠ 47 := by
  rw [Nat.toList_repr] at hc
  have hdigit := Nat.isDigit_of_mem_toDigits (by decide) (Nat.le_refl 10) hc
  have hlo : 48 ≤ c.toNat := (Char.isDigit_iff_toNat.mp hdigit).1
  have hhi : c.toNat ≤ 57 := (Char.isDigit_iff_toNat.mp hdigit).2
  have hbyte : (UInt8.ofNat c.toNat).toNat = c.toNat := by
    rw [UInt8.toNat_ofNat']
    exact Nat.mod_eq_of_lt (by omega)
  refine ⟨by rw [hbyte, Char.ofNat_toNat], fun heq => ?_, fun heq => ?_⟩
  · rw [heq] at hbyte
    exact absurd hbyte (by rw [show (0 : UInt8).toNat = 0 from rfl]; omega)
  · rw [heq] at hbyte
    exact absurd hbyte (by rw [show (47 : UInt8).toNat = 47 from rfl]; omega)

/-- The bytes of a number in a path. -/
theorem ne_of_mem_repr {n : ℕ} {x : UInt8} (hx : x ∈ ascii (Nat.repr n)) : x ≠ 0 ∧ x ≠ 47 := by
  obtain ⟨c, hc, rfl⟩ := List.mem_map.mp hx
  exact (digit_byte hc).2

/-- The digits of a number determine it. -/
theorem ascii_repr_inj {m n : ℕ} (h : ascii (Nat.repr m) = ascii (Nat.repr n)) : m = n := by
  have hback : ∀ k : ℕ, (ascii (Nat.repr k)).map (fun x => Char.ofNat x.toNat) =
      Nat.toDigits 10 k := by
    intro k
    rw [ascii, List.map_map, ← Nat.toList_repr]
    exact (List.map_congr_left fun c hc => (digit_byte hc).1).trans (List.map_id _)
  have hdigits : Nat.toDigits 10 m = Nat.toDigits 10 n := by rw [← hback, ← hback, h]
  rw [← Nat.ofDigitChars_ten_toDigits (n := m), hdigits, Nat.ofDigitChars_ten_toDigits]

/-- The path names the process. -/
theorem procPidFdFdPath_inj {p q fd : ℕ} (h : procPidFdFdPath p fd = procPidFdFdPath q fd) :
    p = q := by
  have hpid : ∀ k : ℕ, ((procPidFdFdPath k fd).drop 6).takeWhile (· != 47) =
      ascii (Nat.repr k) := by
    intro k
    rw [procPidFdFdPath, List.append_assoc, List.append_assoc, List.drop_append_of_le_length
      (by decide)]
    show (ascii (Nat.repr k) ++ _).takeWhile _ = _
    rw [List.takeWhile_append_of_pos fun x hx => by simpa using (ne_of_mem_repr hx).2]
    show _ ++ List.takeWhile _ (47 :: _) = _
    rw [List.takeWhile_cons_of_neg (by decide), List.append_nil]
  exact ascii_repr_inj (by rw [← hpid, ← hpid, h])

/-- A request is the path of the descriptor. -/
theorem cString_downloadRequest (pid fd : ℕ) (stale : Bytes) :
    cString (downloadRequest pid fd stale) = procPidFdFdPath pid fd := by
  have hne : ∀ x ∈ procPidFdFdPath pid fd, x ≠ 0 := by
    intro x hx
    rw [procPidFdFdPath, List.mem_append, List.mem_append, List.mem_append] at hx
    obtain ((hx | hx) | hx) | hx := hx
    · exact (by decide +kernel : ∀ x ∈ ascii "/proc/", x ≠ 0) x hx
    · exact (ne_of_mem_repr hx).1
    · exact (by decide +kernel : ∀ x ∈ ascii "/fd/", x ≠ 0) x hx
    · exact (ne_of_mem_repr hx).1
  show (procPidFdFdPath pid fd ++ 0 :: _).takeWhile _ = _
  rw [List.takeWhile_append_of_pos fun x hx => by simpa using hne x hx,
    List.takeWhile_cons_of_neg (by decide), List.append_nil]

end Client

end CloudTiering
