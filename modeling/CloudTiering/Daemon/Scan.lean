import CloudTiering.App.File
import CloudTiering.Foundations.DirectoryTree

/-!
# `policy.c`: the scan

`scan_fs` has `nftw` call `update_evict_queue` for every object of the mounted tree, and the
callback pushes the path of a file that is to be evicted.  `nftw` does not follow symbolic links;
the `open` of the callback does.

* `PolicyCall`, `updateEvictQueue`, `nftw`, `scanFs`: the source, over the calls that it makes.
* `Object`, `Mounted`: the tree, and what its paths resolve to.
* `Mounted.answer`: the calls of a scan in which none fails.
* `Mounted.Due`: the files that the callback takes; `Mounted.Evictable`, `ScansExactly`: the files
  to be evicted, and that just their paths are pushed.
* `scan_run`: what a scan pushes; `scansExactly_iff`: when these are the right paths.
-/

namespace CloudTiering

open Foundations App

namespace Daemon

/-! ## `policy.c` -/

/-- `time_t`, of 64 bits. -/
abbrev TimeT := Int64

/-- `EVICTION_TIMEOUT`. -/
def evictionTimeout : TimeT := 30

/-- What `fstat` yields: whether the file is a regular one, and `st_atime`. -/
structure FileStat where
  regular : Bool
  atime : TimeT
  deriving DecidableEq

/-- The calls of the scan. -/
inductive PolicyCall
  | sys (c : Call)
  | fstat (fd : Fd)
  /-- `time(NULL)`, in the call of `update_evict_queue` for `path`. -/
  | time (path : Bytes)
  /-- `getrlimit(RLIMIT_NOFILE)`, which yields `rlim_cur`. -/
  | getrlimit
  /-- `queue_push(out_queue, ..)`. -/
  | queuePush (data : Bytes)

/-- How they are answered. -/
@[reducible] def PolicyRep : PolicyCall → Type
  | .sys c => Rep c
  | .fstat _ => Except Errno FileStat
  | .time _ => TimeT
  | .getrlimit => Except Errno ℕ
  | .queuePush _ => Except Errno Unit

/-- Programs over these calls. -/
abbrev Policy (α : Type) := Prog PolicyCall PolicyRep α

/-- Make one call. -/
def policy (c : PolicyCall) : Policy (PolicyRep c) := Prog.ask c

/-- A program over the system calls alone. -/
def liftSys {α : Type} (p : Sys α) : Policy α := p.translate fun c => policy (.sys c)

/-- `is_regular_file_fd`. -/
def isRegularFileFd (fd : Fd) : Policy ℤ := do
  match ← policy (.fstat fd) with
  | .error _ => return -1
  | .ok pathStat => return if pathStat.regular then 1 else 0

/-- The condition of `update_evict_queue` on an open file. -/
def shouldEvict (path : Bytes) (fd : Fd) (pathStat : FileStat) : Policy Bool := do
  if (← isRegularFileFd fd) > 0 then
    if (← liftSys (isLocalFileFd fd)) > 0 then
      return decide (pathStat.atime + evictionTimeout < (← policy (.time path)))
    else
      return false
  else
    return false

/-- `update_evict_queue` behind the `open`.  A failed push is only logged. -/
def pushOpened (path : Bytes) (fd : Fd) : Policy ℤ := do
  match ← policy (.fstat fd) with
  | .error _ =>
    let _ ← policy (.sys (.closeFile fd))
    return 0
  | .ok pathStat =>
    if ← shouldEvict path fd pathStat then
      let _ ← policy (.queuePush (path ++ [0]))
    let _ ← policy (.sys (.closeFile fd))
    return 0

/-- `update_evict_queue`: the value returned to `nftw`. -/
def updateEvictQueue (path : Bytes) : Policy ℤ := do
  match ← policy (.sys (.openFile path)) with
  | .error _ => return 0
  | .ok fd => pushOpened path fd

/-- `nftw` on the objects with these paths: it stops where the callback does not return `0`. -/
def nftw (fn : Bytes → Policy ℤ) : List Bytes → Policy ℤ
  | [] => return 0
  | path :: paths => do
      let ret ← fn path
      if ret ≠ 0 then return ret
      nftw fn paths

/-- `scan_fs`, where a walk without following links comes to the objects with these paths. -/
def scanFs (paths : List Bytes) : Policy ℤ := do
  match ← policy .getrlimit with
  | .error _ => return -1
  | .ok rlimCur =>
    if rlimCur ≤ 2 then return -1
    if (← nftw updateEvictQueue paths) = -1 then return -1
    return 0

/-! ## The mounted tree -/

/-- An object of the tree: a regular or special file, a symbolic link with the file that it leads to
in the end, if any, or a directory. -/
inductive Object
  | file (ino : ℕ)
  | symlink (target : Option ℕ)
  | directory (ino : ℕ)
  deriving DecidableEq

/-- The file that `open` finds at the object's path. -/
def Object.opened : Object → Option ℕ
  | .file ino => some ino
  | .symlink target => target
  | .directory ino => some ino

/-- The objects that a walk comes to, with their paths.  A directory on which something else is
mounted is an object without entries. -/
def objects (root : Bytes) (rootIno : ℕ) (entries : Entries UInt8 Object) : List (Bytes × Object) :=
  (root, .directory rootIno) :: entries.visits 47 root

/-- A mounted tree.  The paths resolve as the objects say, and directories are no regular files. -/
structure Mounted where
  world : World
  stat : ℕ → FileStat
  root : Bytes
  rootIno : ℕ
  entries : Entries UInt8 Object
  wellNamed : entries.WellNamed 47
  resolves : ∀ v ∈ objects root rootIno entries, world.names v.1 = v.2.opened
  directories : ∀ v ∈ objects root rootIno entries, ∀ ino, v.2 = .directory ino →
    (stat ino).regular = false

/-- The objects of the tree, with their paths. -/
def Mounted.objects (m : Mounted) : List (Bytes × Object) :=
  Daemon.objects m.root m.rootIno m.entries

/-- A state of the scan: the system, and what has been pushed. -/
structure Scan where
  world : World
  pushed : List Bytes

/-- The calls of a scan in which none fails.  `now` is the time at which a path is looked at; the
queue is for elements of at most `pathMax` bytes. -/
def Mounted.answer (m : Mounted) (now : Bytes → TimeT) (pathMax rlimCur : ℕ) (s : Scan) :
    (c : PolicyCall) → Option (PolicyRep c × Scan)
  | .sys c => (exec s.world .ok c).map fun a => (a.1, { s with world := a.2 })
  | .fstat fd => some (.ok (m.stat fd.ino), s)
  | .time path => some (now path, s)
  | .getrlimit => some (.ok rlimCur, s)
  | .queuePush data =>
      if data.length = 0 ∨ pathMax < data.length then some (.error .eio, s)
      else some (.ok (), { s with pushed := s.pushed ++ [data] })

/-- The callback takes the file under this path: a regular file, local, not read for a while as a
comparison of `time_t` has it, and the path with its `'\0'` is an element of the queue. -/
def Mounted.Due (m : Mounted) (now : Bytes → TimeT) (pathMax : ℕ) (path : Bytes) (ino : ℕ) : Prop :=
  (m.stat ino).regular = true ∧ (m.world.inode ino).stub = none ∧
    (m.stat ino).atime + evictionTimeout < now path ∧ path.length + 1 ≤ pathMax

instance (m : Mounted) (now : Bytes → TimeT) (pathMax : ℕ) (path : Bytes) (ino : ℕ) :
    Decidable (m.Due now pathMax path ino) :=
  inferInstanceAs (Decidable ((m.stat ino).regular = true ∧ (m.world.inode ino).stub = none ∧
    (m.stat ino).atime + evictionTimeout < now path ∧ path.length + 1 ≤ pathMax))

/-- The file is to be evicted under this path: a regular file, local, whose `st_atime` is more than
`EVICTION_TIMEOUT` ago, and the path with its `'\0'` is an element of the queue. -/
def Mounted.Evictable (m : Mounted) (now : Bytes → TimeT) (pathMax : ℕ) (path : Bytes) (ino : ℕ) :
    Prop :=
  (m.stat ino).regular = true ∧ (m.world.inode ino).stub = none ∧
    (m.stat ino).atime.toInt + evictionTimeout.toInt < (now path).toInt ∧ path.length + 1 ≤ pathMax

/-- **The scan is exact**: the paths of the objects that are themselves files to be evicted are
pushed, each once, and no others. -/
def ScansExactly (m : Mounted) (now : Bytes → TimeT) (pathMax : ℕ) (pushed : List Bytes) : Prop :=
  pushed.Nodup ∧ ∀ data, data ∈ pushed ↔
    ∃ v ∈ m.objects, ∃ ino, v.2 = .file ino ∧ m.Evictable now pathMax v.1 ino ∧ data = v.1 ++ [0]

/-- No symbolic link of the tree leads to a file that the callback takes under the link's path. -/
def NoLinkDue (m : Mounted) (now : Bytes → TimeT) (pathMax : ℕ) : Prop :=
  ∀ v ∈ m.objects, ∀ ino, v.2 = .symlink (some ino) → ¬ m.Due now pathMax v.1 ino

/-- The sum of this `st_atime` and `EVICTION_TIMEOUT` is too large for `time_t`, and comes round to
a time before `now`. -/
def ComesRound (atime now : TimeT) : Prop :=
  2 ^ 63 ≤ atime.toInt + evictionTimeout.toInt ∧
    atime.toInt + evictionTimeout.toInt - 2 ^ 64 < now.toInt

/-- No regular, local file of the tree whose path fits has an `st_atime` so near the end of
`time_t`. -/
def NoneComesRound (m : Mounted) (now : Bytes → TimeT) (pathMax : ℕ) : Prop :=
  ∀ v ∈ m.objects, ∀ ino, v.2 = .file ino → (m.stat ino).regular = true →
    (m.world.inode ino).stub = none → v.1.length + 1 ≤ pathMax →
      ¬ ComesRound (m.stat ino).atime (now v.1)

/-! ## Times -/

/-- The comparison of `update_evict_queue`. -/
theorem add_evictionTimeout_lt_iff (atime now : TimeT) :
    atime + evictionTimeout < now ↔
      atime.toInt + evictionTimeout.toInt < now.toInt ∨ ComesRound atime now := by
  have hround : evictionTimeout.toInt = 30 := rfl
  have hlow := atime.le_toInt
  have hhigh := atime.toInt_lt
  have hnow := now.toInt_lt
  rw [Int64.lt_iff_toInt_lt, Int64.toInt_add, ComesRound, hround]
  by_cases hfits : atime.toInt + 30 < 2 ^ 63
  · rw [Int.bmod_eq_of_le (by omega) (by omega)]
    omega
  · have hmod : (atime.toInt + 30).bmod (2 ^ 64) = atime.toInt + 30 - 2 ^ 64 := by
      rw [← Int.sub_bmod_right, Int.bmod_eq_of_le (by omega) (by omega)]
      rfl
    rw [hmod]
    omega

section

variable {m : Mounted} {now : Bytes → TimeT} {pathMax rlimCur : ℕ} {s : Scan}
  {path : Bytes} {fd : Fd}

/-! ## One object -/

/-- What a scan leaves alone: the names, and the attributes of the files. -/
def Scan.Static (m : Mounted) (s : Scan) : Prop :=
  s.world.names = m.world.names ∧ s.world.inode = m.world.inode

/-- The location check. -/
theorem run_isLocalFileFd (hs : s.Static m) :
    (liftSys (isLocalFileFd fd)).runWith (m.answer now pathMax rlimCur) s =
      some (if (m.world.inode fd.ino).stub = none then 1 else 0, s) := by
  have hget : (policy (.sys (.fgetxattr fd .stub 0))).runWith (m.answer now pathMax rlimCur) s =
      some (s.world.fgetxattr fd.ino .stub 0, s) := rfl
  rw [liftSys, Prog.runWith_translate, ← hs.2]
  show ((policy (.sys (.fgetxattr fd .stub 0))).runWith (m.answer now pathMax rlimCur) s).bind _ = _
  rw [hget]
  cases hstub : (s.world.inode fd.ino).stub with
  | none =>
    have hval : s.world.fgetxattr fd.ino .stub 0 = .error .enoattr := by
      rw [World.fgetxattr, show (s.world.inode fd.ino).xattr .stub = none from hstub]
    rw [hval]
    rfl
  | some v =>
    have hval : s.world.fgetxattr fd.ino .stub 0 = .ok [] := by
      rw [World.fgetxattr, show (s.world.inode fd.ino).xattr .stub = some v from hstub]
      rfl
    rw [hval]
    rfl

/-- `is_regular_file_fd` agrees with the first `fstat`. -/
theorem run_isRegularFileFd :
    (isRegularFileFd fd).runWith (m.answer now pathMax rlimCur) s =
      some (if (m.stat fd.ino).regular then 1 else 0, s) := rfl

/-- The condition of `update_evict_queue`. -/
theorem run_shouldEvict (hs : s.Static m) :
    (shouldEvict path fd (m.stat fd.ino)).runWith (m.answer now pathMax rlimCur) s =
      some (decide ((m.stat fd.ino).regular = true ∧ (m.world.inode fd.ino).stub = none ∧
        (m.stat fd.ino).atime + evictionTimeout < now path), s) := by
  rw [shouldEvict, Prog.runWith_bind, run_isRegularFileFd, Option.bind_some]
  by_cases hregular : (m.stat fd.ino).regular = true
  · rw [if_pos hregular, if_pos (show (1 : ℤ) > 0 by decide), Prog.runWith_bind,
      run_isLocalFileFd hs, Option.bind_some]
    by_cases hstub : (m.world.inode fd.ino).stub = none
    · rw [if_pos hstub, if_pos (show (1 : ℤ) > 0 by decide)]
      show some (decide _, s) = _
      exact congrArg (fun b => some (b, s)) (decide_eq_decide.mpr
        ⟨fun h => ⟨hregular, hstub, h⟩, fun h => h.2.2⟩)
    · rw [if_neg hstub, if_neg (show ¬ (0 : ℤ) > 0 by decide)]
      exact congrArg (fun b => some (b, s)) (decide_eq_false fun h => hstub h.2.1).symm
  · rw [if_neg hregular, if_neg (show ¬ (0 : ℤ) > 0 by decide)]
    exact congrArg (fun b => some (b, s)) (decide_eq_false fun h => hregular h.1).symm

/-- What the callback pushes for a path, given the file that `open` finds there. -/
def Mounted.pushedFor (m : Mounted) (now : Bytes → TimeT) (pathMax : ℕ) (path : Bytes) :
    Option ℕ → List Bytes
  | none => []
  | some ino => if m.Due now pathMax path ino then [path ++ [0]] else []

/-- A file that has been opened. -/
theorem run_pushOpened (hs : s.Static m) :
    ∃ s', (pushOpened path fd).runWith (m.answer now pathMax rlimCur) s = some (0, s') ∧
      s'.Static m ∧ s'.pushed = s.pushed ++ m.pushedFor now pathMax path (some fd.ino) := by
  have hstat : (policy (.fstat fd)).runWith (m.answer now pathMax rlimCur) s =
      some (.ok (m.stat fd.ino), s) := rfl
  rw [pushOpened, Prog.runWith_bind, hstat, Option.bind_some]
  dsimp only
  rw [Prog.runWith_bind, run_shouldEvict hs, Option.bind_some]
  by_cases hevict : (m.stat fd.ino).regular = true ∧ (m.world.inode fd.ino).stub = none ∧
      (m.stat fd.ino).atime + evictionTimeout < now path
  · rw [decide_eq_true hevict]
    have hdata : (path ++ [0]).length = path.length + 1 := List.length_append
    have hpush : (policy (.queuePush (path ++ [0]))).runWith (m.answer now pathMax rlimCur) s =
        some (if (path ++ [0]).length = 0 ∨ pathMax < (path ++ [0]).length then (.error .eio, s)
          else (.ok (), { s with pushed := s.pushed ++ [path ++ [0]] })) := by
      show (if _ then some _ else some _ : Option _).bind some = _
      split <;> rfl
    rw [if_pos rfl, Prog.runWith_bind, hpush, Option.bind_some]
    by_cases hfits : path.length + 1 ≤ pathMax
    · rw [if_neg (by omega), Mounted.pushedFor, if_pos ⟨hevict.1, hevict.2.1, hevict.2.2, hfits⟩]
      exact ⟨{ world := { s.world with closed := fd.num :: s.world.closed }
               pushed := s.pushed ++ [path ++ [0]] }, rfl, hs, rfl⟩
    · have hdue : ¬ m.Due now pathMax path fd.ino := fun h => hfits h.2.2.2
      rw [if_pos (by omega), Mounted.pushedFor, if_neg hdue, List.append_nil]
      exact ⟨{ s with world := { s.world with closed := fd.num :: s.world.closed } }, rfl, hs, rfl⟩
  · rw [decide_eq_false hevict]
    have hdue : ¬ m.Due now pathMax path fd.ino := fun h => hevict ⟨h.1, h.2.1, h.2.2.1⟩
    refine ⟨{ s with world := { s.world with closed := fd.num :: s.world.closed } }, rfl, hs, ?_⟩
    rw [Mounted.pushedFor, if_neg hdue, List.append_nil]

/-- **One object.**  The callback returns `0`, and pushes the path of a file that is due. -/
theorem run_updateEvictQueue (path : Bytes) (hs : s.Static m) :
    ∃ s', (updateEvictQueue path).runWith (m.answer now pathMax rlimCur) s = some (0, s') ∧
      s'.Static m ∧ s'.pushed = s.pushed ++ m.pushedFor now pathMax path (m.world.names path) := by
  have hopen : (policy (.sys (.openFile path))).runWith (m.answer now pathMax rlimCur) s =
      some ((s.world.openFile path).1, { s with world := (s.world.openFile path).2 }) := rfl
  rw [updateEvictQueue, Prog.runWith_bind, hopen, Option.bind_some, ← hs.1]
  cases hname : s.world.names path with
  | none =>
    rw [show s.world.openFile path = (.error .enoent, s.world) by rw [World.openFile, hname]]
    exact ⟨s, rfl, hs, (List.append_nil _).symm⟩
  | some ino =>
    rw [show s.world.openFile path =
      (.ok ⟨ino, s.world.opened⟩, { s.world with opened := s.world.opened + 1 }) by
        rw [World.openFile, hname]]
    exact run_pushOpened (s := ⟨{ s.world with opened := s.world.opened + 1 }, s.pushed⟩) hs

/-! ## The whole tree -/

/-- **Any number of objects.** -/
theorem run_nftw (paths : List Bytes) (hs : s.Static m) :
    ∃ s', (nftw updateEvictQueue paths).runWith (m.answer now pathMax rlimCur) s = some (0, s') ∧
      s'.pushed = s.pushed ++ paths.flatMap fun p =>
        m.pushedFor now pathMax p (m.world.names p) := by
  induction paths generalizing s with
  | nil => exact ⟨s, rfl, (List.append_nil _).symm⟩
  | cons path paths ih =>
    obtain ⟨t, hrun, ht, hpushed⟩ := run_updateEvictQueue path hs
    obtain ⟨s', hrest, hpushed'⟩ := ih ht
    refine ⟨s', ?_, ?_⟩
    · rw [nftw, Prog.runWith_bind, hrun, Option.bind_some]
      exact hrest
    · rw [hpushed', hpushed, List.flatMap_cons, List.append_assoc]

/-- **What a scan pushes.** -/
theorem scan_run (hlimit : 2 < rlimCur) :
    ∃ s', (scanFs (m.objects.map Prod.fst)).runWith (m.answer now pathMax rlimCur) ⟨m.world, []⟩ =
        some (0, s') ∧
      s'.pushed = m.objects.flatMap fun v => m.pushedFor now pathMax v.1 v.2.opened := by
  obtain ⟨s', hrun, hpushed⟩ := @run_nftw m now pathMax rlimCur ⟨m.world, []⟩
    (m.objects.map Prod.fst)
    ⟨rfl, rfl⟩
  refine ⟨s', ?_, ?_⟩
  · have hrlimit : (policy .getrlimit).runWith (m.answer now pathMax rlimCur) ⟨m.world, []⟩ =
        some (.ok rlimCur, ⟨m.world, []⟩) := rfl
    rw [scanFs, Prog.runWith_bind, hrlimit, Option.bind_some]
    dsimp only
    rw [if_neg (Nat.not_le.mpr hlimit)]
    show ((nftw updateEvictQueue (m.objects.map Prod.fst) >>= _).runWith _ _) = _
    rw [Prog.runWith_bind, hrun]
    rfl
  · rw [hpushed, List.flatMap_map]
    refine List.flatMap_congr fun v hv => ?_
    rw [m.resolves v hv]

/-- Every object has a path of its own. -/
theorem Mounted.nodup_objects (m : Mounted) : (m.objects.map Prod.fst).Nodup := by
  refine List.nodup_cons.mpr ⟨fun hmem => ?_, Entries.nodup_visits m.wellNamed⟩
  obtain ⟨v, hv, hpath⟩ := List.mem_map.mp hmem
  exact Entries.ne_root_of_mem_visits hv hpath

/-- What is pushed for some objects is a part of all their paths. -/
theorem sublist_pushed (l : List (Bytes × Object)) :
    (l.flatMap fun v => m.pushedFor now pathMax v.1 v.2.opened).Sublist
      ((l.map Prod.fst).map fun p => p ++ [0]) := by
  induction l with
  | nil => exact List.Sublist.refl []
  | cons v l ih =>
    rw [List.flatMap_cons, List.map_cons, List.map_cons]
    have hone : (m.pushedFor now pathMax v.1 v.2.opened).Sublist [v.1 ++ [0]] := by
      cases v.2.opened with
      | none => exact List.nil_sublist _
      | some ino =>
        rw [Mounted.pushedFor]
        split
        · exact List.Sublist.refl _
        · exact List.nil_sublist _
    exact hone.append ih

/-- What is pushed for an object. -/
theorem mem_pushedFor {data : Bytes} {opened : Option ℕ} :
    data ∈ m.pushedFor now pathMax path opened ↔
      ∃ ino, opened = some ino ∧ m.Due now pathMax path ino ∧ data = path ++ [0] := by
  cases opened with
  | none =>
    refine iff_of_false List.not_mem_nil ?_
    rintro ⟨ino, hino, -⟩
    exact absurd hino.symm (Option.some_ne_none ino)
  | some ino =>
    rw [Mounted.pushedFor]
    split
    next hdue =>
      rw [List.mem_singleton]
      constructor
      · rintro rfl
        exact ⟨ino, rfl, hdue, rfl⟩
      · rintro ⟨ino', -, -, hdata⟩
        exact hdata
    next hdue =>
      refine iff_of_false List.not_mem_nil ?_
      rintro ⟨ino', hino, hdue', -⟩
      obtain rfl := Option.some.inj hino
      exact hdue hdue'

/-- What is due is a regular file, under its own path or under that of a link. -/
theorem file_or_symlink_of_due {v : Bytes × Object} {ino : ℕ} (hv : v ∈ m.objects)
    (hopened : v.2.opened = some ino) (hdue : m.Due now pathMax v.1 ino) :
    v.2 = .file ino ∨ v.2 = .symlink (some ino) := by
  cases hobj : v.2 with
  | file i =>
    rw [hobj] at hopened
    exact .inl (congrArg _ (Option.some.inj hopened))
  | symlink target =>
    rw [hobj] at hopened
    exact .inr (congrArg _ hopened)
  | directory i =>
    rw [hobj] at hopened
    obtain rfl := Option.some.inj hopened
    exact absurd ((m.directories v hv i hobj).symm.trans hdue.1) Bool.false_ne_true

/-- The callback takes the files to be evicted, and those whose time comes round. -/
theorem due_iff {ino : ℕ} : m.Due now pathMax path ino ↔ m.Evictable now pathMax path ino ∨
    ((m.stat ino).regular = true ∧ (m.world.inode ino).stub = none ∧ path.length + 1 ≤ pathMax) ∧
      ComesRound (m.stat ino).atime (now path) := by
  rw [Mounted.Due, add_evictionTimeout_lt_iff, Mounted.Evictable]
  tauto

/-- **When a scan is exact.**  The scan pushes the paths of the files that are to be evicted, and no
others, exactly if no symbolic link of the tree leads to a file that the callback takes, and the
time of no file of the tree comes round. -/
theorem scansExactly_iff (hlimit : 2 < rlimCur) {ret : ℤ} {after : Scan}
    (hrun : (scanFs (m.objects.map Prod.fst)).runWith (m.answer now pathMax rlimCur) ⟨m.world, []⟩ =
      some (ret, after)) :
    ScansExactly m now pathMax after.pushed ↔
      NoLinkDue m now pathMax ∧ NoneComesRound m now pathMax := by
  obtain ⟨s', hscan, hpushed⟩ := @scan_run m now pathMax rlimCur hlimit
  obtain ⟨-, rfl⟩ := Prod.mk.inj (Option.some.inj (hrun.symm.trans hscan))
  have hmem : ∀ data, data ∈ after.pushed ↔
      ∃ v ∈ m.objects, ∃ ino, v.2.opened = some ino ∧ m.Due now pathMax v.1 ino ∧
          data = v.1 ++ [0] := by
    intro data
    rw [hpushed, List.mem_flatMap]
    exact exists_congr fun v => and_congr_right fun _ => mem_pushedFor
  constructor
  · intro h
    -- whatever the callback takes is a file of the tree that is to be evicted
    have htaken : ∀ v ∈ m.objects, ∀ ino, v.2.opened = some ino → m.Due now pathMax v.1 ino →
        v.2 = .file ino ∧ m.Evictable now pathMax v.1 ino := by
      intro v hv ino hopened hdue
      obtain ⟨u, hu, j, hfile, hj, heq⟩ :=
        (h.2 _).mp ((hmem _).mpr ⟨v, hv, ino, hopened, hdue, rfl⟩)
      obtain rfl := List.inj_on_of_nodup_map m.nodup_objects hv hu (List.append_cancel_right heq)
      rw [hfile] at hopened
      obtain rfl := Option.some.inj hopened
      exact ⟨hfile, hj⟩
    refine ⟨fun v hv ino hlink hdue => ?_, fun v hv ino hfile hregular hlocal hfits hround => ?_⟩
    · have hfile := (htaken v hv ino (by rw [hlink]; rfl) hdue).1
      rw [hlink] at hfile
      exact Object.noConfusion hfile
    · have hdue : m.Due now pathMax v.1 ino :=
        due_iff.mpr (.inr ⟨⟨hregular, hlocal, hfits⟩, hround⟩)
      have hlate := (htaken v hv ino (by rw [hfile]; rfl) hdue).2.2.2.1
      have hnow := (now v.1).toInt_lt
      have := hround.1
      omega
  · rintro ⟨hlinks, hround⟩
    refine ⟨?_, fun data => ?_⟩
    · rw [hpushed]
      refine (sublist_pushed _).nodup (m.nodup_objects.map fun p q hpq => ?_)
      exact List.append_cancel_right hpq
    · rw [hmem]
      constructor
      · rintro ⟨v, hv, ino, hopened, hdue, rfl⟩
        have hfile : v.2 = .file ino :=
          (file_or_symlink_of_due hv hopened hdue).resolve_right fun hlink =>
            hlinks v hv ino hlink hdue
        refine ⟨v, hv, ino, hfile, (due_iff.mp hdue).resolve_right ?_, rfl⟩
        rintro ⟨⟨hregular, hlocal, hfits⟩, hcomes⟩
        exact hround v hv ino hfile hregular hlocal hfits hcomes
      · rintro ⟨v, hv, ino, hfile, hev, rfl⟩
        exact ⟨v, hv, ino, by rw [hfile]; rfl, due_iff.mpr (.inl hev), rfl⟩

end

/-- A directory with a regular file in it, beside a symbolic link. -/
def linkedEntries (target : ℕ) : Entries UInt8 Object :=
  .directory [100] (.directory 1) (.object [102] (.file 2) .nil)
    (.object [108] (.symlink (some target)) .nil)

/-- Files `2` and `5` are regular ones, and none of them is a stub; file `5` is not in the tree. -/
def linkedTree (target : ℕ) : Mounted where
  world := {
    inode := fun _ => {}
    names := fun path =>
      if path = [47, 109] then some 0 else if path = [47, 109, 47, 100] then some 1
      else if path = [47, 109, 47, 100, 47, 102] then some 2
      else if path = [47, 109, 47, 108] then some target else none
    store := fun _ => none }
  stat ino := ⟨ino = 2 || ino = 5, 0⟩
  root := [47, 109]
  rootIno := 0
  entries := linkedEntries target
  wellNamed :=
    ⟨by decide, show [100] ∉ [[108]] by decide, ⟨by decide, List.not_mem_nil, trivial⟩, by decide,
    List.not_mem_nil, trivial⟩
  resolves := by
    intro v hv
    simp only [objects, linkedEntries, Entries.visits, List.nil_append, List.cons_append,
      List.mem_cons, List.not_mem_nil, or_false] at hv
    rcases hv with rfl | rfl | rfl | rfl
    all_goals rfl
  directories := by
    intro v hv ino hdir
    simp only [objects, linkedEntries, Entries.visits, List.nil_append, List.cons_append,
      List.mem_cons, List.not_mem_nil, or_false] at hv
    rcases hv with rfl | rfl | rfl | rfl
    · obtain rfl := Object.directory.inj hdir
      rfl
    · obtain rfl := Object.directory.inj hdir
      rfl
    · exact Object.noConfusion hdir
    · exact Object.noConfusion hdir

/-- A tree whose link leads to a special file is scanned. -/
theorem scansExactly_linked :
    ∃ ret after, (scanFs ((linkedTree 6).objects.map Prod.fst)).runWith
        ((linkedTree 6).answer (fun _ => 100) 4096 1024) ⟨(linkedTree 6).world, []⟩ =
          some (ret, after) ∧
      (ScansExactly (linkedTree 6) (fun _ => 100) 4096 after.pushed ↔
        NoLinkDue (linkedTree 6) (fun _ => 100) 4096 ∧
          NoneComesRound (linkedTree 6) (fun _ => 100) 4096) := by
  obtain ⟨after, hrun, -⟩ := @scan_run (linkedTree 6) (fun _ => 100) 4096 1024 (by decide)
  exact ⟨0, after, hrun, scansExactly_iff (by decide) hrun⟩

/-- **A file outside the tree is queued**: the link leads to a regular file. -/
theorem not_scansExactly_linked :
    ¬ ∀ (m : Mounted) (now : Bytes → TimeT) (pathMax rlimCur : ℕ) (ret : ℤ) (after : Scan),
      2 < rlimCur →
      (scanFs (m.objects.map Prod.fst)).runWith (m.answer now pathMax rlimCur) ⟨m.world, []⟩ =
        some (ret, after) → ScansExactly m now pathMax after.pushed := by
  intro h
  have hrun : (scanFs ((linkedTree 5).objects.map Prod.fst)).runWith
      ((linkedTree 5).answer (fun _ => 100) 4096 1024) ⟨(linkedTree 5).world, []⟩ =
      some (0, ⟨_, [[47, 109, 47, 100, 47, 102, 0], [47, 109, 47, 108, 0]]⟩) := rfl
  obtain ⟨v, hv, ino, hfile, -, heq⟩ :=
    ((h _ _ _ _ _ _ (by decide) hrun).2 [47, 109, 47, 108, 0]).mp
    (List.mem_cons_of_mem _ List.mem_cons_self)
  -- the only object with that path is the link
  have hvisits : (linkedTree 5).objects =
      [([47, 109], .directory 0), ([47, 109, 47, 100], .directory 1),
      ([47, 109, 47, 100, 47, 102], .file 2), ([47, 109, 47, 108], .symlink (some 5))] := rfl
  rw [hvisits] at hv
  simp only [List.mem_cons, List.not_mem_nil, or_false] at hv
  rcases hv with rfl | rfl | rfl | rfl
  · exact absurd heq (by decide)
  · exact absurd heq (by decide)
  · exact absurd heq (by decide)
  · exact Object.noConfusion hfile

end Daemon

end CloudTiering
