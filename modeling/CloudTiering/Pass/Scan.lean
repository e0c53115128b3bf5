import CloudTiering.Daemon.Scan

/-!
# The scan beside other threads

What a scan does when the files change under it: its calls are answered truthfully, but the location
of a file is whatever it is at that moment.

* `Sight`, `observe`: what the scan has seen, read off its calls.
* `scanCalls`: the calls that it may make, and what their answers say.
* `wp_scanFs`: it deals with every path, one after the other.
-/

namespace CloudTiering

open Foundations App Daemon

namespace Pass

/-! ## What the scan sees -/

/-- What a scan has seen so far. -/
structure Sight where
  /-- The paths that it has dealt with. -/
  done : List Bytes
  /-- The path that it is at, and the file that it has opened there. -/
  file : Option (Bytes × ℕ)
  /-- Whether the location check has found that file local. -/
  isLocal : Option Bool
  /-- The path has been pushed. -/
  pushed : Bool

/-- What the location check says. -/
def located : Except Errno Bytes → Option Bool
  | .ok _ => some false
  | .error .enoattr => some true
  | .error _ => none

/-- What an answered call adds. -/
def observe (x : Sight) : (c : PolicyCall) → PolicyRep c → Sight
  | .sys (.openFile path), .ok fd =>
      { x with file := some (path, fd.ino), isLocal := none, pushed := false }
  | .sys (.openFile path), .error _ => { x with done := x.done ++ [path] }
  | .sys (.fgetxattr _ _ _), r => { x with isLocal := located r }
  | .sys (.closeFile _), _ =>
      { x with done := x.done ++ (x.file.map Prod.fst).toList, file := none }
  | .queuePush _, .ok _ => { x with pushed := true }
  | _, _ => x

section

variable (m : Mounted) (now : Bytes → TimeT) (pathMax rlimCur : ℕ) (paths : List Bytes)

/-- A file that has not been read for a while: under this path it is due for eviction as long as it
is local. -/
def Stale (path : Bytes) (ino : ℕ) : Prop :=
  (m.stat ino).regular = true ∧ (m.stat ino).atime + evictionTimeout < now path ∧
    path.length + 1 ≤ pathMax

/-- The scan may push the path it is at for a file that it has found local, and leave the path once
a stale file has been found remote or been pushed. -/
def mayCall (x : Sight) : PolicyCall → Prop
  | .sys (.openFile path) => x.file = none ∧ path ∈ paths
  | .sys (.fgetxattr fd a size) => a = .stub ∧ size = 0 ∧ ∃ path, x.file = some (path, fd.ino)
  | .sys (.closeFile _) => ∃ path ino, x.file = some (path, ino) ∧
      (Stale m now pathMax path ino → x.isLocal = some false ∨ x.pushed = true)
  | .sys _ => False
  | .fstat fd => ∃ path, x.file = some (path, fd.ino)
  | .queuePush data => ∃ path ino, x.file = some (path, ino) ∧ data = path ++ [0] ∧
      (m.stat ino).regular = true ∧ (m.stat ino).atime + evictionTimeout < now path ∧
        x.isLocal = some true
  | .time _ | .getrlimit => True

/-- The answers are true. -/
def truthful : (c : PolicyCall) → PolicyRep c → Prop
  | .sys (.fgetxattr _ _ _), r => r = .ok [] ∨ r = .error .enoattr
  | .fstat fd, r => r = .ok (m.stat fd.ino)
  | .time path, r => r = now path
  | .getrlimit, r => r = .ok rlimCur
  | .queuePush data, r => data.length ≠ 0 → data.length ≤ pathMax → r = .ok ()
  | _, _ => True

/-- The reading of the calls. -/
def scanCalls : Calls PolicyCall PolicyRep Sight where
  pre := mayCall m now pathMax paths
  post x c r x' := truthful m now pathMax rlimCur c r ∧ x' = observe x c r

end

/-! ## One path -/

section

variable {m : Mounted} {now : Bytes → TimeT} {pathMax rlimCur : ℕ} {paths : List Bytes} {x : Sight}
  {path : Bytes} {fd : Fd}

/-- The scan has left a path. -/
def Left (x : Sight) (path : Bytes) (ret : ℤ) (y : Sight) : Prop :=
  ret = 0 ∧ y.file = none ∧ y.done = x.done ++ [path]

/-- The end of every branch. -/
theorem wp_closeOpened {y : Sight} (hfile : y.file = some (path, fd.ino)) (hdone : y.done = x.done)
    (hdealt : Stale m now pathMax path fd.ino → y.isLocal = some false ∨ y.pushed = true) :
    (do
      let _ ← policy (.sys (.closeFile fd))
      return 0 : Policy ℤ).wp (scanCalls m now pathMax rlimCur paths) (Left x path) y := by
  refine Prog.wp_bind.mpr ⟨⟨path, fd.ino, hfile, hdealt⟩, fun r z ⟨_, hz⟩ => ?_⟩
  subst hz
  refine ⟨rfl, rfl, ?_⟩
  show y.done ++ (y.file.map Prod.fst).toList = _
  rw [hfile, hdone]
  rfl

/-- The condition of `update_evict_queue`: the file is regular, has been found local and has not
been read for a while; or the sight is such that the path may be left. -/
theorem wp_shouldEvict (hfile : x.file = some (path, fd.ino)) :
    (shouldEvict path fd (m.stat fd.ino)).wp (scanCalls m now pathMax rlimCur paths) (fun evict y =>
      y.file = x.file ∧ y.done = x.done ∧
        (evict = true → (m.stat fd.ino).regular = true ∧
          (m.stat fd.ino).atime + evictionTimeout < now path ∧
          y.isLocal = some true) ∧
        (evict = false → Stale m now pathMax path fd.ino → y.isLocal = some false)) x := by
  refine Prog.wp_bind.mpr (Prog.wp_bind.mpr ⟨⟨path, hfile⟩, fun r y ⟨hr, hy⟩ => ?_⟩)
  subst hr
  rw [show y = x from hy]
  show Prog.wp _ (if (if (m.stat fd.ino).regular = true then (1 : ℤ) else 0) > 0 then _ else _) _ x
  by_cases hregular : (m.stat fd.ino).regular = true
  · rw [if_pos hregular, if_pos (by decide)]
    refine Prog.wp_bind.mpr ⟨⟨rfl, rfl, path, hfile⟩, fun r y ⟨hr, hy⟩ => ?_⟩
    subst hy
    rcases hr with rfl | rfl
    · -- the stub attribute is there
      exact ⟨rfl, rfl, fun h => absurd h Bool.false_ne_true, fun _ _ => rfl⟩
    · refine ⟨trivial, fun r z ⟨hr, hz⟩ => ?_⟩
      subst hr
      rw [show z = _ from hz]
      refine ⟨rfl, rfl, fun h => ⟨hregular, of_decide_eq_true h, rfl⟩, fun h hstale => ?_⟩
      exact absurd hstale.2.1 (of_decide_eq_false h)
  · rw [if_neg hregular, if_neg (by decide)]
    exact ⟨rfl, rfl, fun h => absurd h Bool.false_ne_true, fun _ hstale => absurd hstale.1 hregular⟩

/-- A file that has been opened. -/
theorem wp_pushOpened (hfile : x.file = some (path, fd.ino)) :
    (pushOpened path fd).wp (scanCalls m now pathMax rlimCur paths) (Left x path) x := by
  refine Prog.wp_bind.mpr ⟨⟨path, hfile⟩, fun r y ⟨hr, hy⟩ => ?_⟩
  subst hr
  rw [show y = x from hy]
  refine Prog.wp_bind.mpr (Prog.wp_mono (wp_shouldEvict hfile) fun evict y hy => ?_)
  obtain ⟨hyfile, hydone, htrue, hfalse⟩ := hy
  have hyat : y.file = some (path, fd.ino) := hyfile.trans hfile
  cases evict with
  | false => exact wp_closeOpened hyat hydone fun hstale => .inl (hfalse rfl hstale)
  | true =>
    obtain ⟨hregular, hatime, hlocal⟩ := htrue rfl
    refine Prog.wp_bind.mpr ⟨⟨path, fd.ino, hyat, rfl, hregular, hatime, hlocal⟩,
      fun r z ⟨hr, hz⟩ => ?_⟩
    subst hz
    cases r with
    | ok u => exact wp_closeOpened hyat hydone fun _ => .inr rfl
    | error e =>
      refine wp_closeOpened hyat hydone fun hstale => ?_
      -- an element that fits is pushed
      have hlen : (path ++ [0]).length = path.length + 1 := List.length_append
      have hok : (Except.error e : Except Errno Unit) = .ok () :=
        hr (by omega) (by rw [hlen]; exact hstale.2.2)
      exact Except.noConfusion rfl rfl (heq_of_eq hok)

/-- **One path.** -/
theorem wp_updateEvictQueue (hpath : path ∈ paths) (hfile : x.file = none) :
    (updateEvictQueue path).wp (scanCalls m now pathMax rlimCur paths) (Left x path) x := by
  refine Prog.wp_bind.mpr ⟨⟨hfile, hpath⟩, fun r y ⟨_, hy⟩ => ?_⟩
  subst hy
  cases r with
  | error e => exact ⟨rfl, hfile, rfl⟩
  | ok fd => exact wp_pushOpened (x :=
      { x with file := some (path, fd.ino), isLocal := none, pushed := false }) rfl

/-! ## The whole tree -/

/-- **Any number of paths.** -/
theorem wp_nftw {l : List Bytes} (hl : ∀ p ∈ l, p ∈ paths) (hfile : x.file = none) :
    (nftw updateEvictQueue l).wp (scanCalls m now pathMax rlimCur paths)
      (fun ret y => ret = 0 ∧ y.file = none ∧ y.done = x.done ++ l) x := by
  induction l generalizing x with
  | nil => exact ⟨rfl, hfile, (List.append_nil _).symm⟩
  | cons path l ih =>
    refine Prog.wp_bind.mpr
      (Prog.wp_mono (wp_updateEvictQueue (hl path List.mem_cons_self) hfile) ?_)
    rintro ret y ⟨rfl, hyfile, hydone⟩
    rw [if_neg (by decide : ¬ ((0 : ℤ) ≠ 0))]
    refine Prog.wp_mono (ih (fun p hp => hl p (List.mem_cons_of_mem _ hp)) hyfile) ?_
    rintro ret z ⟨rfl, hzfile, hzdone⟩
    refine ⟨rfl, hzfile, ?_⟩
    rw [hzdone, hydone, List.append_assoc]
    rfl

/-- The scan before its first call. -/
def Sight.start : Sight := ⟨[], none, none, false⟩

/-- **A scan deals with every path.** -/
theorem wp_scanFs (hlimit : 2 < rlimCur) :
    (scanFs paths).wp (scanCalls m now pathMax rlimCur paths)
    (fun ret y => ret = 0 ∧ y.done = paths) .start := by
  refine Prog.wp_bind.mpr ⟨trivial, fun r y ⟨hr, hy⟩ => ?_⟩
  subst hr
  rw [show y = .start from hy]
  show Prog.wp _ (if rlimCur ≤ 2 then _ else _) _ _
  rw [if_neg (Nat.not_le.mpr hlimit)]
  refine Prog.wp_bind.mpr (Prog.wp_mono (wp_nftw (fun _ hp => hp) rfl) ?_)
  rintro ret z ⟨rfl, -, hdone⟩
  exact ⟨rfl, hdone⟩

end

end Pass

end CloudTiering
