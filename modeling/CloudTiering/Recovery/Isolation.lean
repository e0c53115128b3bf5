import CloudTiering.Foundations.Transition
import CloudTiering.Recovery.RoundTrip
import Mathlib.Data.Set.Function

/-!
# Many files and one store

Files are created and renamed, uploaded and downloaded.  An upload stores under a key that is made
of the *path*, while the id stays with the file when it is renamed.

* `FileSystem`, `fsStep`: the runs, with the content that each file was created with and the path
  from which it was last evicted as ghost values.
* `HasName`: a file that a rename has overwritten is gone.
* `NameNotInUse`: the condition on a step, that a local file is not uploaded from a path from which
  another file, renamed since and still remote, has been evicted.
* `isolated`: where all steps meet the condition, no upload disturbs another file and every download
  restores the file's own content.
* `upload_overwrites_renamed`: a step that does not meet it, and the object that is lost.
-/

namespace CloudTiering

open Foundations App

namespace Recovery

/-! ## The runs -/

/-- The files, the store and the thread of the daemon. -/
structure FileSystem where
  world : World
  buf : Bytes
  /-- The number of the next file. -/
  next : ℕ
  /-- The content with which a file was created. -/
  orig : ℕ → Bytes
  /-- The path from which a file was last evicted. -/
  evictedFrom : ℕ → Option Bytes

/-- No file yet. -/
def FileSystem.empty (store : Bytes → Option Bytes) : FileSystem where
  world := { inode := fun _ => {}, names := fun _ => none, store := store }
  buf := List.replicate s3XattrSize 0
  next := 0
  orig _ := []
  evictedFrom _ := none

inductive FsLabel
  | create (path data : Bytes)
  | rename (old new : Bytes)
  | upload (path : Bytes) (sizes : Sizes)
  | download (path : Bytes) (sizes : Sizes)

/-- The paths that a step mentions. -/
def FsLabel.paths : FsLabel → List Bytes
  | .create path _ => [path]
  | .rename old new => [old, new]
  | .upload path _ => [path]
  | .download path _ => [path]

/-- The file system after a request. -/
def FileSystem.after (s : FileSystem) (t : Session) : FileSystem :=
  { s with world := t.world, buf := t.buf }

/-- A new file `i` under a name. -/
def create (w : World) (i : ℕ) (path data : Bytes) : World :=
  { w.update i { data := data } with names := Function.update w.names path (some i) }

theorem inode_create_self (w : World) (i : ℕ) (path data : Bytes) :
    (create w i path data).inode i = { data := data } := World.inode_update_self _ _ _

theorem inode_create_of_ne (w : World) {i j : ℕ} (path data : Bytes) (h : j ≠ i) :
    (create w i path data).inode j = w.inode j := World.inode_update_of_ne _ _ h

/-- A rename moves the name; content and attributes stay with the file. -/
def fsStep (retries : Int) (s : FileSystem) : FsLabel → Option FileSystem
  | .create path data =>
      if s.world.names path = none then
        some { s with
          world := create s.world s.next path data
          next := s.next + 1
          orig := Function.update s.orig s.next data
          evictedFrom := Function.update s.evictedFrom s.next none }
      else none
  | .rename old new =>
      (s.world.names old).map fun i =>
        { s with world := { s.world with
            names := Function.update (Function.update s.world.names old none) new (some i) } }
  | .upload path sizes =>
      (s.world.names path).bind fun i =>
        (perform retries ⟨s.world, sizes, s.buf⟩ (.upload path)).map fun a =>
          { s.after a.2 with
            evictedFrom := if (s.world.inode i).stub = none then
              Function.update s.evictedFrom i (some path) else s.evictedFrom }
  | .download path sizes =>
      (s.world.names path).bind fun _ =>
        (perform retries ⟨s.world, sizes, s.buf⟩ (.download path)).map fun a => s.after a.2

/-- The name of the object that is stored for a path. -/
def objectName (path : Bytes) : Bytes :=
  cString (s3GetObjectIdXattrValue path (List.replicate s3XattrSize 0))

/-- The file has a name; without one, it is gone. -/
def HasName (w : World) (j : ℕ) : Prop := ∃ path, w.names path = some j

/-- The condition on a step: it mentions paths of the set only, and a local file is not uploaded
from a path from which another file has been evicted that has a name and is still remote. -/
def NameNotInUse (paths : Set Bytes) (s : FileSystem) (l : FsLabel) : Prop :=
  (∀ p ∈ l.paths, p ∈ paths) ∧
    ∀ path sizes i, l = .upload path sizes → s.world.names path = some i →
      (s.world.inode i).stub = none →
        ∀ j, j ≠ i → HasName s.world j → (s.world.inode j).stub.isSome → s.evictedFrom j ≠ some path

/-! ## The invariant -/

/-- Every file that has a name is local with its content, or evicted under the name of the path from
which it was evicted. -/
structure Isolated (paths : Set Bytes) (s : FileSystem) : Prop where
  buf : s.buf.length = s3XattrSize
  settled : ∀ j, HasName s.world j → Settled (s.orig j) j s.world
  named : ∀ j v, HasName s.world j → (s.world.inode j).objectId = some v →
    ∃ p ∈ paths, s.evictedFrom j = some p ∧ cString v = objectName p

variable {retries : Int} {paths : Set Bytes} {s s' : FileSystem}

theorem keyOf_eq_objectName {path buf : Bytes} (hb : buf.length = s3XattrSize) :
    keyOf path buf = objectName path := by
  rw [keyOf, objectName, cString_s3GetObjectIdXattrValue hb,
    cString_s3GetObjectIdXattrValue List.length_replicate]

theorem Settled.of_inode_eq {orig : Bytes} {j : ℕ} {w w' : World} (h : Settled orig j w)
    (hi : w'.inode j = w.inode j)
    (hst : ∀ v, (w.inode j).objectId = some v → w'.store (cString v) = w.store (cString v)) :
    Settled orig j w' := by
  rcases h with h | ⟨v, hv, hlen, hobj⟩
  · exact .inl (hi.trans h)
  · refine .inr ⟨v, hi.trans hv, hlen, ?_⟩
    rw [hst v (by rw [hv]; rfl), hobj]

theorem Settled.stub_of_objectId {orig v : Bytes} {j : ℕ} {w : World} (h : Settled orig j w)
    (hv : (w.inode j).objectId = some v) : (w.inode j).stub.isSome := by
  rcases h with h | ⟨v', h, -⟩
  · rw [h] at hv
    exact absurd hv (by simp)
  · rw [h]
    rfl

theorem Isolated.create {path data : Bytes} (h : Isolated paths s)
    (hl : fsStep retries s (.create path data) = some s') : Isolated paths s' := by
  simp only [fsStep] at hl
  split at hl
  · obtain rfl := Option.some.inj hl
    -- the other files with a name had it before
    have hbefore : ∀ j, j ≠ s.next → HasName (Recovery.create s.world s.next path data) j →
        HasName s.world j := by
      rintro j hj ⟨p, hp⟩
      replace hp : Function.update s.world.names path (some s.next) p = some j := hp
      by_cases hpath : p = path
      · rw [hpath, Function.update_self] at hp
        exact absurd (Option.some.inj hp).symm hj
      · rw [Function.update_of_ne hpath] at hp
        exact ⟨p, hp⟩
    refine ⟨h.buf, fun j hname => ?_, fun j v hname hv => ?_⟩
    · by_cases hj : j = s.next
      · subst hj
        dsimp only
        rw [Function.update_self]
        exact .inl (inode_create_self _ _ _ _)
      · dsimp only
        rw [Function.update_of_ne hj]
        exact (h.settled j (hbefore j hj hname)).of_inode_eq (inode_create_of_ne _ _ _ hj)
          fun _ _ => rfl
    · by_cases hj : j = s.next
      · subst hj
        rw [inode_create_self] at hv
        exact absurd hv (by simp)
      · dsimp only at hv ⊢
        rw [inode_create_of_ne _ _ _ hj] at hv
        rw [Function.update_of_ne hj]
        exact h.named j v (hbefore j hj hname) hv
  · cases hl

theorem Isolated.rename {old new : Bytes} (h : Isolated paths s)
    (hl : fsStep retries s (.rename old new) = some s') : Isolated paths s' := by
  obtain ⟨i, hi, rfl⟩ := Option.map_eq_some_iff.mp hl
  -- no other file gets a name
  have hbefore : ∀ j, HasName { s.world with
      names := Function.update (Function.update s.world.names old none) new (some i) } j →
      HasName s.world j := by
    rintro j ⟨p, hp⟩
    dsimp only at hp
    by_cases hnew : p = new
    · rw [hnew, Function.update_self] at hp
      exact ⟨old, hi.trans hp⟩
    · rw [Function.update_of_ne hnew] at hp
      by_cases hold : p = old
      · rw [hold, Function.update_self] at hp
        exact absurd hp.symm (Option.some_ne_none j)
      · rw [Function.update_of_ne hold] at hp
        exact ⟨p, hp⟩
  exact ⟨h.buf, fun j hj => (h.settled j (hbefore j hj)).of_inode_eq rfl fun _ _ => rfl,
    fun j v hj => h.named j v (hbefore j hj)⟩

/-- The step lemma of the downloads, with what the download restores. -/
theorem Isolated.download {path : Bytes} {sizes : Sizes} (h : Isolated paths s)
    (hl : fsStep retries s (.download path sizes) = some s') :
    Isolated paths s' ∧
      ∀ i, s.world.names path = some i → s'.world.inode i = { data := s.orig i } := by
  obtain ⟨i, hi, hl⟩ := Option.bind_eq_some_iff.mp hl
  obtain ⟨⟨r, t⟩, ht, rfl⟩ := Option.map_eq_some_iff.mp hl
  have hspec : ∃ u, perform retries ⟨s.world, sizes, s.buf⟩ (.download path) = some (0, u) ∧
      u.buf = s.buf ∧ At s.world i { data := s.orig i } s.world.store u.world := by
    rcases h.settled i ⟨path, hi⟩ with hloc | hev
    · obtain ⟨u, hu, hb, hw⟩ := perform_download_local retries
        (s := ⟨s.world, sizes, s.buf⟩) hi (by rw [hloc]) (by rw [hloc])
      exact ⟨u, hu, hb, hloc ▸ hw⟩
    · exact perform_download_remote retries hi hev
  obtain ⟨u, hu, hb, hw⟩ := hspec
  obtain rfl : t = u := (Prod.mk.inj (Option.some.inj (ht.symm.trans hu))).2
  have hbefore : ∀ j, HasName t.world j → HasName s.world j := fun j ⟨p, hp⟩ =>
    ⟨p, (congrFun hw.names p).symm.trans hp⟩
  refine ⟨⟨?_, fun j hj => ?_, fun j v hname hv => ?_⟩, fun i' hi' => ?_⟩
  · exact (congrArg List.length hb).trans h.buf
  · have hset := h.settled j (hbefore j hj)
    by_cases hj : j = i
    · subst hj
      exact .inl hw.inode_self
    · exact hset.of_inode_eq (hw.inode_of_ne hj) fun v _ => congrFun hw.store _
  · by_cases hj : j = i
    · subst hj
      rw [show (s.after t).world.inode j = _ from hw.inode_self] at hv
      exact absurd hv (by simp)
    · rw [show (s.after t).world.inode j = _ from hw.inode_of_ne hj] at hv
      exact h.named j v (hbefore j hname) hv
  · obtain rfl : i = i' := Option.some.inj (hi.symm.trans hi')
    exact hw.inode_self

/-- The step lemma of the uploads, with what is left alone. -/
theorem Isolated.upload (hinj : Set.InjOn objectName paths) {path : Bytes} {sizes : Sizes}
    (h : Isolated paths s) (hP : NameNotInUse paths s (.upload path sizes))
    (hl : fsStep retries s (.upload path sizes) = some s') :
    Isolated paths s' ∧ ∀ i, s.world.names path = some i → ∀ j, j ≠ i → HasName s.world j →
      (s.world.inode j).stub.isSome → s'.world.object j = s.world.object j := by
  obtain ⟨i, hi, hl⟩ := Option.bind_eq_some_iff.mp hl
  obtain ⟨⟨r, t⟩, ht, rfl⟩ := Option.map_eq_some_iff.mp hl
  have hpath : path ∈ paths := hP.1 path (List.mem_singleton_self path)
  rcases h.settled i ⟨path, hi⟩ with hloc | hev
  · -- a local file: the object under the name of the path changes
    obtain ⟨u, hu, hb, hw⟩ := perform_upload_local retries
      (s := ⟨s.world, sizes, s.buf⟩) hi hloc
    obtain rfl : t = u := (Prod.mk.inj (Option.some.inj (ht.symm.trans hu))).2
    dsimp only at hb hw
    rw [keyOf_eq_objectName h.buf] at hw
    have hstub : (s.world.inode i).stub = none := by rw [hloc]
    -- no other file has that name
    have hother : ∀ j, j ≠ i → HasName s.world j → ∀ v, (s.world.inode j).objectId = some v →
        t.world.store (cString v) = s.world.store (cString v) := by
      intro j hj hex v hv
      obtain ⟨p, hp, hfrom, hname⟩ := h.named j v hex hv
      have hne : cString v ≠ objectName path := by
        rw [hname]
        intro heq
        have hused := hP.2 path sizes i rfl hi hstub j hj hex
          ((h.settled j hex).stub_of_objectId hv)
        exact hused (by rw [hfrom, hinj hp hpath heq])
      rw [hw.store, Function.update_of_ne hne]
    have hbefore : ∀ j, HasName t.world j → HasName s.world j := fun j ⟨p, hp⟩ =>
      ⟨p, (congrFun hw.names p).symm.trans hp⟩
    refine ⟨⟨?_, fun j hex => ?_, fun j v hex hv => ?_⟩, fun i' hi' j hj hex _ => ?_⟩
    · exact (congrArg List.length hb).trans ((length_s3GetObjectIdXattrValue _ _).trans h.buf)
    · by_cases hj : j = i
      · subst hj
        refine .inr ⟨_, hw.inode_self, length_objectIdOf_le _ _, ?_⟩
        rw [cString_objectIdOf, keyOf_eq_objectName h.buf]
        exact (congrFun hw.store _).trans (Function.update_self _ _ _)
      · exact (h.settled j (hbefore j hex)).of_inode_eq (hw.inode_of_ne hj)
          (hother j hj (hbefore j hex))
    · dsimp only at hv ⊢
      rw [if_pos hstub]
      by_cases hj : j = i
      · subst hj
        rw [show (s.after t).world.inode j = _ from hw.inode_self] at hv
        obtain rfl := Option.some.inj hv
        refine ⟨path, hpath, Function.update_self _ _ _, ?_⟩
        rw [cString_objectIdOf, keyOf_eq_objectName h.buf]
      · rw [show (s.after t).world.inode j = _ from hw.inode_of_ne hj] at hv
        rw [Function.update_of_ne hj]
        exact h.named j v (hbefore j hex) hv
    · obtain rfl : i = i' := Option.some.inj (hi.symm.trans hi')
      show (t.world.inode j).objectId.bind _ = _
      rw [hw.inode_of_ne hj, World.object]
      cases hv : (s.world.inode j).objectId with
      | none => rfl
      | some v => exact hother j hj hex v hv
  · -- a remote file: nothing changes
    obtain ⟨v, hi', hlen, hobj⟩ := hev
    obtain ⟨u, hu, hb, hw⟩ := perform_upload_remote retries
      (s := ⟨s.world, sizes, s.buf⟩) hi (by rw [hi']; rfl) (by rw [hi']; rfl)
    obtain rfl : t = u := (Prod.mk.inj (Option.some.inj (ht.symm.trans hu))).2
    have hinode : t.world.inode = s.world.inode := hw.inode.trans (Function.update_eq_self _ _)
    have hstub : (s.world.inode i).stub ≠ none := by
      rw [hi']
      simp [evictedInode]
    have hbefore : ∀ j, HasName t.world j → HasName s.world j := fun j ⟨p, hp⟩ =>
      ⟨p, (congrFun hw.names p).symm.trans hp⟩
    refine ⟨⟨?_, fun j hex => ?_, fun j v hex hv => ?_⟩, fun i' _ j _ _ _ => ?_⟩
    · exact (congrArg List.length hb).trans h.buf
    · exact (h.settled j (hbefore j hex)).of_inode_eq (congrFun hinode j) fun v _ =>
        congrFun hw.store _
    · dsimp only at hv ⊢
      rw [if_neg hstub]
      rw [show (s.after t).world.inode j = _ from congrFun hinode j] at hv
      exact h.named j v (hbefore j hex) hv
    · show (t.world.inode j).objectId.bind (fun v => t.world.store (cString v)) = _
      rw [hinode, hw.store]
      rfl

theorem Isolated.step (hinj : Set.InjOn objectName paths) {l : FsLabel} (h : Isolated paths s)
    (hP : NameNotInUse paths s l) (hl : fsStep retries s l = some s') : Isolated paths s' := by
  cases l with
  | create path data => exact h.create hl
  | rename old new => exact h.rename hl
  | upload path sizes => exact (h.upload hinj hP hl).1
  | download path sizes => exact (h.download hl).1

theorem isolated_empty (store : Bytes → Option Bytes) : Isolated paths (.empty store) :=
  ⟨List.length_replicate, fun _ _ => .inl rfl, fun _ _ _ hv =>
    absurd hv (by simp [FileSystem.empty])⟩

/-- **Files are isolated, as long as no name is used twice.**  An upload leaves the objects of the
other remote files that have a name alone, and a download restores the file's own content. -/
theorem isolated {store : Bytes → Option Bytes} {l : FsLabel} (hinj : Set.InjOn objectName paths)
    (h : Reach (fsStep retries) (NameNotInUse paths) (.empty store) s)
    (hP : NameNotInUse paths s l) (hl : fsStep retries s l = some s') :
    (∀ path sizes i, l = .upload path sizes → s.world.names path = some i → ∀ j, j ≠ i →
      HasName s.world j → (s.world.inode j).stub.isSome → s'.world.object j = s.world.object j) ∧
    ∀ path sizes i, l = .download path sizes → s.world.names path = some i →
      s'.world.inode i = { data := s.orig i } := by
  have hI : Isolated paths s :=
    h.invariant (isolated_empty store) fun _ _ _ hs hP hl => hs.step hinj hP hl
  refine ⟨fun path sizes i hlab hi => ?_, fun path sizes i hlab hi => ?_⟩
  · subst hlab
    exact (hI.upload hinj hP hl).2 i hi
  · subst hlab
    exact (hI.download hl).2 i hi

/-- The file system with one file `a`. -/
def oneFile : FileSystem :=
  { FileSystem.empty fun _ => none with
    world := create (FileSystem.empty fun _ => none).world 0 (ascii "a") [7]
    next := 1
    orig := Function.update (fun _ => []) 0 [7]
    evictedFrom := Function.update (fun _ => none) 0 none }

/-- A file that is evicted and downloaded again has its content. -/
theorem isolated_oneFile : ∃ s s', fsStep 3 s (.download (ascii "a") sizes4096) = some s' ∧
    (s.world.inode 0).stub = some [] ∧ s'.world.inode 0 = { data := [7] } := by
  have hcreate : fsStep 3 (.empty fun _ => none) (.create (ascii "a") [7]) = some oneFile := rfl
  have hone : Reach (fsStep 3) (NameNotInUse {ascii "a"}) (.empty fun _ => none) oneFile := by
    refine .tail .init (l := .create (ascii "a") [7]) ⟨fun p hp => ?_, ?_⟩ hcreate
    · exact List.mem_singleton.mp hp
    · exact fun _ _ _ h => FsLabel.noConfusion h
  have hupload : ((fsStep 3 oneFile (.upload (ascii "a") sizes4096)).any fun s =>
      s.orig 0 = [7] && s.world.names (ascii "a") = some 0 && (s.world.inode 0).stub = some [] &&
        (fsStep 3 s (.download (ascii "a") sizes4096)).isSome) = true := by decide +kernel
  obtain ⟨s, hs, hp⟩ := (Option.any_eq_true _ _).mp hupload
  simp only [Bool.and_eq_true, decide_eq_true_eq] at hp
  obtain ⟨⟨⟨horig, hname⟩, hstub⟩, hdown⟩ := hp
  obtain ⟨s', hs'⟩ := Option.isSome_iff_exists.mp hdown
  have hreach : Reach (fsStep 3) (NameNotInUse {ascii "a"}) (.empty fun _ => none) s := by
    refine hone.tail (l := .upload (ascii "a") sizes4096) ⟨fun p hp => ?_, ?_⟩ hs
    · exact List.mem_singleton.mp hp
    · intro path sizes i _ _ _ j _ _ _
      rw [show oneFile.evictedFrom j = none from
        congrFun (Function.update_eq_self 0 fun _ => none) j]
      exact Option.some_ne_none path |>.symm
  have hlast : NameNotInUse {ascii "a"} s (.download (ascii "a") sizes4096) :=
    ⟨fun p hp => List.mem_singleton.mp hp, fun _ _ _ h => FsLabel.noConfusion h⟩
  refine ⟨s, s', hs', hstub, ?_⟩
  rw [← horig]
  exact (isolated (Set.injOn_singleton _ _) hreach hlast hs').2 _ _ 0 rfl hname

/-- **A name that is used twice loses a file**: the file `a` is evicted and renamed to `b`, and a
new file `a` is evicted.  The two names have different objects, but the first file keeps the object
of its old name. -/
theorem upload_overwrites_renamed : objectName (ascii "a") ≠ objectName (ascii "b") ∧
    ∃ s s', Reach (fsStep 3) (fun _ _ => True) (.empty fun _ => none) s ∧
      fsStep 3 s (.upload (ascii "a") sizes4096) = some s' ∧
      s.world.names (ascii "a") = some 1 ∧ s.world.names (ascii "b") = some 0 ∧
      (s.world.inode 0).stub.isSome ∧ s'.world.object 0 ≠ s.world.object 0 := by
  refine ⟨by decide, ?_⟩
  have hrun : ((run (fsStep 3) (.empty fun _ => none)
      [.create (ascii "a") [7], .upload (ascii "a") sizes4096, .rename (ascii "a") (ascii "b"),
        .create (ascii "a") [8]]).any fun s =>
          (fsStep 3 s (.upload (ascii "a") sizes4096)).any fun s' =>
            s.world.names (ascii "a") = some 1 && s.world.names (ascii "b") = some 0 &&
              (s.world.inode 0).stub.isSome && s'.world.object 0 ≠ s.world.object 0) = true := by
    decide +kernel
  obtain ⟨s, hs, hp⟩ := Reach.exists_of_run (fun _ _ _ => trivial) hrun
  obtain ⟨s', hs', hp'⟩ := (Option.any_eq_true _ _).mp hp
  simp only [Bool.and_eq_true, decide_eq_true_eq] at hp'
  exact ⟨s, s', hs, hs', hp'.1.1.1, hp'.1.1.2, hp'.1.2, hp'.2⟩

end Recovery

end CloudTiering
