import CloudTiering.Recovery.Isolation

/-!
# An upload beside the scan

The scan looks at the files while the upload thread is at work on one of them.  So it matters what
an upload that nothing fails has done at each of its calls.

* `Uploading`: what holds at every call of an upload.
* `Uploaded`: what it leaves.
* `evictUpload`: the outline, for a file that is local or remote.
-/

namespace CloudTiering

open Foundations App Recovery

namespace Pass

/-- While file `i` is being uploaded the names and the other files are as at the beginning, and a
stub stays a stub. -/
structure Uploading (w₀ : World) (i : ℕ) (w : World) : Prop where
  names : w.names = w₀.names
  others : ∀ j, j ≠ i → w.inode j = w₀.inode j
  stub : (w₀.inode i).stub.isSome = true → (w.inode i).stub.isSome = true

/-- File `i` has been evicted.  Its id is the one it had, or the key under which its content has
been stored; no other object has changed. -/
structure Uploaded (w₀ : World) (i : ℕ) (orig key : Bytes) (w : World) : Prop where
  names : w.names = w₀.names
  others : ∀ j, j ≠ i → w.inode j = w₀.inode j
  evicted : IsEvicted orig i w
  id : ∀ v, (w.inode i).objectId = some v → (w₀.inode i).objectId = some v ∨ cString v = key
  store : ∀ k, k ≠ key → w.store k = w₀.store k

section

variable {w₀ w : World} {i : ℕ} {n : Inode} {st : Bytes → Option Bytes} {orig key v : Bytes}

theorem uploading_of_at (h : At w₀ i n st w)
    (hstub : (w₀.inode i).stub.isSome = true → n.stub.isSome = true) :
    Uploading w₀ i w :=
  ⟨h.names, fun _ hj => h.inode_of_ne hj, fun hs => by rw [h.inode_self]; exact hstub hs⟩

/-- The stages of an upload at which the file is local at first. -/
theorem uploading_of_local (hlocal : w₀.inode i = { data := orig }) (n : Inode)
    (st : Bytes → Option Bytes) (w : World)
    (h : At w₀ i n st w) : Uploading w₀ i w := by
  refine uploading_of_at h fun hs => ?_
  rw [hlocal] at hs
  exact absurd hs Bool.false_ne_true

/-- The id `v` names the content in the store `st`. -/
structure Named (w₀ : World) (i : ℕ) (orig key v : Bytes) (st : Bytes → Option Bytes) : Prop where
  length : v.length ≤ s3GetObjectIdXattrSize
  object : st (cString v) = some orig
  id : (w₀.inode i).objectId = some v ∨ cString v = key
  store : ∀ k, k ≠ key → st k = w₀.store k

theorem Named.uploaded (h : Named w₀ i orig key v st)
    (hw : At w₀ i (evictedInode orig.length v) st w) :
    Uploaded w₀ i orig key w := by
  refine ⟨hw.names, fun j hj => hw.inode_of_ne hj,
    ⟨v, hw.inode_self, h.length, by rw [hw.store]; exact h.object⟩,
    fun u hu => ?_, fun k hk => by rw [hw.store]; exact h.store k hk⟩
  rw [hw.inode_self] at hu
  obtain rfl := Option.some.inj hu
  exact h.id

/-- The id that an upload gives to a local file. -/
theorem named_objectIdOf (w₀ : World) (i : ℕ) (orig path buf : Bytes) :
    Named w₀ i orig (keyOf path buf) (objectIdOf path buf)
      (Function.update w₀.store (keyOf path buf) (some orig)) := by
  refine ⟨length_objectIdOf_le path buf, ?_, .inr (cString_objectIdOf path buf),
    fun k hk => Function.update_of_ne hk _ _⟩
  rw [cString_objectIdOf, Function.update_self]

end

/-- The outline of an upload. -/
def evictUpload (w₀ : World) (i : ℕ) (retries : Int) (orig path buf : Bytes)
    (hn : w₀.names path = some i)
    (hsettled : Settled orig i w₀) :
    UploadOutline (carriedOutCalls (Uploading w₀ i)) (s3Ops retries) path buf fun r _ w =>
      r = 0 ∧ Uploaded w₀ i orig (keyOf path buf) w where
  start := At w₀ i (w₀.inode i) w₀.store
  opened fd w := fd.ino = i ∧ At w₀ i (w₀.inode i) w₀.store w
  locked fd w := fd.ino = i ∧ At w₀ i { w₀.inode i with locked := some [] } w₀.store w
  isLocal fd w := w₀.inode i = { data := orig } ∧ fd.ino = i ∧
    At w₀ i { data := orig, locked := some [] } w₀.store w
  stored fd w := w₀.inode i = { data := orig } ∧ fd.ino = i ∧
    At w₀ i { data := orig, locked := some [] }
    (Function.update w₀.store (keyOf path buf) (some orig)) w
  named fd w := w₀.inode i = { data := orig } ∧ fd.ino = i ∧ At w₀ i
    { data := orig, locked := some [], objectId := some (objectIdOf path buf) }
    (Function.update w₀.store (keyOf path buf) (some orig)) w
  stubbed fd w := w₀.inode i = { data := orig } ∧ fd.ino = i ∧ At w₀ i
    { data := orig, stub := some [], locked := some [], objectId := some (objectIdOf path buf) }
    (Function.update w₀.store (keyOf path buf) (some orig)) w
  sized fd k w := w₀.inode i = { data := orig } ∧ fd.ino = i ∧ k = orig.length ∧ At w₀ i
    { data := orig, stub := some [], locked := some [], objectId := some (objectIdOf path buf) }
    (Function.update w₀.store (keyOf path buf) (some orig)) w
  emptied fd k w := w₀.inode i = { data := orig } ∧ fd.ino = i ∧ k = orig.length ∧ At w₀ i
    { data := [], stub := some [], locked := some [], objectId := some (objectIdOf path buf) }
    (Function.update w₀.store (keyOf path buf) (some orig)) w
  undo _ _ := False
  undoStub _ _ := False
  undoId _ _ := False
  leaving fd _ r w := ∃ v st, fd.ino = i ∧ r = 0 ∧ Named w₀ i orig (keyOf path buf) v st ∧
    At w₀ i { evictedInode orig.length v with locked := some [] } st w
  closing _ _ r w := ∃ v st, r = 0 ∧ Named w₀ i orig (keyOf path buf) v st ∧
    At w₀ i (evictedInode orig.length v) st w
  openFile := at_openFile (fun _ hw => uploading_of_at hw id) hn
  lock fd := .lift fun hfd => at_fsetxattr (fun _ hw => uploading_of_at hw id) hfd
    (by rcases hsettled with h | ⟨v, h, -⟩ <;> rw [h] <;> rfl) fun _ hw => ⟨hfd, hw⟩
  check fd := .lift fun hfd => by
    rcases hsettled with h | ⟨v, h, hlen, hobj⟩
    · refine at_check_local (n := { w₀.inode i with locked := some [] })
        (fun _ hw => uploading_of_at hw id) hfd
        (by rw [h]) fun _ hw => ⟨h, hfd, ?_⟩
      rwa [h] at hw
    · have hnamed : Named w₀ i orig (keyOf path buf) v w₀.store :=
        ⟨hlen, hobj, .inl (by rw [h]; rfl), fun _ _ => rfl⟩
      refine at_check_remote (n := { w₀.inode i with locked := some [] }) (u := [])
        (fun _ hw => uploading_of_at hw id) hfd (by rw [h]; rfl) fun _ hw => ?_
      rw [h] at hw
      exact ⟨v, _, hfd, rfl, hnamed, hw⟩
  upload fd w := fun ⟨h, hfd, hw⟩ =>
    Prog.wp_mono
      ((aloneS3Upload w₀ i _ _ fd (keyOf path buf) hfd fun st =>
        uploading_of_local h _ st).sound hw)
      fun r t ⟨hr, ht⟩ => by
        subst hr
        exact ⟨h, hfd, ht⟩
  setId fd := .lift fun h => .lift fun hfd =>
    at_fsetxattr (uploading_of_local h _ _) hfd rfl fun _ hw => ⟨h, hfd, hw⟩
  setStub fd := .lift fun h => .lift fun hfd =>
    at_fsetxattr (uploading_of_local h _ _) hfd rfl fun _ hw => ⟨h, hfd, hw⟩
  fstat fd := .lift fun h => .lift fun hfd =>
    at_fstat (uploading_of_local h _ _) hfd fun _ hw => ⟨h, hfd, rfl, hw⟩
  empty fd k := .lift fun h => .lift fun hfd => .lift fun hk =>
    at_ftruncate (uploading_of_local h _ _) hfd fun _ hw => ⟨h, hfd, hk, by rwa [resize_zero] at hw⟩
  extend fd k := .lift fun h => .lift fun hfd => .lift fun hk =>
    at_ftruncate (uploading_of_local h _ _) hfd fun _ hw =>
      ⟨_, _, hfd, rfl, named_objectIdOf w₀ i orig path buf, by rwa [hk, resize_nil] at hw⟩
  removeIdUndo _ := fun _ h => h.elim
  removeStub _ := fun _ h => h.elim
  removeId _ := fun _ h => h.elim
  unlock fd b r := fun w ⟨v, st, hfd, hr, hnamed, hw⟩ =>
    at_unlock (fun _ hw => uploading_of_at hw fun _ => rfl) hfd rfl
      (fun _ hw => ⟨v, st, hr, hnamed, hw⟩) w hw
  close fd b r := fun w ⟨v, st, hr, hnamed, hw⟩ =>
    ((at_closeFile fun _ hw => uploading_of_at hw fun _ => rfl).mono fun _ _ hw =>
      ⟨hr, hnamed.uploaded hw⟩) w hw

end Pass

end CloudTiering
