import CloudTiering.Recovery.Alone

/-!
# Sequences of requests on one file

One thread of the daemon uploads and downloads a file in any order and with any repetitions, nothing
fails, and nothing else runs.

* `Request`, `Session`, `perform`, `performAll`: a request, the state between two requests, and the
  runs.
* `Settled`: the file is local, or it is a hole whose id names its content.  `Settled.upload` and
  `Settled.download` say what a request makes of that.
* `performAll_roundTrip`: every request returns `0`, and the last one determines where the file is.
-/

namespace CloudTiering

open Foundations App

namespace Recovery

/-! ## Requests -/

inductive Request
  | upload (path : Bytes)
  | download (path : Bytes)
  deriving DecidableEq

/-- The path of a request. -/
def Request.path : Request → Bytes
  | .upload path => path
  | .download path => path

/-- The system and the thread between two requests: the world, the sizes that the other side of the
store's requests will choose, and the thread-local id buffer. -/
structure Session where
  world : World
  sizes : Sizes
  buf : Bytes

/-- One request, and what it returns. -/
def perform (retries : Int) (s : Session) : Request → Option (Int × Session)
  | .upload path =>
      ((uploadFile (s3Ops retries) path s.buf).runWith answerAlone (s.world, s.sizes)).map fun a =>
        (a.1.1, ⟨a.2.1, a.2.2, a.1.2⟩)
  | .download path =>
      ((downloadFile (s3Ops retries) path).runWith answerAlone (s.world, s.sizes)).map fun a =>
        (a.1, ⟨a.2.1, a.2.2, s.buf⟩)

/-- One request after the other, and what they return. -/
def performAll (retries : Int) (s : Session) : List Request → Option (List Int × Session)
  | [] => some ([], s)
  | r :: rs => do
      let (ret, t) ← perform retries s r
      let (rets, u) ← performAll retries t rs
      return (ret :: rets, u)

/-! ## One request -/

/-- The file is a hole of the length of the content, and its id names the content. -/
def IsEvicted (orig : Bytes) (i : ℕ) (w : World) : Prop :=
  ∃ v, w.inode i = evictedInode orig.length v ∧ v.length ≤ s3GetObjectIdXattrSize ∧
    w.store (cString v) = some orig

/-- The file is local with its content and no attributes, or it is evicted. -/
def Settled (orig : Bytes) (i : ℕ) (w : World) : Prop :=
  w.inode i = { data := orig } ∨ IsEvicted orig i w

theorem length_objectIdOf_le (path buf : Bytes) :
    (objectIdOf path buf).length ≤ s3GetObjectIdXattrSize := by
  rw [objectIdOf, List.length_take]
  exact Nat.min_le_left _ _

section

variable (retries : Int) {orig path : Bytes} {i : ℕ} {s : Session}

theorem perform_upload_local (hn : s.world.names path = some i)
    (hi : s.world.inode i = { data := orig }) :
    ∃ t, perform retries s (.upload path) = some (0, t) ∧
      t.buf = s3GetObjectIdXattrValue path s.buf ∧
      At s.world i (evictedInode orig.length (objectIdOf path s.buf))
        (Function.update s.world.store (keyOf path s.buf) (some orig)) t.world := by
  have hat : At s.world i { data := orig } s.world.store s.world := hi ▸ At.refl s.world i
  obtain ⟨a, t, hrun, hr, hb, hw⟩ := runWith_of_wp (s := (s.world, s.sizes))
    ((aloneUploadLocal s.world i retries path s.buf orig hn).sound hat)
  exact ⟨⟨t.1, t.2, a.2⟩, by rw [perform, hrun, ← hr]; rfl, hb, hw⟩

theorem perform_upload_remote (hn : s.world.names path = some i)
    (hstub : (s.world.inode i).stub.isSome) (hlocked : (s.world.inode i).locked = none) :
    ∃ t, perform retries s (.upload path) = some (0, t) ∧ t.buf = s.buf ∧
      At s.world i (s.world.inode i) s.world.store t.world := by
  obtain ⟨u, hu⟩ := Option.isSome_iff_exists.mp hstub
  obtain ⟨a, t, hrun, hr, hb, hw⟩ := runWith_of_wp (s := (s.world, s.sizes))
    ((aloneUploadRemote s.world i retries path s.buf _ hn hu hlocked).sound (At.refl s.world i))
  exact ⟨⟨t.1, t.2, a.2⟩, by rw [perform, hrun, ← hr]; rfl, hb, hw⟩

theorem perform_download_local (hn : s.world.names path = some i)
    (hstub : (s.world.inode i).stub = none) (hlocked : (s.world.inode i).locked = none) :
    ∃ t, perform retries s (.download path) = some (0, t) ∧ t.buf = s.buf ∧
      At s.world i (s.world.inode i) s.world.store t.world := by
  obtain ⟨a, t, hrun, hr, hw⟩ := runWith_of_wp (s := (s.world, s.sizes))
    ((aloneDownloadLocal s.world i retries path _ hn hstub hlocked).sound (At.refl s.world i))
  exact ⟨⟨t.1, t.2, s.buf⟩, by rw [perform, hrun, ← hr]; rfl, rfl, hw⟩

theorem perform_download_remote (hn : s.world.names path = some i)
    (hi : IsEvicted orig i s.world) :
    ∃ t, perform retries s (.download path) = some (0, t) ∧ t.buf = s.buf ∧
      At s.world i { data := orig } s.world.store t.world := by
  obtain ⟨v, hi, hv, hst⟩ := hi
  have hat : At s.world i (evictedInode orig.length v) s.world.store s.world :=
    hi ▸ At.refl s.world i
  obtain ⟨a, t, hrun, hr, hw⟩ := runWith_of_wp (s := (s.world, s.sizes))
    ((aloneDownloadRemote s.world i retries path (List.replicate orig.length 0) [] v orig hn hv hst
      (Nat.le_of_eq List.length_replicate)).sound hat)
  exact ⟨⟨t.1, t.2, s.buf⟩, by rw [perform, hrun, ← hr]; rfl, rfl, hw⟩

/-- An upload returns `0` and leaves the file evicted, whatever it was before. -/
theorem Settled.upload (h : Settled orig i s.world) (hn : s.world.names path = some i) :
    ∃ t, perform retries s (.upload path) = some (0, t) ∧ t.world.names = s.world.names ∧
      IsEvicted orig i t.world := by
  rcases h with h | ⟨v, hi, hv, hst⟩
  · obtain ⟨t, ht, -, hw⟩ := perform_upload_local retries hn h
    refine ⟨t, ht, hw.names, _, hw.inode_self, length_objectIdOf_le _ _, ?_⟩
    rw [hw.store, cString_objectIdOf, Function.update_self]
  · obtain ⟨t, ht, -, hw⟩ := perform_upload_remote retries hn
      (by rw [hi]; rfl) (by rw [hi]; rfl)
    exact ⟨t, ht, hw.names, v, hw.inode_self.trans hi, hv, by rw [hw.store, hst]⟩

/-- A download returns `0` and leaves the file local. -/
theorem Settled.download (h : Settled orig i s.world) (hn : s.world.names path = some i) :
    ∃ t, perform retries s (.download path) = some (0, t) ∧ t.world.names = s.world.names ∧
      t.world.inode i = { data := orig } := by
  rcases h with hi | h
  · obtain ⟨t, ht, -, hw⟩ := perform_download_local retries hn
      (by rw [hi]) (by rw [hi])
    exact ⟨t, ht, hw.names, hw.inode_self.trans hi⟩
  · obtain ⟨t, ht, -, hw⟩ := perform_download_remote retries hn h
    exact ⟨t, ht, hw.names, hw.inode_self⟩

end

/-! ## Sequences of requests -/

/-- Where the file is after a request. -/
def Request.Done (orig : Bytes) (i : ℕ) (w : World) : Request → Prop
  | .upload _ => IsEvicted orig i w
  | .download _ => w.inode i = { data := orig }

theorem Request.Done.settled {orig : Bytes} {i : ℕ} {w : World} {r : Request}
    (h : r.Done orig i w) : Settled orig i w := by
  cases r with
  | upload path => exact .inr h
  | download path => exact .inl h

theorem Settled.perform (retries : Int) {orig : Bytes} {i : ℕ} {s : Session} {r : Request}
    (h : Settled orig i s.world) (hn : s.world.names r.path = some i) :
    ∃ t, perform retries s r = some (0, t) ∧ t.world.names = s.world.names ∧
      r.Done orig i t.world := by
  cases r with
  | upload path => exact h.upload retries hn
  | download path => exact h.download retries hn

theorem Settled.performAll (retries : Int) {orig : Bytes} {i : ℕ} {s : Session}
    {rs : List Request} (h : Settled orig i s.world)
    (hn : ∀ r ∈ rs, s.world.names r.path = some i) :
    ∃ t, performAll retries s rs = some (List.replicate rs.length 0, t) ∧
      Settled orig i t.world ∧ ∀ r, rs.getLast? = some r → r.Done orig i t.world := by
  induction rs generalizing s with
  | nil => exact ⟨s, rfl, h, fun r hr => absurd hr (by simp)⟩
  | cons r rs ih =>
    obtain ⟨t, ht, hnames, hdone⟩ := h.perform retries (hn r List.mem_cons_self)
    obtain ⟨u, hu, hset, hlast⟩ := ih hdone.settled fun r' hr' => by
      rw [hnames]
      exact hn r' (List.mem_cons_of_mem _ hr')
    refine ⟨u, ?_, hset, fun r' hr' => ?_⟩
    · rw [Recovery.performAll, ht]
      dsimp only [Option.bind_eq_bind, Option.bind_some]
      rw [hu]
      rfl
    · cases rs with
      | nil =>
        obtain rfl := Option.some.inj hr'
        obtain rfl := (Prod.mk.inj (Option.some.inj hu)).2
        exact hdone
      | cons r₂ rs => exact hlast r' hr'

/-- **Round trip and idempotence.**  From a local file, every sequence of requests on it returns `0`
each time and leaves it unlocked.  After an upload the file is marked as remote, it has kept its
length, and the store holds its content under the id that a download will read back; after a
download it has its content and no attribute. -/
theorem performAll_roundTrip (retries : Int) {orig : Bytes} {i : ℕ} {s : Session}
    (h₀ : s.world.inode i = { data := orig }) {rs : List Request}
    (hn : ∀ r ∈ rs, s.world.names r.path = some i) :
    ∃ t, performAll retries s rs = some (List.replicate rs.length 0, t) ∧
      (t.world.inode i).locked = none ∧
      (∀ path, rs.getLast? = some (.upload path) →
        (t.world.inode i).stub.isSome ∧ (t.world.inode i).data.length = orig.length ∧
          ∃ v, t.world.fgetxattr i .objectId s3GetObjectIdXattrSize = .ok v ∧
            t.world.store (cString v) = some orig) ∧
      ∀ path, rs.getLast? = some (.download path) → t.world.inode i = { data := orig } := by
  obtain ⟨t, ht, hset, hlast⟩ := Settled.performAll retries (.inl h₀) hn
  refine ⟨t, ht, ?_, fun path hp => ?_, fun path hp => hlast _ hp⟩
  · rcases hset with hi | ⟨v, hi, -⟩
    · rw [hi]
    · rw [hi]
      rfl
  · obtain ⟨v, hi, hv, hst⟩ := hlast _ hp
    have hget : t.world.fgetxattr i .objectId s3GetObjectIdXattrSize = .ok v := by
      rw [World.fgetxattr, hi]
      simp only [evictedInode, Inode.xattr]
      rw [if_neg s3GetObjectIdXattrSize_ne_zero, if_neg (by omega)]
    refine ⟨by rw [hi]; rfl, ?_, v, hget, hst⟩
    rw [hi]
    exact List.length_replicate

/-- Buffers and chunks of 4096 bytes. -/
def sizes4096 : Sizes := ⟨fun _ => 4096, fun _ => by decide, fun _ => by decide⟩

/-- A thread that has done nothing yet. -/
def freshSession (w : World) : Session where
  world := w
  sizes := sizes4096
  buf := List.replicate s3XattrSize 0

/-- The scanner queues the same path twice; then the file is downloaded. -/
theorem performAll_oneByteFile :
    ∃ t, performAll 3 (freshSession oneByteFile)
        [.upload (ascii "a"), .upload (ascii "a"), .download (ascii "a")] = some ([0, 0, 0], t) ∧
      t.world.inode 0 = { data := [7] } := by
  have hn : ∀ r ∈ [Request.upload (ascii "a"), .upload (ascii "a"), .download (ascii "a")],
      (freshSession oneByteFile).world.names r.path = some 0 := by decide
  obtain ⟨t, ht, -, -, hdown⟩ := performAll_roundTrip 3 (s := freshSession oneByteFile) rfl hn
  exact ⟨t, ht, hdown _ rfl⟩

end Recovery

end CloudTiering
