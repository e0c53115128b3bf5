import CloudTiering.Concurrency.Attributes
import CloudTiering.Foundations.Holes
import CloudTiering.Foundations.Streams
import CloudTiering.Foundations.Threads

/-!
# An eviction under open descriptors

Clients read and write through descriptors that they opened while the file was local, and meanwhile
`upload_file` evicts the file.  Nothing tells the one about the other: the library does not look at
the lock attribute, and `upload_file` does not look for accesses.

`s3_upload` reads the file through a stream, which fetches bytes ahead of what it hands over.

* `Accessed`: the world, together with what the writes of the clients alone would have made of the
  file, and the stream of `s3_upload`.
* `Evict`: how far `upload_file` is.
* `evictSystem`: one call of `upload_file`, clients that read and write at will, and the stream.
* `Invisible`: every read has returned what it should, and in the end the content is what has been
  written.
* `Harmless`: the condition on a run.
* `evictExec_fread_exec`: over a file that nobody changes the stream comes to what `exec` says.
* `reach_invisible`: under it, the eviction is invisible.
* `overtaken`: without it, a write can be lost.
-/

namespace CloudTiering

open Foundations App

namespace Concurrency

/-! ## The file and its clients -/

/-- The world, and what the clients know of one file: the bytes that their writes alone would have
made of it, and for each of their reads what it has returned and what it should have.  `dropped`
says which bytes a truncation has taken away since they were last written. -/
structure Accessed where
  world : World
  written : Bytes
  reads : List (Bytes × Bytes) := []
  dropped : ℕ → Bool := fun _ => false
  /-- The stream of `s3_upload`, from its `fdopen` to its `fclose`. -/
  stream : Option (Fd × Reader UInt8) := none

/-- What happens between the calls of `upload_file`. -/
inductive Access
  /-- A `read` of a client. -/
  | read (pos n : ℕ)
  /-- A `write` of a client. -/
  | write (pos : ℕ) (bs : Bytes)
  /-- The stream of `s3_upload` reads at most `n` bytes more from the file into its buffer. -/
  | fetch (n : ℕ)

/-- Which bytes of file `i` are dropped after a call of `upload_file`. -/
def Accessed.droppedBy (i : ℕ) (w : Accessed) : Call → ℕ → Bool
  | .ftruncate fd len => fun j => w.dropped j ||
      (decide (fd.ino = i) && (decide (len ≤ j) && decide (j < (w.world.inode i).data.length)))
  | _ => w.dropped

/-- The stream after a call other than `fread`.  The descriptor behind it stands at the beginning of
the file. -/
def Accessed.streamBy (w : Accessed) : Call → Option (Fd × Reader UInt8)
  | .fdopen d => some (d, {})
  | .fclose _ => none
  | _ => w.stream

/-- A call of `upload_file` that does not fail.  `fread` takes the bytes from the buffer of the
stream, where they have to be, unless the file has ended; it may have to wait for a `fetch`. -/
def evictExec (i : ℕ) (w : Accessed) (ch : Choice) : (c : Call) → Option (Rep c × Accessed)
  | .fread d _ k =>
      match w.stream with
      | some (d', r) =>
          if ch = .ok ∧ d' = d then
            (r.take k).map fun a => (a.1, { w with stream := some (d, a.2) })
          else none
      | none => none
  | c => (execOk w.world ch c).map fun a =>
      (a.1, { w with world := a.2, dropped := w.droppedBy i c, stream := w.streamBy c })

/-- How many bytes the stream has fetched from the file. -/
def Accessed.fetched (w : Accessed) : ℕ :=
  match w.stream with
  | some (_, r) => r.pos
  | none => 0

/-- An access to file `i`, or by the stream. -/
def accessFile (i : ℕ) (w : Accessed) : Access → Accessed
  | .read pos n => { w with
      reads := w.reads ++ [(readAt (w.world.inode i).data pos n, readAt w.written pos n)] }
  | .write pos bs => { w with
      world := w.world.write i pos bs
      written := writeAt w.written pos bs
      dropped := fun j => w.dropped j && !(decide (pos ≤ j) && decide (j < pos + bs.length)) }
  | .fetch n => { w with
      stream := w.stream.map fun s => (s.1, s.2.fetch (w.world.inode s.1.ino).data n) }

/-! ## How far the eviction is -/

/-- How far `upload_file` is.  `d` is the duplicated descriptor of `s3_upload`, `n` a size it has
seen, and `got` the bytes that it has read. -/
inductive Evict
  /-- Not begun, or ended without an eviction. -/
  | outside
  /-- Nothing of the file has been seen yet, or the eviction has been given up. -/
  | opened (fd : Fd)
  | copied (fd d : Fd)
  /-- `s3_upload` has seen the size. -/
  | reading (fd d : Fd) (n : ℕ) (got : Bytes)
  /-- The object is stored. -/
  | stored (fd d : Fd)
  /-- The stream is closed. -/
  | closed (fd : Fd)
  /-- `object_id` is set. -/
  | named (fd : Fd)
  /-- The stub attribute is set. -/
  | stubbed (fd : Fd)
  | sized (fd : Fd) (n : ℕ)
  /-- The file has been truncated. -/
  | emptied (fd : Fd) (n : ℕ)
  /-- The file has its length back. -/
  | evicted (fd : Fd)
  deriving DecidableEq

/-- The calls that `upload_file` may make. -/
def Evict.expects (path buf : Bytes) : Evict → Call → Prop
  | .outside, c => c = .openFile path
  | .opened fd, c => c = .fsetxattr fd .locked [] .create ∨ c = .fgetxattr fd .stub 0 ∨
      c = .dup fd ∨ c = .fremovexattr fd .locked ∨ c = .closeFile fd
  | .copied _ d, c => c = .fstat d
  | .reading _ d n got, c => (got = [] ∧ c = .fdopen d) ∨ c = .putBuffer ∨
      (∃ k, got.length < n ∧ 0 < k ∧ c = .fread d got.length k) ∨
      (n ≤ got.length ∧ c = .putEnd (cString (s3GetObjectIdXattrValue path buf)) got)
  | .stored _ d, c => c = .fclose d
  | .closed fd, c => c = .fsetxattr fd .objectId
      ((s3GetObjectIdXattrValue path buf).take s3GetObjectIdXattrSize) .create
  | .named fd, c => c = .fsetxattr fd .stub [] .create
  | .stubbed fd, c => c = .fstat fd
  | .sized fd _, c => c = .ftruncate fd 0
  | .emptied fd n, c => c = .ftruncate fd n
  | .evicted fd, c => c = .fremovexattr fd .locked ∨ c = .closeFile fd

/-- Where the eviction stands after an answer. -/
def Evict.next (p : Evict) (c : Call) (r : Rep c) : Evict :=
  match p with
  | .outside => match c, r with
    | .openFile _, .ok fd => .opened fd
    | _, _ => .outside
  | .opened fd => match c, r with
    | .dup _, .ok d => .copied fd d
    | .closeFile _, _ => .outside
    | _, _ => .opened fd
  | .copied fd d => match c, r with
    | .fstat _, .ok n => .reading fd d n []
    | _, _ => .copied fd d
  | .reading fd d n got => match c, r with
    | .fread .., bs => .reading fd d n (got ++ bs)
    | .putEnd .., _ => .stored fd d
    | _, _ => .reading fd d n got
  | .stored fd _ => .closed fd
  | .closed fd => match c, r with
    | .fsetxattr .., .ok _ => .named fd
    | .fsetxattr .., .error _ => .opened fd
    | _, _ => .closed fd
  | .named fd => .stubbed fd
  | .stubbed fd => match c, r with
    | .fstat _, .ok n => .sized fd n
    | _, _ => .stubbed fd
  | .sized fd n => .emptied fd n
  | .emptied fd _ => .evicted fd
  | .evicted fd => .evicted fd

/-- What is known of an answer: the file is local, it is not shorter than it was, and it has no stub
attribute. -/
def Evict.answered (p : Evict) (c : Call) (r : Rep c) : Prop :=
  match p with
  | .opened _ => match c, r with
    | .fgetxattr .., r => r = .error .enoattr
    | c, r => succeeds c r = true
  | .reading .. => match c, r with
    | .fread .., bs => bs ≠ []
    | c, r => succeeds c r = true
  | .named _ => match c, r with
    | .fsetxattr .., r => r = .ok ()
    | c, r => succeeds c r = true
  | _ => succeeds c r = true

/-- The calls as moves of the eviction. -/
def evictCalls (path buf : Bytes) : Calls Call Rep Evict where
  pre p c := p.expects path buf c
  post p c r p' := p.answered c r ∧ p' = p.next c r

section

variable {path buf : Bytes} {fd : Fd} {p : Evict}

/-- A call that is expected, whose answer decides where the eviction stands next. -/
theorem triple_evict {c : Call} {Q : Rep c → Evict → Prop} (hpre : p.expects path buf c)
    (hpost : ∀ r, p.answered c r → Q r (p.next c r)) :
    Prog.Triple (evictCalls path buf) (fun t => t = p) c Q := by
  rintro t rfl
  refine ⟨hpre, ?_⟩
  rintro r t' ⟨hr, rfl⟩
  exact hpost r hr

/-- An answer that is no error. -/
theorem exists_ok_of_isOk {α : Type} {r : Except Errno α} (h : r.isOk = true) : ∃ a, r = .ok a := by
  cases r with
  | ok a => exact ⟨a, rfl⟩
  | error e => exact absurd h Bool.false_ne_true

/-- The upload of the bytes. -/
def evictS3Upload (path buf : Bytes) (fd : Fd) :
    S3UploadOutline (evictCalls path buf) fd (cString (s3GetObjectIdXattrValue path buf)) fun r p =>
      r = 0 ∧ p = .closed fd where
  start p := p = .opened fd
  duplicated d p := p = .copied fd d
  sized d n p := p = .reading fd d n []
  reading d n got p := p = .reading fd d n got
  finished d r p := r = 0 ∧ p = .stored fd d
  dup := triple_evict (.inr (.inr (.inl rfl))) fun r hr => by
    obtain ⟨d, rfl⟩ := exists_ok_of_isOk hr
    rfl
  fstat d := triple_evict rfl fun r hr => by
    obtain ⟨n, rfl⟩ := exists_ok_of_isOk hr
    rfl
  fdopen d n := triple_evict (.inl ⟨rfl, rfl⟩) fun r hr => by
    obtain ⟨u, rfl⟩ := exists_ok_of_isOk hr
    rfl
  putBuffer d n got _ := triple_evict (.inr (.inl rfl)) fun r hr => by
    cases r with
    | ok size =>
      obtain ⟨hpos, hlt⟩ := Bool.and_eq_true_iff.mp hr
      exact ⟨size_mod_pos (of_decide_eq_true hpos) (of_decide_eq_true hlt), rfl⟩
    | error status => exact absurd hr Bool.false_ne_true
  fread d n got size hlt hsize := triple_evict
    (.inr (.inr (.inl ⟨_, hlt, toRead_pos hsize (Nat.sub_pos_of_lt hlt), rfl⟩))) fun _ hbs =>
      ⟨hbs, rfl⟩
  putEnd d n got hle := triple_evict (.inr (.inr (.inr ⟨hle, rfl⟩))) fun r hr => by
    obtain rfl : r = .ok := of_decide_eq_true hr
    exact ⟨rfl, rfl, rfl⟩
  fclose d _ := .lift fun hret => triple_evict rfl fun r hr => by
    obtain ⟨u, rfl⟩ := exists_ok_of_isOk hr
    exact ⟨hret, rfl⟩

/-- The eviction. -/
def evictUpload (retries : Int) (path buf : Bytes) :
    UploadOutline (evictCalls path buf) (s3Ops retries) path buf fun r _ p =>
      (r = -1 ∧ p = .outside) ∨ (r = 0 ∧ ∃ fd, p = .evicted fd) where
  start p := p = .outside
  opened fd p := p = .opened fd
  locked fd p := p = .opened fd
  isLocal fd p := p = .opened fd
  stored fd p := p = .closed fd
  named fd p := p = .named fd
  stubbed fd p := p = .stubbed fd
  sized fd n p := p = .sized fd n
  emptied fd n p := p = .emptied fd n
  undo _ _ := False
  undoStub _ _ := False
  undoId _ _ := False
  leaving fd _ r p := (r = -1 ∧ p = .opened fd) ∨ (r = 0 ∧ p = .evicted fd)
  closing fd _ r p := (r = -1 ∧ p = .opened fd) ∨ (r = 0 ∧ p = .evicted fd)
  openFile := triple_evict rfl fun r hr => by
    obtain ⟨fd, rfl⟩ := exists_ok_of_isOk hr
    rfl
  lock _ := triple_evict (.inl rfl) fun r _ => by
    cases r with
    | ok u => rfl
    | error e => exact .inl ⟨rfl, rfl⟩
  check _ := triple_evict (.inr (.inl rfl)) fun r hr => by
    obtain rfl : r = .error .enoattr := hr
    rfl
  upload fd p hp :=
    Prog.wp_mono ((evictS3Upload path buf fd).sound hp) fun r t ⟨hr, ht⟩ => by
      subst hr
      exact ht
  setId fd := triple_evict rfl fun r _ => by
    cases r with
    | ok u => rfl
    | error e => exact .inl ⟨rfl, rfl⟩
  setStub _ := triple_evict rfl fun r hr => by
    obtain rfl : r = .ok () := hr
    rfl
  fstat _ := triple_evict rfl fun r hr => by
    obtain ⟨n, rfl⟩ := exists_ok_of_isOk hr
    rfl
  empty _ _ := triple_evict rfl fun r hr => by
    obtain ⟨u, rfl⟩ := exists_ok_of_isOk hr
    rfl
  extend _ _ := triple_evict rfl fun r hr => by
    obtain ⟨u, rfl⟩ := exists_ok_of_isOk hr
    exact .inr ⟨rfl, rfl⟩
  removeIdUndo _ := fun _ h => h.elim
  removeStub _ := fun _ h => h.elim
  removeId _ := fun _ h => h.elim
  unlock fd _ _ := by
    rintro p (⟨rfl, rfl⟩ | ⟨rfl, rfl⟩)
    · exact triple_evict (p := .opened fd) (.inr (.inr (.inr (.inl rfl))))
        (fun _ _ => .inl ⟨rfl, rfl⟩) _ rfl
    · exact triple_evict (p := .evicted fd) (.inl rfl) (fun _ _ => .inr ⟨rfl, rfl⟩) _ rfl
  close fd _ _ := by
    rintro p (⟨rfl, rfl⟩ | ⟨rfl, rfl⟩)
    · exact triple_evict (p := .opened fd) (.inr (.inr (.inr (.inr rfl))))
        (fun _ _ => .inl ⟨rfl, rfl⟩) _ rfl
    · exact triple_evict (p := .evicted fd) (.inr rfl) (fun _ _ => .inr ⟨rfl, fd, rfl⟩) _ rfl

end

/-! ## The system -/

/-- Where a call of `upload_file` that has not begun, or has returned, leaves the eviction. -/
def EvictOutcomeAt : Option (Int × Bytes) → Evict → Prop
  | none, p => p = .outside
  | some a, p => (a.1 = -1 ∧ p = .outside) ∨ (a.1 = 0 ∧ ∃ fd, p = .evicted fd)

/-- One call of `upload_file`, and clients that have file `i` open.  The stream may fetch at any
time while it is open; the C library does so where an `fread` wants more than there is in the
buffer. -/
def evictSystem (retries : Int) (path buf : Bytes) (i : ℕ) :
    ThreadSystem Call Rep (Option (Int × Bytes)) Unit Accessed Choice Evict Unit Access where
  exec _ := evictExec i
  observe _ p c r := p.next c r
  next _ _ a p _ := match a with
    | none => some (do return some (← uploadFile (s3Ops retries) path buf), p)
    | some _ => none
  env e w := some (accessFile i w e)

/-- The world, the clients and the call of `upload_file`. -/
abbrev EvictState := ThreadSystem.State Call Rep (Option (Int × Bytes)) Unit Accessed Evict

/-- Nothing has begun. -/
def evictInitial (w : World) (i : ℕ) : EvictState :=
  ⟨{ world := w, written := (w.inode i).data }, fun _ => ⟨.ret none, .outside⟩⟩

/-- **The eviction is invisible.**  Every read has returned what the writes alone would have made it
return, and once `upload_file` has returned, these writes have made the content: the file is still
local, or its object holds it. -/
def Invisible (i : ℕ) (s : EvictState) : Prop :=
  (∀ p ∈ s.world.reads, p.1 = p.2) ∧
    ∀ a, (s.thread ()).prog = .ret (some a) → s.world.world.recoverable i = some s.world.written ∧
      ((a.1 = -1 ∧ (s.world.world.inode i).stub = none) ∨
        (a.1 = 0 ∧ (s.world.world.inode i).stub.isSome = true))

/-- A write that makes `written'` of `written` does not come too late: from the moment on at which
`s3_upload` has seen the size, it changes neither the length nor a byte among the first `fetched`
ones, which the stream has fetched, be it to hand them over or only to keep them in its buffer. -/
def Evict.Spares (p : Evict) (fetched : ℕ) (written written' : Bytes) : Prop :=
  match p with
  | .outside | .opened _ | .copied _ _ => True
  | .reading .. =>
      written'.length = written.length ∧ written'.take fetched = written.take fetched
  | _ => written' = written

/-- The eviction will be given up: `object_id` is there before `upload_file` sets it. -/
def Accessed.GivesUp (i : ℕ) (w : Accessed) : Evict → Prop
  | .reading .. | .stored .. | .closed _ => (w.world.inode i).objectId.isSome = true
  | _ => False

/-- **The condition.**  No write comes too late, unless the eviction will be given up, and no read
covers a byte that a truncation has taken away, but for zeros that have been filled in again. -/
def Harmless (i : ℕ) (s : EvictState) : ThreadSystem.Label Unit Choice Unit Access → Prop
  | .env (.read pos n) => ∀ k < n, pos + k < s.world.written.length →
      pos + k < (s.world.world.inode i).data.length ∧
        (s.world.dropped (pos + k) = true → s.world.written[pos + k]? = some 0)
  | .env (.write pos bs) => s.world.GivesUp i (s.mons ()) ∨
      (s.mons ()).Spares s.world.fetched s.world.written (writeAt s.world.written pos bs)
  | _ => True

/-! ## The invariant -/

/-- The file is local, and its bytes are those that have been written. -/
def Accessed.Local (i : ℕ) (w : Accessed) : Prop :=
  (w.world.inode i).stub = none ∧ (w.world.inode i).data = w.written

/-- The file is remote, and its object is what has been written. -/
def Accessed.Remote (i : ℕ) (w : Accessed) : Prop :=
  (w.world.inode i).stub.isSome = true ∧ w.world.object i = some w.written

/-- The stream has handed over `got` of the file, which has had at least `n` bytes. -/
def Accessed.HandsOver (i n : ℕ) (got : Bytes) (w : Accessed) : Prop :=
  match w.stream with
  | some (d, r) => d.ino = i ∧ r.Stands got n
  | none => got = []

/-- What the stream has fetched is the beginning of what has been written. -/
def Accessed.InStep (got : Bytes) (w : Accessed) : Prop :=
  match w.stream with
  | some (_, r) => r.Follows got w.written
  | none => True

/-- The key is that of the object which is what has been written, unless the eviction will be given
up. -/
def Accessed.Stored (i : ℕ) (key : Bytes) (w : Accessed) : Prop :=
  (w.world.inode i).objectId.isSome = true ∨ w.world.store key = some w.written

/-- What holds where the eviction stands. -/
def EvictAt (i : ℕ) (key : Bytes) (w : Accessed) : Evict → Prop
  | .outside => w.Local i ∧ w.stream = none
  | .opened fd => fd.ino = i ∧ w.Local i ∧ w.stream = none
  | .copied fd d => fd.ino = i ∧ d.ino = i ∧ w.Local i ∧ w.stream = none
  | .reading fd d n got => fd.ino = i ∧ d.ino = i ∧ w.Local i ∧ n ≤ w.written.length ∧
      w.HandsOver i n got ∧
      ((w.world.inode i).objectId.isSome = true ∨ (n = w.written.length ∧ w.InStep got))
  | .stored fd _ => fd.ino = i ∧ w.Local i ∧ w.Stored i key
  | .closed fd => fd.ino = i ∧ w.Local i ∧ w.stream = none ∧ w.Stored i key
  | .named fd => fd.ino = i ∧ w.Local i ∧ w.world.object i = some w.written
  | .stubbed fd => fd.ino = i ∧ w.Remote i ∧ (w.world.inode i).data = w.written
  | .sized fd n => fd.ino = i ∧ w.Remote i ∧ n = w.written.length
  | .emptied fd n => fd.ino = i ∧ w.Remote i ∧ n = w.written.length
  | .evicted _ => w.Remote i

/-- **The invariant.** -/
structure EvictInv (i : ℕ) (path buf : Bytes) (w : Accessed) (p : Evict) : Prop where
  names : w.world.names path = some i
  reads : ∀ q ∈ w.reads, q.1 = q.2
  holes : Holes (w.world.inode i).data w.written w.dropped
  here : EvictAt i (cString (s3GetObjectIdXattrValue path buf)) w p

section

variable {i : ℕ} {path buf : Bytes} {w : Accessed} {v : World} {p : Evict} {ch : Choice}
  {c : Call} {r : Rep c}

theorem Accessed.Local.same (h : w.Local i) (hs : SameContent w.world v) :
    ({ w with world := v }).Local i :=
  ⟨(hs.stub i).trans h.1, (hs.data i).trans h.2⟩

theorem Accessed.Remote.same (h : w.Remote i) (hs : SameContent w.world v) :
    ({ w with world := v }).Remote i := by
  refine ⟨?_, (hs.object i).trans h.2⟩
  show (v.inode i).stub.isSome = true
  rw [hs.stub]
  exact h.1

theorem Accessed.Stored.same {key : Bytes} (h : w.Stored i key) (hs : SameContent w.world v) :
    ({ w with world := v }).Stored i key := by
  rw [Accessed.Stored, hs.objectId, hs.store]
  exact h

theorem Accessed.handsOver_none {n : ℕ} (h : w.stream = none) : w.HandsOver i n [] := by
  rw [Accessed.HandsOver, h]

theorem Accessed.inStep_none {got : Bytes} (h : w.stream = none) : w.InStep got := by
  rw [Accessed.InStep, h]
  trivial

/-- What has been handed over is the beginning of what has been written. -/
theorem Accessed.HandsOver.prefix_of_inStep {n : ℕ} {got : Bytes} (h : w.HandsOver i n got)
    (hstep : w.InStep got) : got <+: w.written := by
  unfold Accessed.HandsOver at h
  unfold Accessed.InStep at hstep
  cases hs : w.stream with
  | none =>
    rw [hs] at h
    rw [h]
    exact List.nil_prefix
  | some q =>
    rw [hs] at hstep
    exact hstep.handed

/-- The stream fetches bytes of a file that is local. -/
theorem Accessed.HandsOver.fetch {n : ℕ} {got : Bytes} (h : w.HandsOver i n got)
    (hlocal : w.Local i)
    (hn : n ≤ w.written.length) (k : ℕ) :
    (accessFile i w (.fetch k)).HandsOver i n got ∧
      (w.InStep got → (accessFile i w (.fetch k)).InStep got) := by
  unfold Accessed.HandsOver at h
  unfold Accessed.HandsOver Accessed.InStep accessFile
  cases hs : w.stream with
  | none =>
    rw [hs] at h
    exact ⟨h, id⟩
  | some q =>
    rw [hs] at h
    obtain ⟨rfl, hstands⟩ := h
    dsimp only [Option.map_some]
    rw [hlocal.2]
    exact ⟨⟨rfl, hstands.fetch hn k⟩, fun hstep => hstep.fetch hstands k⟩

/-- A call that leaves the content alone. -/
theorem EvictAt.same {key : Bytes} (h : EvictAt i key w p) (hs : SameContent w.world v) :
    EvictAt i key { w with world := v } p := by
  cases p with
  | outside => exact ⟨h.1.same hs, h.2⟩
  | opened fd => exact ⟨h.1, h.2.1.same hs, h.2.2⟩
  | copied fd d => exact ⟨h.1, h.2.1, h.2.2.1.same hs, h.2.2.2⟩
  | reading fd d n got =>
    refine ⟨h.1, h.2.1, h.2.2.1.same hs, h.2.2.2.1, h.2.2.2.2.1, ?_⟩
    rw [hs.objectId]
    exact h.2.2.2.2.2
  | stored fd d => exact ⟨h.1, h.2.1.same hs, h.2.2.same hs⟩
  | closed fd => exact ⟨h.1, h.2.1.same hs, h.2.2.1, h.2.2.2.same hs⟩
  | named fd => exact ⟨h.1, h.2.1.same hs, (hs.object i).trans h.2.2⟩
  | stubbed fd => exact ⟨h.1, h.2.1.same hs, (hs.data i).trans h.2.2⟩
  | sized fd n => exact ⟨h.1, h.2.1.same hs, h.2.2⟩
  | emptied fd n => exact ⟨h.1, h.2.1.same hs, h.2.2⟩
  | evicted fd => exact h.same hs

theorem EvictInv.same (h : EvictInv i path buf w p) (hs : SameContent w.world v) :
    EvictInv i path buf { w with world := v } p := by
  refine ⟨?_, h.reads, ?_, h.here.same hs⟩
  · rw [hs.names]
    exact h.names
  · show Holes (v.inode i).data w.written w.dropped
    rw [hs.data]
    exact h.holes

/-- The calls that change the stream. -/
def onStream : Call → Bool
  | .fdopen _ | .fclose _ | .fread .. => true
  | _ => false

/-- A call other than `fread`. -/
theorem evictExec_eq_some {w' : Accessed} (hc : ∀ d pos k, c ≠ .fread d pos k)
    (he : evictExec i w ch c = some (r, w')) :
    ∃ v, execOk w.world ch c = some (r, v) ∧
      w' = { w with world := v, dropped := w.droppedBy i c, stream := w.streamBy c } := by
  have hmap : (execOk w.world ch c).map (fun a => (a.1,
      ({ w with
        world := a.2, dropped := w.droppedBy i c, stream := w.streamBy c } : Accessed))) =
      some (r, w') := by
    cases c with
    | fread d pos k => exact absurd rfl (hc d pos k)
    | _ => exact he
  obtain ⟨⟨r', v⟩, hv, heq⟩ := Option.map_eq_some_iff.mp hmap
  obtain ⟨rfl, rfl⟩ := Prod.mk.inj heq
  exact ⟨v, hv, rfl⟩

/-- `fread` takes what the stream holds. -/
theorem evictExec_fread {w' : Accessed} {d : Fd} {pos k : ℕ} {bs : Bytes}
    (he : evictExec i w ch (.fread d pos k) = some (bs, w')) :
    ∃ r r', w.stream = some (d, r) ∧ r.take k = some (bs, r') ∧
      w' = { w with stream := some (d, r') } := by
  unfold evictExec at he
  cases hs : w.stream with
  | none =>
    rw [hs] at he
    exact absurd he.symm (Option.some_ne_none _)
  | some q =>
    rw [hs] at he
    obtain ⟨⟨-, rfl⟩, hx⟩ := Option.ite_none_right_eq_some.mp he
    obtain ⟨⟨bs', r'⟩, ht, heq⟩ := Option.map_eq_some_iff.mp hx
    obtain ⟨rfl, rfl⟩ := Prod.mk.inj heq
    exact ⟨q.2, r', rfl, ht, rfl⟩

/-- **What `exec` says about `fread` is what it comes to**, if nobody else writes to the file: the
stream follows its bytes, and has met their end at their end only. -/
theorem evictExec_fread_exec {w' : Accessed} {d : Fd} {k : ℕ} {got bs : Bytes}
    {s : Reader UInt8}
    (hstream : w.stream = some (d, s)) (hs : s.Stands got (w.world.inode d.ino).data.length)
    (hf : s.Follows got (w.world.inode d.ino).data)
    (he : evictExec i w ch (.fread d got.length k) = some (bs, w')) :
    exec w.world .ok (.fread d got.length k) = some (bs, w'.world) := by
  obtain ⟨s', s'', hs', ht, rfl⟩ := evictExec_fread he
  obtain ⟨-, rfl⟩ := Prod.mk.inj (Option.some.inj (hstream.symm.trans hs'))
  rw [hf.take_eq hs ht]
  rfl
/-- A quiet call that does not touch the stream. -/
theorem evictExec_quiet {w' : Accessed} (hc : isQuiet c = true) (hon : onStream c = false)
    (he : evictExec i w ch c = some (r, w')) :
    succeeds c r = true ∧ ∃ v, execOk w.world ch c = some (r, v) ∧ SameContent w.world v ∧
      w' = { w with world := v } := by
  obtain ⟨v, hv, rfl⟩ := evictExec_eq_some (fun d pos k hd => by subst hd; cases hon) he
  obtain ⟨-, hexec, hs⟩ := execOk_eq_some hv
  refine ⟨hs, v, hv, exec_quiet hc hexec, ?_⟩
  have hdropped : w.droppedBy i c = w.dropped := by
    cases c with
    | ftruncate fd len => exact absurd hc Bool.false_ne_true
    | _ => rfl
  have hstream : w.streamBy c = w.stream := by
    cases c with
    | fdopen d => exact absurd hon.symm Bool.false_ne_true
    | fclose d => exact absurd hon.symm Bool.false_ne_true
    | _ => rfl
  rw [hdropped, hstream]

namespace EvictInv

variable {w' : Accessed} {fd d : Fd} {n : ℕ} {got : Bytes}

/-- Opening the file. -/
theorem opening {r : Except Errno Fd} (h : EvictInv i path buf w .outside)
    (he : evictExec i w ch (.openFile path) = some (r, w')) :
    succeeds (.openFile path) r = true ∧
      EvictInv i path buf w' (Evict.outside.next (.openFile path) r) := by
  obtain ⟨hs, v, hv, hsame, rfl⟩ := evictExec_quiet rfl rfl he
  refine ⟨hs, ?_⟩
  obtain ⟨j, hj, rfl, -⟩ | ⟨e, rfl, -⟩ := exec_openFile (execOk_eq_some hv).2.1
  · obtain rfl : i = j := Option.some.inj (h.names.symm.trans hj)
    have h' := h.same hsame
    exact ⟨h'.names, h'.reads, h'.holes, rfl, h'.here⟩
  · exact absurd hs Bool.false_ne_true

/-- The calls before `s3_upload` sees the size. -/
theorem looking (h : EvictInv i path buf w (.opened fd))
    (hc : Evict.expects path buf (.opened fd) c)
    (he : evictExec i w ch c = some (r, w')) :
    (Evict.opened fd).answered c r ∧ EvictInv i path buf w' ((Evict.opened fd).next c r) := by
  obtain ⟨hfd, hlocal⟩ := h.here
  rcases hc with rfl | rfl | rfl | rfl | rfl
  · obtain ⟨hs, v, -, hsame, rfl⟩ := evictExec_quiet rfl rfl he
    exact ⟨hs, h.same hsame⟩
  · obtain ⟨hs, v, hv, hsame, rfl⟩ := evictExec_quiet rfl rfl he
    refine ⟨?_, h.same hsame⟩
    obtain ⟨-, ⟨u, rfl, hstub⟩ | ⟨rfl, -⟩⟩ := execOk_check hv
    · rw [hfd, hlocal.1.1] at hstub
      exact absurd hstub Bool.false_ne_true
    · rfl
  · obtain ⟨hs, v, hv, hsame, rfl⟩ := evictExec_quiet rfl rfl he
    refine ⟨hs, ?_⟩
    obtain ⟨rfl, -⟩ | ⟨e, rfl, -⟩ := exec_dup (execOk_eq_some hv).2.1
    · have h' := h.same hsame
      exact ⟨h'.names, h'.reads, h'.holes, hfd, hfd, h'.here.2⟩
    · exact absurd hs Bool.false_ne_true
  · obtain ⟨hs, v, -, hsame, rfl⟩ := evictExec_quiet rfl rfl he
    exact ⟨hs, h.same hsame⟩
  · obtain ⟨hs, v, -, hsame, rfl⟩ := evictExec_quiet rfl rfl he
    have h' := h.same hsame
    exact ⟨hs, h'.names, h'.reads, h'.holes, h'.here.2⟩

/-- `s3_upload` sees the size. -/
theorem sizing {r : Except Errno ℕ} (h : EvictInv i path buf w (.copied fd d))
    (he : evictExec i w ch (.fstat d) = some (r, w')) :
    succeeds (.fstat d) r = true ∧
      EvictInv i path buf w' ((Evict.copied fd d).next (.fstat d) r) := by
  obtain ⟨hfd, hd, hlocal, hno⟩ := h.here
  obtain ⟨hs, v, hv, hsame, rfl⟩ := evictExec_quiet rfl rfl he
  refine ⟨hs, ?_⟩
  obtain ⟨-, rfl | ⟨e, rfl, -⟩⟩ := exec_fstat (execOk_eq_some hv).2.1
  · have h' := h.same hsame
    rw [hd, hlocal.2]
    exact ⟨h'.names, h'.reads, h'.holes, hfd, hd, h'.here.2.2.1, Nat.le_refl _,
      Accessed.handsOver_none hno, .inr ⟨rfl, Accessed.inStep_none hno⟩⟩
  · exact absurd hs Bool.false_ne_true

/-- The stream is opened. -/
theorem opening_stream {r : Except Errno Unit} (h : EvictInv i path buf w (.reading fd d n []))
    (he : evictExec i w ch (.fdopen d) = some (r, w')) :
    succeeds (.fdopen d) r = true ∧ EvictInv i path buf w' (.reading fd d n []) := by
  obtain ⟨v, hv, rfl⟩ := evictExec_eq_some (by simp) he
  obtain ⟨-, hexec, hs⟩ := execOk_eq_some hv
  obtain ⟨rfl, -⟩ := exec_fdopen hexec
  obtain ⟨hfd, hd, hlocal, hn, -, hso⟩ := h.here
  refine ⟨hs, h.names, h.reads, h.holes, hfd, hd, hlocal, hn, ⟨hd, .initial n⟩, ?_⟩
  exact hso.imp_right fun hstep => ⟨hstep.1, .initial _⟩

/-- The stream hands over what it has fetched. -/
theorem reading {k : ℕ} {bs : Bytes} (h : EvictInv i path buf w (.reading fd d n got))
    (hlt : got.length < n) (hk : 0 < k)
    (he : evictExec i w ch (.fread d got.length k) = some (bs, w')) :
    bs ≠ [] ∧ EvictInv i path buf w' (.reading fd d n (got ++ bs)) := by
  obtain ⟨r, r', hstream, htake, rfl⟩ := evictExec_fread he
  obtain ⟨hfd, hd, hlocal, hn, hover, hso⟩ := h.here
  rw [Accessed.HandsOver, hstream] at hover
  rw [Accessed.InStep, hstream] at hso
  refine ⟨hover.2.take_ne_nil hlt hk htake, h.names, h.reads, h.holes, hfd, hd, hlocal, hn,
    ⟨hover.1, hover.2.take htake⟩, ?_⟩
  exact hso.imp_right fun hstep => ⟨hstep.1, hstep.2.take htake⟩

/-- The request ends: the object is stored. -/
theorem storing {st : S3Status} (h : EvictInv i path buf w (.reading fd d n got))
    (hle : n ≤ got.length)
    (he : evictExec i w ch (.putEnd (cString (s3GetObjectIdXattrValue path buf)) got) =
      some (st, w')) :
    succeeds (.putEnd (cString (s3GetObjectIdXattrValue path buf)) got) st = true ∧
      EvictInv i path buf w' (.stored fd d) := by
  obtain ⟨hfd, hd, hlocal, hn, hover, hso⟩ := h.here
  obtain ⟨v, hv, rfl⟩ := evictExec_eq_some (by simp) he
  obtain ⟨hch, hexec, hs⟩ := execOk_eq_some hv
  obtain ⟨-, -, rfl⟩ | ⟨rfl, -, -⟩ := exec_putEnd hexec
  · refine ⟨hs, h.names, h.reads, h.holes, hfd, hlocal, hso.imp_right ?_⟩
    rintro ⟨hlen, hstep⟩
    obtain rfl : got = w.written :=
      (hover.prefix_of_inStep hstep).eq_of_length_le (hlen ▸ hle)
    exact World.store_put_self _ _ _
  · exact absurd hch Bool.false_ne_true

/-- The calls of the request. -/
theorem requesting (h : EvictInv i path buf w (.reading fd d n got))
    (hc : Evict.expects path buf (.reading fd d n got) c)
    (he : evictExec i w ch c = some (r, w')) :
    (Evict.reading fd d n got).answered c r ∧
      EvictInv i path buf w' ((Evict.reading fd d n got).next c r) := by
  rcases hc with ⟨rfl, rfl⟩ | rfl | ⟨k, hlt, hk, rfl⟩ | ⟨hle, rfl⟩
  · exact h.opening_stream he
  · obtain ⟨hs, v, -, hsame, rfl⟩ := evictExec_quiet rfl rfl he
    exact ⟨hs, h.same hsame⟩
  · exact h.reading hlt hk he
  · exact h.storing hle he

/-- The stream is closed. -/
theorem closing {r : Except Errno Unit} (h : EvictInv i path buf w (.stored fd d))
    (he : evictExec i w ch (.fclose d) = some (r, w')) :
    succeeds (.fclose d) r = true ∧ EvictInv i path buf w' (.closed fd) := by
  obtain ⟨v, hv, rfl⟩ := evictExec_eq_some (by simp) he
  obtain ⟨-, hexec, hs⟩ := execOk_eq_some hv
  have h' := h.same (exec_quiet rfl hexec)
  exact ⟨hs, h'.names, h'.reads, h'.holes, h'.here.1, h'.here.2.1, rfl, h'.here.2.2⟩

/-- `object_id` is set, unless it was there before. -/
theorem naming (h : EvictInv i path buf w (.closed fd))
    (hc : c = .fsetxattr fd .objectId
      ((s3GetObjectIdXattrValue path buf).take s3GetObjectIdXattrSize) .create)
    (he : evictExec i w ch c = some (r, w')) :
    succeeds c r = true ∧ EvictInv i path buf w' ((Evict.closed fd).next c r) := by
  obtain rfl := hc
  obtain ⟨hfd, hlocal, hno, hstore⟩ := h.here
  obtain ⟨v, hv, rfl⟩ := evictExec_eq_some (by simp) he
  refine ⟨(execOk_eq_some hv).2.2, ?_⟩
  obtain ⟨rfl, hnone, rfl⟩ | ⟨e, rfl, rfl, -⟩ := execOk_create hv
  · subst hfd
    have hkept : w.world.store (cString (s3GetObjectIdXattrValue path buf)) = some w.written := by
      refine hstore.resolve_left fun hset => ?_
      rw [show (w.world.inode fd.ino).objectId = none from hnone] at hset
      exact absurd hset Bool.false_ne_true
    refine ⟨h.names, h.reads, ?_, rfl, ⟨?_, ?_⟩, ?_⟩
    · show Holes ((World.inode _ fd.ino).data) _ _
      rw [World.inode_update_self]
      exact h.holes
    · show (World.inode _ fd.ino).stub = none
      rw [World.inode_update_self]
      exact hlocal.1
    · show (World.inode _ fd.ino).data = w.written
      rw [World.inode_update_self]
      exact hlocal.2
    · show World.object _ fd.ino = some w.written
      rw [World.object, World.inode_update_self]
      show w.world.store (cString _) = _
      rw [cString_take_s3GetObjectIdXattrValue]
      exact hkept
  · exact ⟨h.names, h.reads, h.holes, hfd, hlocal, hno⟩

/-- The stub attribute is set: it cannot be there yet. -/
theorem stubbing {r : Except Errno Unit} (h : EvictInv i path buf w (.named fd))
    (he : evictExec i w ch (.fsetxattr fd .stub [] .create) = some (r, w')) :
    r = .ok () ∧ EvictInv i path buf w' (.stubbed fd) := by
  obtain ⟨hfd, hlocal, hobject⟩ := h.here
  obtain ⟨v, hv, rfl⟩ := evictExec_eq_some (by simp) he
  subst hfd
  obtain ⟨rfl, -, rfl⟩ | ⟨e, -, -, hset⟩ := execOk_create hv
  · refine ⟨rfl, h.names, h.reads, ?_, rfl, ⟨?_, ?_⟩, ?_⟩
    · show Holes ((World.inode _ fd.ino).data) _ _
      rw [World.inode_update_self]
      exact h.holes
    · show (World.inode _ fd.ino).stub.isSome = true
      rw [World.inode_update_self]
      rfl
    · show World.object _ fd.ino = some w.written
      rw [World.object, World.inode_update_self]
      exact hobject
    · show (World.inode _ fd.ino).data = w.written
      rw [World.inode_update_self]
      exact hlocal.2
  · rw [show (w.world.inode fd.ino).xattr .stub = none from hlocal.1] at hset
    exact absurd hset Bool.false_ne_true

/-- `upload_file` sees the size. -/
theorem resizing {r : Except Errno ℕ} (h : EvictInv i path buf w (.stubbed fd))
    (he : evictExec i w ch (.fstat fd) = some (r, w')) :
    succeeds (.fstat fd) r = true ∧
      EvictInv i path buf w' ((Evict.stubbed fd).next (.fstat fd) r) := by
  obtain ⟨hfd, hremote, hdata⟩ := h.here
  obtain ⟨hs, v, hv, hsame, rfl⟩ := evictExec_quiet rfl rfl he
  refine ⟨hs, ?_⟩
  obtain ⟨-, rfl | ⟨e, rfl, -⟩⟩ := exec_fstat (execOk_eq_some hv).2.1
  · have h' := h.same hsame
    exact ⟨h'.names, h'.reads, h'.holes, hfd, h'.here.2.1, by rw [hfd, hdata]⟩
  · exact absurd hs Bool.false_ne_true

/-- A truncation of the file, which is remote, to a length it has had. -/
theorem truncating {r : Except Errno Unit} {len : ℕ} {p' : Evict} (h : EvictInv i path buf w p)
    (hfd : fd.ino = i)
    (hremote : w.Remote i) (hlen : len ≤ w.written.length)
    (hp : ∀ w' : Accessed, w'.written = w.written → w'.Remote i →
      EvictAt i (cString (s3GetObjectIdXattrValue path buf)) w' p')
    (he : evictExec i w ch (.ftruncate fd len) = some (r, w')) :
    succeeds (.ftruncate fd len) r = true ∧ EvictInv i path buf w' p' := by
  obtain ⟨v, hv, rfl⟩ := evictExec_eq_some (by simp) he
  obtain ⟨-, hexec, hs⟩ := execOk_eq_some hv
  refine ⟨hs, ?_⟩
  subst hfd
  obtain ⟨rfl, rfl⟩ | ⟨e, rfl, -, -⟩ := exec_ftruncate hexec
  · refine ⟨h.names, h.reads, ?_, hp _ rfl ⟨?_, ?_⟩⟩
    · show Holes ((World.inode _ fd.ino).data) _ fun j => w.dropped j ||
        (decide (fd.ino = fd.ino) && _)
      rw [World.ftruncate, World.inode_update_self, decide_eq_true rfl]
      exact h.holes.resize hlen
    · show (World.inode _ fd.ino).stub.isSome = true
      rw [World.ftruncate, World.inode_update_self]
      exact hremote.1
    · show World.object _ fd.ino = some w.written
      rw [World.object, World.ftruncate, World.inode_update_self]
      exact hremote.2
  · exact absurd hs Bool.false_ne_true

/-- **One call of `upload_file`.** -/
theorem answer (h : EvictInv i path buf w p) (hc : p.expects path buf c)
    (he : evictExec i w ch c = some (r, w')) :
    p.answered c r ∧ EvictInv i path buf w' (p.next c r) := by
  cases p with
  | outside =>
    obtain rfl := hc
    exact h.opening he
  | opened fd => exact h.looking hc he
  | copied fd d =>
    obtain rfl := hc
    exact h.sizing he
  | reading fd d n got => exact h.requesting hc he
  | stored fd d =>
    obtain rfl := hc
    exact h.closing he
  | closed fd => exact h.naming hc he
  | named fd =>
    obtain rfl := hc
    exact h.stubbing he
  | stubbed fd =>
    obtain rfl := hc
    exact h.resizing he
  | sized fd n =>
    obtain rfl := hc
    obtain ⟨hfd, hremote, hn⟩ := h.here
    exact h.truncating hfd hremote (Nat.zero_le _)
      (fun w' hw hr => ⟨hfd, hr, by rw [hw]; exact hn⟩) he
  | emptied fd n =>
    obtain rfl := hc
    obtain ⟨hfd, hremote, rfl⟩ := h.here
    exact h.truncating hfd hremote (Nat.le_refl _) (fun w' _ hr => hr) he
  | evicted fd =>
    rcases hc with rfl | rfl
    · obtain ⟨hs, v, -, hsame, rfl⟩ := evictExec_quiet rfl rfl he
      exact ⟨hs, h.same hsame⟩
    · obtain ⟨hs, v, -, hsame, rfl⟩ := evictExec_quiet rfl rfl he
      exact ⟨hs, h.same hsame⟩

/-- A read that covers no byte that has been taken away. -/
theorem read {pos n : ℕ} (h : EvictInv i path buf w p)
    (hread : ∀ k < n, pos + k < w.written.length → pos + k < (w.world.inode i).data.length ∧
      (w.dropped (pos + k) = true → w.written[pos + k]? = some 0)) :
    EvictInv i path buf (accessFile i w (.read pos n)) p := by
  refine ⟨h.names, ?_, h.holes, ?_⟩
  · intro q hq
    rcases List.mem_append.mp hq with hq | hq
    · exact h.reads q hq
    · obtain rfl := List.mem_singleton.mp hq
      exact h.holes.readAt_iff.mpr hread
  · cases p with
    | _ => exact h.here

end EvictInv

variable {pos : ℕ} {bs : Bytes}

theorem inode_accessFile_write :
    (accessFile i w (.write pos bs)).world.inode i =
      { w.world.inode i with data := writeAt (w.world.inode i).data pos bs } := by
  rw [accessFile, World.write, World.inode_update_self]

theorem Accessed.Local.write (h : w.Local i) : (accessFile i w (.write pos bs)).Local i := by
  refine ⟨?_, ?_⟩
  · rw [inode_accessFile_write]
    exact h.1
  · rw [inode_accessFile_write]
    exact congrArg (writeAt · pos bs) h.2

theorem Accessed.Stored.write {key : Bytes} (h : w.Stored i key)
    (hharmless : (w.world.inode i).objectId.isSome = true ∨ writeAt w.written pos bs = w.written) :
    (accessFile i w (.write pos bs)).Stored i key := by
  rw [Accessed.Stored, inode_accessFile_write]
  rcases hharmless with hgives | hsame
  · exact .inl hgives
  · exact h.imp_right fun hstore => hstore.trans (congrArg some hsame.symm)

/-- A write behind what has been fetched. -/
theorem Accessed.InStep.write {n : ℕ} {got : Bytes} (h : w.InStep got) (hover : w.HandsOver i n got)
    (htake : (writeAt w.written pos bs).take w.fetched = w.written.take w.fetched) :
    (accessFile i w (.write pos bs)).InStep got := by
  unfold Accessed.HandsOver at hover
  unfold Accessed.InStep at h
  unfold Accessed.fetched at htake
  show match w.stream with
    | some (_, r) => r.Follows got (writeAt w.written pos bs)
    | none => True
  cases hs : w.stream with
  | none => trivial
  | some q =>
    rw [hs] at hover h htake
    exact h.change hover.2 htake

theorem Accessed.Remote.write (h : w.Remote i) (hsame : writeAt w.written pos bs = w.written) :
    (accessFile i w (.write pos bs)).Remote i := by
  refine ⟨?_, ?_⟩
  · rw [inode_accessFile_write]
    exact h.1
  · show World.object _ i = some (writeAt w.written pos bs)
    rw [World.object, inode_accessFile_write, hsame]
    exact h.2

namespace EvictInv

/-- Either the bytes of the file are those that have been written, or a write has to change
nothing. -/
theorem data_or_same (h : EvictInv i path buf w p)
    (hharmless : w.GivesUp i p ∨ p.Spares w.fetched w.written (writeAt w.written pos bs)) :
    (w.world.inode i).data = w.written ∨ writeAt w.written pos bs = w.written := by
  have here := h.here
  cases p with
  | outside => exact .inl here.1.2
  | opened fd => exact .inl here.2.1.2
  | copied fd d => exact .inl here.2.2.1.2
  | reading fd d n got => exact .inl here.2.2.1.2
  | stored fd d => exact .inl here.2.1.2
  | closed fd => exact .inl here.2.1.2
  | _ => exact .inr (hharmless.resolve_left id)

/-- A write that does not come too late. -/
theorem write (h : EvictInv i path buf w p)
    (hharmless : w.GivesUp i p ∨ p.Spares w.fetched w.written (writeAt w.written pos bs)) :
    EvictInv i path buf (accessFile i w (.write pos bs)) p := by
  refine ⟨h.names, h.reads, ?_, ?_⟩
  · rw [inode_accessFile_write]
    show Holes (writeAt (w.world.inode i).data pos bs) (writeAt w.written pos bs) _
    rcases h.data_or_same hharmless with hdata | hsame
    · have hholes := h.holes
      rw [hdata] at hholes ⊢
      exact hholes.writeAt_self
    · rw [hsame]
      exact h.holes.writeAt hsame
  · have here := h.here
    cases p with
    | outside => exact ⟨here.1.write, here.2⟩
    | opened fd => exact ⟨here.1, here.2.1.write, here.2.2⟩
    | copied fd d => exact ⟨here.1, here.2.1, here.2.2.1.write, here.2.2.2⟩
    | reading fd d n got =>
      obtain ⟨hfd, hd, hlocal, hn, hover, hso⟩ := here
      refine ⟨hfd, hd, hlocal.write, Nat.le_trans hn (length_le_length_writeAt _ _ _), hover, ?_⟩
      rw [inode_accessFile_write]
      rcases hharmless with hgives | ⟨hlen, htake⟩
      · exact .inl hgives
      · exact hso.imp_right fun hstep => ⟨hstep.1.trans hlen.symm, hstep.2.write hover htake⟩
    | stored fd d => exact ⟨here.1, here.2.1.write, here.2.2.write hharmless⟩
    | closed fd => exact ⟨here.1, here.2.1.write, here.2.2.1, here.2.2.2.write hharmless⟩
    | named fd =>
      obtain ⟨hfd, hlocal, hobject⟩ := here
      have hsame : writeAt w.written pos bs = w.written := hharmless.resolve_left id
      refine ⟨hfd, hlocal.write, ?_⟩
      rw [World.object, inode_accessFile_write]
      exact hobject.trans (congrArg some hsame.symm)
    | stubbed fd =>
      obtain ⟨hfd, hremote, hdata⟩ := here
      refine ⟨hfd, hremote.write (hharmless.resolve_left id), ?_⟩
      rw [inode_accessFile_write]
      exact congrArg (writeAt · pos bs) hdata
    | sized fd n =>
      obtain ⟨hfd, hremote, hn⟩ := here
      have hsame : writeAt w.written pos bs = w.written := hharmless.resolve_left id
      exact ⟨hfd, hremote.write hsame, hn.trans (congrArg List.length hsame.symm)⟩
    | emptied fd n =>
      obtain ⟨hfd, hremote, hn⟩ := here
      have hsame : writeAt w.written pos bs = w.written := hharmless.resolve_left id
      exact ⟨hfd, hremote.write hsame, hn.trans (congrArg List.length hsame.symm)⟩
    | evicted fd => exact here.write (hharmless.resolve_left id)

/-- The stream fetches bytes. -/
theorem fetch {k : ℕ} (h : EvictInv i path buf w p) :
    EvictInv i path buf (accessFile i w (.fetch k)) p := by
  refine ⟨h.names, h.reads, h.holes, ?_⟩
  have here := h.here
  have hnone : w.stream = none → (accessFile i w (.fetch k)).stream = none := fun hs => by
    show w.stream.map _ = none
    rw [hs]
    rfl
  cases p with
  | outside => exact ⟨here.1, hnone here.2⟩
  | opened fd => exact ⟨here.1, here.2.1, hnone here.2.2⟩
  | copied fd d => exact ⟨here.1, here.2.1, here.2.2.1, hnone here.2.2.2⟩
  | reading fd d n got =>
    obtain ⟨hfd, hd, hlocal, hn, hover, hso⟩ := here
    obtain ⟨hover', hstep⟩ := hover.fetch hlocal hn k
    exact ⟨hfd, hd, hlocal, hn, hover', hso.imp_right fun hs => ⟨hs.1, hstep hs.2⟩⟩
  | closed fd => exact ⟨here.1, here.2.1, hnone here.2.2.1, here.2.2.2⟩
  | _ => exact here

/-- Where the eviction has ended, nothing is lost. -/
theorem kept {a : Int × Bytes} (h : EvictInv i path buf w p) (ha : EvictOutcomeAt (some a) p) :
    w.world.recoverable i = some w.written ∧
      ((a.1 = -1 ∧ (w.world.inode i).stub = none) ∨
        (a.1 = 0 ∧ (w.world.inode i).stub.isSome = true)) := by
  have here := h.here
  rcases ha with ⟨hret, rfl⟩ | ⟨hret, fd, rfl⟩
  · obtain ⟨⟨hstub, hdata⟩, -⟩ := here
    refine ⟨?_, .inl ⟨hret, hstub⟩⟩
    rw [World.recoverable_of_stub_none hstub, hdata]
  · obtain ⟨hstub, hobject⟩ := here
    obtain ⟨v, hv⟩ := Option.isSome_iff_exists.mp hstub
    exact ⟨(World.recoverable_of_stub_some hv).trans hobject, .inr ⟨hret, hstub⟩⟩

end EvictInv

end

/-! ## Runs -/

/-- **The eviction is invisible** in every run whose accesses are harmless. -/
theorem reach_invisible {retries : Int} {path buf : Bytes} {i : ℕ} {w : World} {s : EvictState}
    (hname : w.names path = some i) (hstub : (w.inode i).stub = none)
    (h : Reach (evictSystem retries path buf i).step (Harmless i) (evictInitial w i) s) :
    Invisible i s := by
  have hinv : EvictInv i path buf s.world (s.mons ()) ∧
      ThreadSystem.Checked (evictCalls path buf) EvictOutcomeAt s := by
    refine ThreadSystem.reach_inv (I := fun w mons => EvictInv i path buf w (mons ())) h ?_
      (fun _ => rfl) ?_ ?_ ?_
    · exact ⟨hname, fun q hq => absurd hq List.not_mem_nil, Holes.refl _, ⟨hstub, rfl⟩, rfl⟩
    · intro s t ch c f r w' hI _ _ hpre he
      obtain ⟨hanswered, hI'⟩ := hI.answer hpre he
      refine ⟨⟨hanswered, rfl⟩, ?_⟩
      rw [Function.update_self]
      exact hI'
    · intro s t l a prog p hI _ _ ha hn
      cases a with
      | some a => exact absurd hn.symm (Option.some_ne_none _)
      | none =>
        obtain ⟨rfl, rfl⟩ := Prod.mk.inj (Option.some.inj hn)
        refine ⟨Prog.wp_bind.mpr (Prog.wp_mono ((evictUpload retries path buf).sound ha) ?_), ?_⟩
        · exact fun _ _ hq => hq
        · rw [Function.update_self]
          exact hI
    · intro s e w' hI hharmless hw
      obtain rfl := Option.some.inj hw
      cases e with
      | read pos n => exact hI.read hharmless
      | write pos bs => exact hI.write hharmless
      | fetch n => exact hI.fetch
  refine ⟨hinv.1.reads, ?_⟩
  intro a hret
  have hat := hinv.2 ()
  rw [hret] at hat
  exact hinv.1.kept hat

/-- A local file of two bytes. -/
def onlineFile : World where
  inode _ := { data := [0, 7], stub := none, objectId := none }
  names path := if path = [102] then some 0 else none
  store _ := none

/-- The system with that file. -/
abbrev evictOnline : EvictState → ThreadSystem.Label Unit Choice Unit Access → Option EvictState :=
  (evictSystem 3 [102] (List.replicate s3XattrSize 0) 0).step

/-- A test that implies `Harmless`. -/
def harmless (i : ℕ) (s : EvictState) : ThreadSystem.Label Unit Choice Unit Access → Bool
  | .env (.read pos n) => (List.range n).all fun k =>
      decide (pos + k < (s.world.world.inode i).data.length) &&
        (!s.world.dropped (pos + k) || decide (s.world.written[pos + k]? = some 0))
  | .env (.write pos bs) =>
      match s.mons () with
      | .outside | .opened _ | .copied _ _ => true
      | .reading .. =>
          decide ((writeAt s.world.written pos bs).length = s.world.written.length) &&
            decide ((writeAt s.world.written pos bs).take s.world.fetched =
              s.world.written.take s.world.fetched)
      | _ => false
  | _ => true

theorem harmless_sound {i : ℕ} {s : EvictState} {l : ThreadSystem.Label Unit Choice Unit Access}
    (h : harmless i s l = true) : Harmless i s l := by
  cases l with
  | env e =>
    cases e with
    | read pos n =>
      intro k hk _
      have htest := List.all_eq_true.mp h k (List.mem_range.mpr hk)
      simp only [Bool.and_eq_true, decide_eq_true_eq, Bool.or_eq_true, Bool.not_eq_true'] at htest
      refine ⟨htest.1, fun hdrop => htest.2.resolve_left ?_⟩
      rw [hdrop]
      exact Bool.noConfusion
    | fetch n => trivial
    | write pos bs =>
      refine .inr ?_
      cases hp : s.mons () with
      | outside => trivial
      | opened fd => trivial
      | copied fd d => trivial
      | reading fd d n got =>
        simp only [harmless, hp, Bool.and_eq_true, decide_eq_true_eq] at h
        exact h
      | _ => simp [harmless, hp] at h
  | _ => trivial

set_option maxRecDepth 4000 in
/-- The store asks for one byte at a time.  When the first one has been handed over, a client writes
to the second one, which the stream has not fetched; it reads a zero after the truncation. -/
theorem invisible_around_upload :
    ∃ s : EvictState, Reach evictOnline (Harmless 0) (evictInitial onlineFile 0) s ∧
      (s.world.reads = [([9], [9]), ([0], [0])] ∧ (s.world.world.inode 0).stub.isSome = true) ∧
        Invisible 0 s := by
  have hrun : ((run (guardedBy (harmless 0) evictOnline) (evictInitial onlineFile 0)
      [.start () (), .answer () .ok, .answer () .ok, .answer () .ok, .answer () .ok, .answer () .ok,
        .answer () .ok, .answer () (.size 1), .env (.fetch 1), .answer () .ok, .env (.write 1 [9]),
        .env (.read 1 1), .answer () (.size 1), .env (.fetch 4096), .answer () .ok, .answer () .ok,
        .answer () .ok, .answer () .ok, .answer () .ok, .answer () .ok, .answer () .ok,
        .answer () .ok, .env (.read 0 1), .answer () .ok, .answer () .ok]).any fun s =>
          (s.thread ()).prog.result.join.isSome &&
            decide (s.world.reads = [([9], [9]), ([0], [0])] ∧
              (s.world.world.inode 0).stub.isSome = true)) = true := by
    decide
  obtain ⟨s, hs, hp⟩ := Reach.exists_of_guarded (fun _ _ => harmless_sound) hrun
  exact ⟨s, hs, of_decide_eq_true (Bool.and_eq_true_iff.mp hp).2, reach_invisible rfl rfl hs⟩

set_option maxRecDepth 4000 in
/-- **A lost write**: the bytes are in the buffer of the stream, and the first of them has been
handed over, when a client writes to the second one. -/
theorem overtaken :
    ¬ ∀ s : EvictState, Reach evictOnline (fun _ _ => True) (evictInitial onlineFile 0) s →
      Invisible 0 s := by
  intro hall
  have hrun : ((run evictOnline (evictInitial onlineFile 0)
      [.start () (), .answer () .ok, .answer () .ok, .answer () .ok, .answer () .ok, .answer () .ok,
        .answer () .ok, .answer () (.size 1), .env (.fetch 4096), .answer () .ok,
        .env (.write 1 [9]), .answer () (.size 1), .answer () .ok, .answer () .ok, .answer () .ok,
        .answer () .ok, .answer () .ok, .answer () .ok, .answer () .ok, .answer () .ok,
        .answer () .ok, .answer () .ok]).any fun s =>
          (s.thread ()).prog.result.join.isSome &&
            decide (s.world.world.recoverable 0 = some [0, 7] ∧ s.world.written = [0, 9])) =
                true := by
    decide
  obtain ⟨s, hs, hp⟩ := Reach.exists_of_run (fun _ _ _ => trivial) hrun
  obtain ⟨hret, hlost⟩ := Bool.and_eq_true_iff.mp hp
  obtain ⟨a, ha⟩ := Option.isSome_iff_exists.mp hret
  obtain ⟨hold, hnew⟩ := of_decide_eq_true hlost
  obtain ⟨hkept, -⟩ := (hall s hs).2 a (Prog.result_eq_some (Option.join_eq_some_iff.mp ha))
  rw [hold, hnew] at hkept
  exact absurd hkept (by decide)

end Concurrency

end CloudTiering
