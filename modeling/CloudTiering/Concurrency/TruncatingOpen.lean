import CloudTiering.Concurrency.Attributes
import CloudTiering.Foundations.Streams
import CloudTiering.Foundations.Threads

/-!
# A truncating `open` next to a download

The wrapped `open` with `O_TRUNC` empties the file, looks whether it is remote, and then clears its
attributes.  It takes no lock, and a download of the old object may be under way at any of these
moments.  `s3_download` writes through a stream, so that its chunks reach the file when the stream
is flushed, at the latest in `fclose`.

* `Side`, `Place`: the two threads, and how far the client is, together with what it has written.
* `Loading`: the world, and the stream of `s3_download`.
* `truncateSystem`: the client, which opens the file once and then writes at will, and any number of
  calls of `download_file`.
* `KeepsWritten`: once both are done, the file is local and its bytes are what the client has
  written.
* `ChunksFit`: the condition on a run.
* `Loading.settled`, `downloadExec_settled`: the stream on its own comes to what `exec` says.
* `reach_keepsWritten`: under it, no newer data is overwritten.
* `overwritten`: without it, newer data can be.
-/

namespace CloudTiering

open Foundations App

namespace Concurrency

/-! ## The calls of a download -/

/-- The calls of `download_file`. -/
def isDownloadCall : Call → Bool
  | .openFile _ | .closeFile _ => true
  | .fsetxattr _ .locked _ _ => true
  | .fgetxattr .. | .fremovexattr .. => true
  | c => isTransferCall c

/-- A download changes the bytes of a file by writing chunks only, and makes no file remote. -/
theorem exec_download {w w' : World} {ch : Choice} {c : Call} {r : Rep c}
    (hc : isDownloadCall c = true) (hwrite : ∀ fd pos bs, c ≠ .fwrite fd pos bs)
    (he : exec w ch c = some (r, w')) (i : ℕ) :
    (w'.inode i).data = (w.inode i).data ∧
    ((w.inode i).stub = none → (w'.inode i).stub = none) := by
  have hquiet : isQuiet c = true → (w'.inode i).data = (w.inode i).data ∧
      ((w.inode i).stub = none → (w'.inode i).stub = none) := by
    intro hq
    have hsame := exec_quiet hq he
    exact ⟨hsame.data i, fun h => (hsame.stub i).trans h⟩
  cases c with
  | fsetxattr fd x v flag =>
    cases x with
    | locked => exact hquiet rfl
    | _ => exact absurd hc Bool.false_ne_true
  | fremovexattr fd x =>
    rcases exec_fremovexattr he with ⟨-, -, rfl⟩ | ⟨e, -, rfl, -⟩
    · by_cases hi : i = fd.ino
      · subst hi
        rw [World.inode_update_self]
        refine ⟨Inode.data_setXattr _ _ _, fun h => ?_⟩
        cases x with
        | stub => rfl
        | _ => exact h
      · rw [World.inode_update_of_ne w _ hi]
        exact ⟨rfl, id⟩
    · exact ⟨rfl, id⟩
  | fwrite fd pos bs => exact absurd rfl (hwrite fd pos bs)
  | putEnd key got =>
    rcases exec_putEnd he with ⟨-, -, rfl⟩ | ⟨-, -, rfl⟩
    · exact ⟨rfl, id⟩
    · exact ⟨rfl, id⟩
  | _ => first | exact hquiet rfl | exact absurd hc Bool.false_ne_true

/-! ## The client -/

/-- How far the wrapped `open` is behind the `open` of the C library. -/
inductive Stage
  /-- About to check the location. -/
  | looking
  /-- The file was remote: about to remove the stub attribute. -/
  | clearing
  /-- About to remove `object_id`. -/
  | clearingId
  /-- `open` has returned, or is about to. -/
  | ready
  deriving DecidableEq

/-- Where a thread is. -/
inductive Place
  /-- Not in the `open` of the client, nor behind it. -/
  | elsewhere
  /-- About to call the `open` of the C library. -/
  | entering
  /-- The file has been emptied; `written` is what the writes of the client make of an empty
  file. -/
  | opened (fd : Fd) (stage : Stage) (written : Bytes)
  deriving DecidableEq

/-- The calls that a thread may make. -/
def Place.expects : Place → Call → Prop
  | .elsewhere, c => isDownloadCall c = true
  | .entering, c => ∃ self path flags, c = .libcOpen self path flags ∧ flags &&& oTrunc = oTrunc
  | .opened fd .looking _, c => isLookCall fd c
  | .opened fd .clearing _, c => c = .fremovexattr fd .stub
  | .opened fd .clearingId _, c => c = .fremovexattr fd .objectId
  | .opened fd .ready _, c => ∃ pos bs, c = .fwrite fd pos bs

/-- The stage after the location check. -/
def stageAfterLook : (c : Call) → Rep c → Stage
  | .fsetxattr .., r => if r.isOk then .clearing else .ready
  | .fgetxattr .., r => if r.isOk then .clearing else .ready
  | _, _ => .ready

/-- The place after an answer. -/
def Place.next (p : Place) (c : Call) (r : Rep c) : Place :=
  match p with
  | .elsewhere => .elsewhere
  | .entering => match c, r with
    | .libcOpen .., .ok fd => .opened fd .looking []
    | _, _ => .elsewhere
  | .opened fd .looking written => .opened fd (stageAfterLook c r) written
  | .opened fd .clearing written => .opened fd .clearingId written
  | .opened fd .clearingId written => .opened fd .ready written
  | .opened fd .ready written => match c, r with
    | .fwrite _ pos bs, wrote => .opened fd .ready (writeAt written pos (bs.take wrote))
    | _, _ => p

/-- The calls as moves between places; none of them fails. -/
def placeCalls : Calls Call Rep Place where
  pre := Place.expects
  post p c r p' := succeeds c r = true ∧ p' = p.next c r

section

variable {fd : Fd} {flags : ℕ} {written : Bytes}

/-- The location check. -/
theorem wp_isLocalFile_looking {Q : Except Errno Int → Place → Prop}
    (hremote : Q (.ok 0) (.opened fd .clearing written))
    (hhere : Q (.ok 1) (.opened fd .ready written)) :
    (Client.isLocalFile fd flags).wp placeCalls Q (.opened fd .looking written) := by
  unfold Client.isLocalFile
  split
  · refine ⟨⟨rfl, rfl, rfl, rfl⟩, ?_⟩
    rintro r p ⟨hr, rfl⟩
    cases r with
    | ok u => exact hremote
    | error e =>
      obtain rfl : e = .enoattr := of_decide_eq_true hr
      exact hhere
  · refine ⟨⟨rfl, rfl, rfl⟩, ?_⟩
    rintro r p ⟨hr, rfl⟩
    cases r with
    | ok u => exact hremote
    | error e =>
      obtain rfl : e = .enoattr := of_decide_eq_true hr
      exact hhere

/-- The removal of the attributes: nothing fails, so that it returns `0`. -/
theorem wp_clearXattrs_clearing :
    (Client.clearXattrs fd).wp placeCalls (fun r p => r = 0 ∧ p = .opened fd .ready written)
      (.opened fd .clearing written) := by
  have hnone : ∀ {x : Xattr} {r : Except Errno Unit}, succeeds (.fremovexattr fd x) r = true →
      r = .ok () ∨ r = .error .enoattr := by
    intro x r hr
    cases r with
    | ok u => exact .inl rfl
    | error e => exact .inr (congrArg _ (of_decide_eq_true hr))
  refine ⟨rfl, ?_⟩
  rintro r p ⟨hr, rfl⟩
  obtain rfl | rfl := hnone hr
  all_goals
    refine ⟨rfl, ?_⟩
    rintro r p ⟨hr, rfl⟩
    obtain rfl | rfl := hnone hr
    all_goals exact ⟨rfl, rfl⟩

/-- **The wrapped `open` with `O_TRUNC`.** -/
theorem wp_truncatingOpen (self : ℕ) (stale : Bytes) (vars : Client.Vars) (path : Bytes)
    (htrunc : flags &&& oTrunc = oTrunc) :
    (Client.openFile self stale vars path flags).wp placeCalls
      (fun a p => ∃ fd, a.1 = .done (.ok fd) ∧ p = .opened fd .ready []) .entering := by
  refine Prog.wp_bind.mpr ⟨⟨self, path, flags, rfl, htrunc⟩, ?_⟩
  rintro r p ⟨hr, rfl⟩
  cases r with
  | error e => exact absurd hr Bool.false_ne_true
  | ok fd =>
    refine Prog.wp_bind.mpr (wp_isLocalFile_looking ?_ ?_)
    · show Prog.wp placeCalls (if (0 : Int) ≠ 0 then _ else _) _ _
      rw [if_neg (by decide), if_pos htrunc]
      refine Prog.wp_bind.mpr (Prog.wp_mono wp_clearXattrs_clearing ?_)
      rintro r p ⟨rfl, rfl⟩
      exact ⟨fd, rfl, rfl⟩
    · exact ⟨fd, rfl, rfl⟩

end

/-! ## The download -/

/-- A call of a download. -/
theorem triple_elsewhere {c : Call} {Q : Rep c → Place → Prop} (hc : isDownloadCall c = true)
    (hQ : ∀ r, Q r .elsewhere) : Prog.Triple placeCalls (fun p => p = .elsewhere) c Q := by
  rintro p rfl
  refine ⟨hc, ?_⟩
  rintro r p ⟨-, rfl⟩
  exact hQ r

/-- The assertion in front of every call of a download is the same. -/
def downloadElsewhere (retries : Int) (path : Bytes) :
    DownloadOutline placeCalls (s3Ops retries) path fun _ p => p = .elsewhere where
  start p := p = .elsewhere
  opened _ p := p = .elsewhere
  locked _ p := p = .elsewhere
  remote _ p := p = .elsewhere
  known _ _ p := p = .elsewhere
  loaded _ p := p = .elsewhere
  unstubbed _ p := p = .elsewhere
  leaving _ _ p := p = .elsewhere
  closing _ _ p := p = .elsewhere
  openFile := triple_elsewhere rfl fun r => by cases r <;> rfl
  lock _ := triple_elsewhere rfl fun r => by cases r <;> rfl
  check _ := triple_elsewhere rfl fun r => by
    cases r with
    | ok v => rfl
    | error e => cases e <;> rfl
  getId _ := triple_elsewhere rfl fun r => by cases r <;> rfl
  download fd id p hp := by
    refine Prog.wp_of_allCalls (allCalls_s3Download retries fd id) ?_ ?_ ?_
    · intro c hc
      rw [hp]
      show isDownloadCall c = true
      cases c <;> first | rfl | exact absurd hc Bool.false_ne_true
    · rintro c r p' - ⟨-, rfl⟩
      rw [hp]
      rfl
    · intro r
      split <;> exact hp
  removeStub _ := triple_elsewhere rfl fun r => by cases r <;> rfl
  removeId _ := triple_elsewhere rfl fun r => by cases r <;> rfl
  unlock _ _ := triple_elsewhere rfl fun _ => rfl
  close _ _ := triple_elsewhere rfl fun _ => rfl

/-! ## The system -/

/-- The two threads. -/
inductive Side
  | client
  | downloader
  deriving DecidableEq

/-- What a thread may run. -/
inductive TruncateWork
  /-- The wrapped `open`, with `O_TRUNC` among the flags. -/
  | openFile (self : ℕ) (stale : Bytes) (vars : Client.Vars) (path : Bytes) (flags : ℕ)
  /-- A `write` through the descriptor that `open` has returned. -/
  | write (pos : ℕ) (bs : Bytes)
  /-- A call of `download_file`. -/
  | download (path : Bytes)

/-- How a piece of work has ended. -/
inductive TruncateOutcome
  | idle
  | opened (opening : Client.Opening)
  | downloaded (ret : Int)

/-- Where a thread stands whose work has ended. -/
def TruncateOutcome.At : TruncateOutcome → Place → Prop
  | .idle, p => p = .elsewhere
  | .opened opening, p => ∃ fd written, opening = .done (.ok fd) ∧ p = .opened fd .ready written
  | .downloaded _, p => p = .elsewhere

/-- The program of a piece of work after the outcome `a`, and the place in which it starts. -/
def TruncateWork.program (retries : Int) (side : Side) (a : TruncateOutcome) (p : Place) :
    TruncateWork → Option (Sys TruncateOutcome × Place)
  | .openFile self stale vars path flags =>
      match side, a with
      | .client, .idle =>
          if flags &&& oTrunc = oTrunc then
            some (do return .opened (← Client.openFile self stale vars path flags).1, .entering)
          else none
      | _, _ => none
  | .write pos bs =>
      match a with
      | .opened (.done (.ok fd)) =>
          some (do
              let _ ← sys (.fwrite fd pos bs)
              return .opened (.done (.ok fd)), p)
      | _ => none
  | .download path =>
      match side with
      | .downloader =>
          some (do return .downloaded (← downloadFile (s3Ops retries) path), .elsewhere)
      | .client => none

/-- The world, and the stream of `s3_download`, from its `fdopen` to its `fclose`. -/
structure Loading where
  world : World
  stream : Option (Fd × Writer UInt8) := none

/-- The stream after a call of a download other than `fwrite`.  The descriptor behind it stands at
the beginning of the file. -/
def Loading.streamBy (w : Loading) : Call → Option (Fd × Writer UInt8)
  | .fdopen d => some (d, {})
  | .fclose _ => none
  | _ => w.stream

/-- Everything has been flushed. -/
def Loading.flushed (w : Loading) : Bool :=
  match w.stream with
  | some (_, s) => s.pending.isEmpty
  | none => true

/-- A call of a download that does not fail.  `fwrite` hands the bytes to the stream, and `fclose`
returns when they have been flushed. -/
def downloadExec (w : Loading) (ch : Choice) : (c : Call) → Option (Rep c × Loading)
  | .fwrite d _ bs =>
      match w.stream with
      | some (d', s) =>
          if ch = .ok ∧ d' = d then
            some (bs.length, { w with stream := some (d, s.put bs) })
          else none
      | none => none
  | .fclose d =>
      if w.flushed then
        (execOk w.world ch (.fclose d)).map fun a => (a.1, { world := a.2, stream := none })
      else none
  | c => (execOk w.world ch c).map fun a => (a.1, { world := a.2, stream := w.streamBy c })

/-- A call of either thread that does not fail.  The client's `write` reaches the file at once. -/
def truncateExec (side : Side) (w : Loading) (ch : Choice) (c : Call) : Option (Rep c × Loading) :=
  match side with
  | .client => (execOk w.world ch c).map fun a => (a.1, { w with world := a.2 })
  | .downloader => downloadExec w ch c

/-- The first `n` of the bytes that the stream keeps back go to the file. -/
def Loading.flush (w : Loading) (n : ℕ) : Loading :=
  match w.stream with
  | some (d, s) =>
      ⟨w.world.write d.ino s.pos (s.pending.take n), some (d, s.flush n)⟩
  | none => w

/-- The client and the download thread.  The stream may be flushed at any time, and by any number of
bytes; the C library does so where the buffer is full, and in `fclose`. -/
def truncateSystem (retries : Int) :
    ThreadSystem Call Rep TruncateOutcome Side Loading Choice Place TruncateWork ℕ where
  exec := truncateExec
  observe _ p c r := p.next c r
  next side _ a p work := work.program retries side a p
  env n w := some (w.flush n)

/-- The world, the stream and the two threads. -/
abbrev TruncateState := ThreadSystem.State Call Rep TruncateOutcome Side Loading Place

/-- Nothing has begun. -/
def truncateInitial (w : World) : TruncateState :=
  ⟨{ world := w }, fun _ => ⟨.ret .idle, .elsewhere⟩⟩

/-- **No newer data is overwritten**: where the client's `open` has returned, none of its writes is
under way and no download is, the file is local, and its bytes are what the client has written. -/
def KeepsWritten (s : TruncateState) : Prop :=
  ∀ fd a, (s.thread .client).prog = .ret (.opened (.done (.ok fd))) →
    (s.thread .downloader).prog = .ret a →
    ∃ written, s.mons .client = .opened fd .ready written ∧
      (s.world.world.inode fd.ino).data = written ∧ (s.world.world.inode fd.ino).stub = none

/-- **The condition**: the bytes that the stream of the download flushes to the file after the
client's `open` has emptied it are there already. -/
def ChunksFit (s : TruncateState) : ThreadSystem.Label Side Choice TruncateWork ℕ → Prop
  | .env n => ∀ fd stage written d str, s.mons .client = .opened fd stage written →
      s.world.stream = some (d, str) → d.ino = fd.ino →
      writeAt (s.world.world.inode d.ino).data str.pos (str.pending.take n) =
        (s.world.world.inode d.ino).data
  | _ => True

/-! ## The stream on its own -/

/-- The world as it is when everything has been flushed. -/
def Loading.settled (w : Loading) : World :=
  match w.stream with
  | some (d, s) => w.world.write d.ino s.pos s.pending
  | none => w.world

/-- A flush does not change what the file comes to. -/
theorem settled_flush (w : Loading) (n : ℕ) : (w.flush n).settled = w.settled := by
  obtain ⟨v, stream⟩ := w
  cases stream with
  | none => rfl
  | some q =>
    obtain ⟨d, s⟩ := q
    show (v.write d.ino s.pos (s.pending.take n)).write d.ino (s.pos + (s.pending.take n).length)
      (s.pending.drop n) = v.write d.ino s.pos s.pending
    rw [World.write_write, List.take_append_drop]

/-- The calls of `s3_download` while its stream is open, and those that open and close it. -/
def withStream : Call → Bool
  | .fdopen _ | .fclose _ | .fwrite .. | .getBegin _ | .getChunk | .getEnd => true
  | _ => false

/-- **What `exec` says about a stream is what it comes to.**  If nobody else touches the file, a
call of `s3_download` does to the world with everything flushed what `exec` says; `pos` counts the
bytes that have gone through the stream. -/
theorem downloadExec_settled {l l' : Loading} {ch : Choice} {c : Call} {r : Rep c}
    (hc : withStream c = true) (hopen : ∀ d, c = .fdopen d → l.stream = none)
    (hpos : ∀ d pos bs s, c = .fwrite d pos bs → l.stream = some (d, s) →
      pos = s.pos + s.pending.length)
    (he : downloadExec l ch c = some (r, l')) : exec l.settled ch c = some (r, l'.settled) := by
  obtain ⟨w, stream⟩ := l
  have hload : (∃ key, c = .getBegin key) ∨ c = .getChunk ∨ c = .getEnd →
      (∃ v, execOk w ch c = some (r, v) ∧ l' = ⟨v, stream⟩) →
      exec (Loading.settled ⟨w, stream⟩) ch c = some (r, l'.settled) := by
    rintro hrequest ⟨v, hv, rfl⟩
    obtain ⟨rfl, hexec⟩ := exec_load (v := Loading.settled ⟨w, stream⟩) hrequest
      (by cases stream <;> rfl) (execOk_eq_some hv).2.1
    exact hexec
  cases c with
  | fdopen d =>
    obtain rfl := hopen d rfl
    obtain ⟨⟨r', v⟩, hv, heq⟩ := Option.map_eq_some_iff.mp he
    obtain ⟨rfl, rfl⟩ := Prod.mk.inj heq
    show exec w ch _ = some (r', v.write d.ino 0 [])
    rw [World.write_nil]
    exact (execOk_eq_some hv).2.1
  | fwrite d pos bs =>
    cases stream with
    | none => exact absurd he.symm (Option.some_ne_none _)
    | some q =>
      obtain ⟨d', s⟩ := q
      obtain ⟨⟨rfl, rfl⟩, hx⟩ := Option.ite_none_right_eq_some.mp he
      obtain ⟨rfl, rfl⟩ := Prod.mk.inj (Option.some.inj hx)
      obtain rfl := hpos d' pos bs s rfl rfl
      show some (bs.length, (w.write d'.ino s.pos s.pending).write d'.ino _ bs) =
        some (bs.length, w.write d'.ino s.pos (s.pending ++ bs))
      rw [World.write_write]
  | fclose d =>
    obtain ⟨hflushed, hx⟩ := Option.ite_none_right_eq_some.mp he
    obtain ⟨⟨r', v⟩, hv, heq⟩ := Option.map_eq_some_iff.mp hx
    obtain ⟨rfl, rfl⟩ := Prod.mk.inj heq
    have hsettled : Loading.settled ⟨w, stream⟩ = w := by
      cases stream with
      | none => rfl
      | some q =>
        show w.write q.1.ino q.2.pos q.2.pending = w
        rw [List.isEmpty_iff.mp hflushed, World.write_nil]
    rw [hsettled]
    exact (execOk_eq_some hv).2.1
  | getBegin key =>
    obtain ⟨⟨r', v⟩, hv, heq⟩ := Option.map_eq_some_iff.mp he
    obtain ⟨rfl, rfl⟩ := Prod.mk.inj heq
    exact hload (.inl ⟨key, rfl⟩) ⟨v, hv, rfl⟩
  | getChunk =>
    obtain ⟨⟨r', v⟩, hv, heq⟩ := Option.map_eq_some_iff.mp he
    obtain ⟨rfl, rfl⟩ := Prod.mk.inj heq
    exact hload (.inr (.inl rfl)) ⟨v, hv, rfl⟩
  | getEnd =>
    obtain ⟨⟨r', v⟩, hv, heq⟩ := Option.map_eq_some_iff.mp he
    obtain ⟨rfl, rfl⟩ := Prod.mk.inj heq
    exact hload (.inr (.inr rfl)) ⟨v, hv, rfl⟩
  | _ => exact absurd hc Bool.false_ne_true

/-! ## The invariant -/

/-- A call of a download leaves the bytes to the stream. -/
theorem downloadExec_same {l l' : Loading} {ch : Choice} {c : Call} {r : Rep c}
    (hc : isDownloadCall c = true) (he : downloadExec l ch c = some (r, l')) :
    succeeds c r = true ∧ ∀ i, (l'.world.inode i).data = (l.world.inode i).data ∧
      ((l.world.inode i).stub = none → (l'.world.inode i).stub = none) := by
  have hother : (∀ fd pos bs, c ≠ .fwrite fd pos bs) → ∀ w, execOk l.world ch c = some (r, w) →
      succeeds c r = true ∧ ∀ i, (w.inode i).data = (l.world.inode i).data ∧
        ((l.world.inode i).stub = none → (w.inode i).stub = none) := by
    intro hwrite w hv
    obtain ⟨-, hexec, hs⟩ := execOk_eq_some hv
    exact ⟨hs, exec_download hc hwrite hexec⟩
  cases c with
  | fwrite d pos bs =>
    unfold downloadExec at he
    cases hstream : l.stream with
    | none =>
      rw [hstream] at he
      exact absurd he.symm (Option.some_ne_none _)
    | some q =>
      rw [hstream] at he
      obtain ⟨-, hx⟩ := Option.ite_none_right_eq_some.mp he
      obtain ⟨rfl, rfl⟩ := Prod.mk.inj (Option.some.inj hx)
      exact ⟨decide_eq_true rfl, fun _ => ⟨rfl, id⟩⟩
  | fclose d =>
    obtain ⟨-, hx⟩ := Option.ite_none_right_eq_some.mp he
    obtain ⟨⟨r', w⟩, hv, heq⟩ := Option.map_eq_some_iff.mp hx
    obtain ⟨rfl, rfl⟩ := Prod.mk.inj heq
    exact hother (by simp) w hv
  | _ =>
    obtain ⟨⟨r', w⟩, hv, heq⟩ := Option.map_eq_some_iff.mp he
    obtain ⟨rfl, rfl⟩ := Prod.mk.inj heq
    exact hother (by simp) w hv

/-- **The invariant**: the file that the client has opened holds what the client has written, and is
local from the removal of the stub attribute on. -/
structure TruncateInv (w : World) (place : Side → Place) : Prop where
  downloader : place .downloader = .elsewhere
  content : ∀ fd stage written, place .client = .opened fd stage written →
    (w.inode fd.ino).data = written
  isLocal : ∀ fd stage written, place .client = .opened fd stage written →
    stage = .clearingId ∨ stage = .ready → (w.inode fd.ino).stub = none

namespace TruncateInv

section

variable {w w' : World} {place : Side → Place} {ch : Choice} {c : Call} {r : Rep c}

/-- A step that takes the client to a place where its file holds what it has written. -/
theorem client {written : Bytes} (h : TruncateInv w place) (fd : Fd) (stage : Stage)
    (hdata : (w'.inode fd.ino).data = written)
    (hlocal : stage = .clearingId ∨ stage = .ready → (w'.inode fd.ino).stub = none) :
    TruncateInv w' (Function.update place .client (.opened fd stage written)) := by
  refine ⟨?_, ?_, ?_⟩
  · rw [Function.update_of_ne (by decide)]
    exact h.downloader
  · intro fd' stage' written' hp
    rw [Function.update_self] at hp
    obtain ⟨rfl, -, rfl⟩ := Place.opened.inj hp
    exact hdata
  · intro fd' stage' written' hp
    rw [Function.update_self] at hp
    obtain ⟨rfl, rfl, -⟩ := Place.opened.inj hp
    exact hlocal

/-- A step that does not take a thread behind its `open`. -/
theorem elsewhere {t : Side} {p : Place} (h : TruncateInv w place)
    (ht : t = .downloader → p = .elsewhere)
    (hp : ∀ fd stage written, p = .opened fd stage written → place t = .opened fd stage written)
    (hsame : ∀ fd stage written, place .client = .opened fd stage written →
      (w'.inode fd.ino).data = (w.inode fd.ino).data ∧
        ((w.inode fd.ino).stub = none → (w'.inode fd.ino).stub = none)) :
    TruncateInv w' (Function.update place t p) := by
  have hback : ∀ fd stage written, Function.update place t p .client = .opened fd stage written →
      place .client = .opened fd stage written := by
    intro fd stage written hq
    by_cases hu : .client = t
    · subst hu
      rw [Function.update_self] at hq
      exact hp fd stage written hq
    · rw [Function.update_of_ne hu] at hq
      exact hq
  refine ⟨?_, ?_, ?_⟩
  · by_cases hu : t = .downloader
    · rw [hu, Function.update_self]
      exact ht hu
    · rw [Function.update_of_ne (Ne.symm hu)]
      exact h.downloader
  · intro fd stage written hq
    exact (hsame fd stage written (hback fd stage written hq)).1.trans
      (h.content fd stage written (hback fd stage written hq))
  · intro fd stage written hq hstage
    exact (hsame fd stage written (hback fd stage written hq)).2
      (h.isLocal fd stage written (hback fd stage written hq) hstage)

/-- A call of the download changes no bytes. -/
theorem download {l l' : Loading} {r : Rep c} (h : TruncateInv l.world place)
    (hc : isDownloadCall c = true) (he : downloadExec l ch c = some (r, l')) :
    succeeds c r = true ∧ TruncateInv l'.world (Function.update place .downloader .elsewhere) := by
  obtain ⟨hs, hsame⟩ := downloadExec_same hc he
  exact ⟨hs, h.elsewhere (fun _ => rfl) (fun _ _ _ hp => absurd hp (by simp))
    fun fd _ _ _ => hsame fd.ino⟩

/-- A flush of bytes that are there already. -/
theorem flush {l : Loading} {n : ℕ} (h : TruncateInv l.world place)
    (hfit : ∀ fd stage written d str, place .client = .opened fd stage written →
      l.stream = some (d, str) → d.ino = fd.ino →
      writeAt (l.world.inode d.ino).data str.pos (str.pending.take n) =
        (l.world.inode d.ino).data) :
    TruncateInv (l.flush n).world place := by
  have hsame : ∀ fd stage written, place .client = .opened fd stage written →
      ((l.flush n).world.inode fd.ino).data = (l.world.inode fd.ino).data ∧
        ((l.flush n).world.inode fd.ino).stub = (l.world.inode fd.ino).stub := by
    intro fd stage written hp
    unfold Loading.flush
    cases hstream : l.stream with
    | none => exact ⟨rfl, rfl⟩
    | some q =>
      show ((l.world.write q.1.ino q.2.pos (q.2.pending.take n)).inode fd.ino).data = _ ∧
        ((l.world.write q.1.ino q.2.pos (q.2.pending.take n)).inode fd.ino).stub = _
      by_cases hino : fd.ino = q.1.ino
      · rw [hino, World.write, World.inode_update_self]
        exact ⟨hfit fd stage written q.1 q.2 hp hstream hino.symm, rfl⟩
      · rw [World.write, World.inode_update_of_ne l.world _ hino]
        exact ⟨rfl, rfl⟩
  refine ⟨h.downloader, ?_, ?_⟩
  · intro fd stage written hp
    exact (hsame fd stage written hp).1.trans (h.content fd stage written hp)
  · intro fd stage written hp hstage
    exact (hsame fd stage written hp).2.trans (h.isLocal fd stage written hp hstage)

/-- The `open` of the C library empties the file. -/
theorem libcOpen {self : ℕ} {path : Bytes} {flags : ℕ} {r : Except Errno Fd}
    (h : TruncateInv w place)
    (htrunc : flags &&& oTrunc = oTrunc)
    (he : execOk w ch (.libcOpen self path flags) = some (r, w')) :
    TruncateInv w'
      (Function.update place .client (Place.entering.next (.libcOpen self path flags) r)) := by
  obtain ⟨hch, hexec, hgood⟩ := execOk_eq_some he
  cases ch with
  | size n =>
    obtain ⟨-, hx⟩ := Option.ite_none_right_eq_some.mp hexec
    have hopen := Option.some.inj hx
    unfold World.libcOpen at hopen
    cases hn : w.names path with
    | none =>
      rw [hn] at hopen
      obtain ⟨rfl, -⟩ := Prod.mk.inj hopen
      exact absurd hgood Bool.false_ne_true
    | some i =>
      rw [hn] at hopen
      dsimp only at hopen
      rw [if_pos htrunc] at hopen
      obtain ⟨rfl, rfl⟩ := Prod.mk.inj hopen
      refine h.client ⟨i, n⟩ _ ?_ fun hstage => absurd hstage (by simp)
      exact congrArg Inode.data (World.inode_update_self w i _)
  | ok => exact absurd hexec.symm (Option.some_ne_none _)
  | _ => exact absurd hch Bool.false_ne_true

/-- The location check of the library. -/
theorem looking {fd : Fd} {written : Bytes} (h : TruncateInv w place)
    (hp : place .client = .opened fd .looking written) (hc : isLookCall fd c)
    (he : execOk w ch c = some (r, w')) :
    TruncateInv w' (Function.update place .client
      ((Place.opened fd .looking written).next c r)) := by
  obtain ⟨hch, hexec, hgood⟩ := execOk_eq_some he
  have hdata := h.content fd _ written hp
  cases c with
  | fsetxattr fd' x v flag =>
    obtain ⟨rfl, rfl, rfl, rfl⟩ := hc
    obtain ⟨rfl, -⟩ := attempt_carriedOut hexec hch
    rcases exec_fsetxattr_replace hexec with ⟨rfl, -, rfl⟩ | ⟨e, rfl, rfl, hnone⟩
    · refine h.client _ .clearing ?_ fun hstage => absurd hstage (by simp)
      rw [World.inode_update_self]
      exact hdata
    · exact h.client _ .ready hdata fun _ => (hnone rfl).2
  | fgetxattr fd' x n =>
    obtain ⟨rfl, rfl, rfl⟩ := hc
    obtain ⟨rfl, ⟨v, rfl, -⟩ | ⟨rfl, hnone⟩⟩ := execOk_check he
    · exact h.client _ .clearing hdata fun hstage => absurd hstage (by simp)
    · exact h.client _ .ready hdata fun _ => hnone
  | _ => exact hc.elim

/-- The removal of an attribute by the library. -/
theorem removing {fd : Fd} {x : Xattr} {written : Bytes} {r : Except Errno Unit}
    {stage stage' : Stage}
    (h : TruncateInv w place) (hp : place .client = .opened fd stage written)
    (hstub : x = .stub ∨ (w.inode fd.ino).stub = none)
    (he : execOk w ch (.fremovexattr fd x) = some (r, w')) :
    TruncateInv w' (Function.update place .client (.opened fd stage' written)) := by
  have hdata := h.content fd stage written hp
  rcases execOk_remove he with ⟨-, rfl⟩ | ⟨e, -, rfl, hnone⟩
  · refine h.client _ _ ?_ fun _ => ?_
    · rw [World.inode_update_self, Inode.data_setXattr]
      exact hdata
    · show (Inode.xattr _ .stub) = none
      rw [World.inode_update_self, Inode.xattr_setXattr]
      split
      · rfl
      · exact hstub.resolve_left fun hx => ‹¬_› hx.symm
  · refine h.client _ _ hdata fun _ => ?_
    rcases hstub with rfl | hstub
    · exact hnone
    · exact hstub

/-- A write of the client. -/
theorem writing {fd : Fd} {pos : ℕ} {bs written : Bytes} {r : ℕ} (h : TruncateInv w place)
    (hp : place .client = .opened fd .ready written)
    (he : execOk w ch (.fwrite fd pos bs) = some (r, w')) :
    TruncateInv w' (Function.update place .client
      (.opened fd .ready (writeAt written pos (bs.take r)))) := by
  obtain ⟨hch, hexec, -⟩ := execOk_eq_some he
  rcases exec_fwrite hexec with ⟨-, rfl, rfl⟩ | ⟨e, m, rfl, -, -⟩
  · rw [List.take_length, ← h.content fd .ready written hp]
    refine h.client _ _ ?_ fun _ => ?_
    · rw [World.write, World.inode_update_self]
    · rw [World.write, World.inode_update_self]
      exact h.isLocal fd .ready written hp (.inr rfl)
  · exact absurd hch Bool.false_ne_true

/-- A call of the client. -/
theorem client_answer {r : Rep c} (h : TruncateInv w place) (hpre : (place .client).expects c)
    (he : execOk w ch c = some (r, w')) :
    TruncateInv w' (Function.update place .client ((place .client).next c r)) := by
  cases hp : place .client with
  | elsewhere =>
    refine h.elsewhere (fun _ => rfl) (fun _ _ _ hq => absurd hq (by simp [Place.next])) ?_
    intro fd stage written hq
    rw [hp] at hq
    exact absurd hq (by simp)
  | entering =>
    rw [hp] at hpre
    obtain ⟨self, path, flags, rfl, htrunc⟩ := hpre
    exact h.libcOpen htrunc he
  | opened fd stage written =>
    rw [hp] at hpre
    cases stage with
    | looking => exact h.looking hp hpre he
    | clearing =>
      subst hpre
      exact h.removing hp (.inl rfl) he
    | clearingId =>
      subst hpre
      exact h.removing hp (.inr (h.isLocal fd _ written hp (.inl rfl))) he
    | ready =>
      obtain ⟨pos, bs, rfl⟩ := hpre
      exact h.writing hp he

/-- **One call of one thread.** -/
theorem answer {l l' : Loading} {t : Side} (h : TruncateInv l.world place)
    (hpre : (place t).expects c)
    (he : truncateExec t l ch c = some (r, l')) :
    succeeds c r = true ∧ TruncateInv l'.world (Function.update place t ((place t).next c r)) := by
  cases t with
  | downloader =>
    rw [h.downloader] at hpre ⊢
    exact h.download hpre he
  | client =>
    obtain ⟨⟨r', w'⟩, hv, heq⟩ := Option.map_eq_some_iff.mp he
    obtain ⟨rfl, rfl⟩ := Prod.mk.inj heq
    exact ⟨(execOk_eq_some hv).2.2, h.client_answer hpre hv⟩

end

end TruncateInv

/-! ## Runs -/

/-- A piece of work keeps to its places. -/
theorem wp_truncateWork {retries : Int} {side : Side} {a : TruncateOutcome} {p p' : Place}
    {work : TruncateWork} {prog : Sys TruncateOutcome} (ha : a.At p)
    (h : work.program retries side a p = some (prog, p')) :
    prog.wp placeCalls TruncateOutcome.At p' ∧
      (p' = p ∨ (side = .client ∧ p' = .entering) ∨ (side = .downloader ∧ p' = .elsewhere)) := by
  cases work with
  | openFile self stale vars path flags =>
    cases side with
    | downloader => exact absurd h.symm (Option.some_ne_none _)
    | client =>
      cases a with
      | idle =>
        obtain ⟨htrunc, hx⟩ := Option.ite_none_right_eq_some.mp h
        obtain ⟨rfl, rfl⟩ := Prod.mk.inj (Option.some.inj hx)
        refine ⟨Prog.wp_bind.mpr (Prog.wp_mono (wp_truncatingOpen self stale vars path htrunc) ?_),
          .inr (.inl ⟨rfl, rfl⟩)⟩
        rintro b q ⟨fd, hb, hq⟩
        exact ⟨fd, [], hb, hq⟩
      | _ => exact absurd h.symm (Option.some_ne_none _)
  | write pos bs =>
    cases a with
    | opened opening =>
      obtain ⟨fd, written, rfl, rfl⟩ := ha
      obtain ⟨rfl, rfl⟩ := Prod.mk.inj (Option.some.inj h)
      refine ⟨⟨⟨pos, bs, rfl⟩, ?_⟩, .inl rfl⟩
      rintro r q ⟨-, rfl⟩
      exact ⟨fd, _, rfl, rfl⟩
    | _ => exact absurd h.symm (Option.some_ne_none _)
  | download path =>
    cases side with
    | client => exact absurd h.symm (Option.some_ne_none _)
    | downloader =>
      obtain ⟨rfl, rfl⟩ := Prod.mk.inj (Option.some.inj h)
      refine ⟨Prog.wp_bind.mpr (Prog.wp_mono ((downloadElsewhere retries path).sound rfl) ?_),
        .inr (.inr ⟨rfl, rfl⟩)⟩
      exact fun _ _ hq => hq

/-- **No newer data is overwritten** in every run in which the chunks fit. -/
theorem reach_keepsWritten {retries : Int} {w : World} {s : TruncateState}
    (h : Reach (truncateSystem retries).step ChunksFit (truncateInitial w) s) : KeepsWritten s := by
  have hinv : TruncateInv s.world.world s.mons ∧
      ThreadSystem.Checked placeCalls TruncateOutcome.At s := by
    refine ThreadSystem.reach_inv (K := placeCalls) (Q := TruncateOutcome.At)
      (I := fun l mons => TruncateInv l.world mons) h ⟨rfl, ?_, ?_⟩ (fun _ => rfl) ?_ ?_ ?_
    · exact fun _ _ _ hp => absurd hp (by simp [ThreadSystem.State.mons, truncateInitial])
    · exact fun _ _ _ hp => absurd hp (by simp [ThreadSystem.State.mons, truncateInitial])
    · intro s t k c f r l hI _ _ hpre he
      obtain ⟨hs, hI'⟩ := hI.answer hpre he
      exact ⟨⟨hs, rfl⟩, hI'⟩
    · intro s t work a prog p hI _ _ ha hn
      obtain ⟨hwp, hplace⟩ := wp_truncateWork ha hn
      refine ⟨hwp, hI.elsewhere ?_ ?_ fun _ _ _ _ => ⟨rfl, id⟩⟩
      · rintro rfl
        rcases hplace with rfl | ⟨hside, -⟩ | ⟨-, rfl⟩
        · exact hI.downloader
        · exact absurd hside (by decide)
        · rfl
      · intro fd stage written hp
        rcases hplace with rfl | ⟨-, rfl⟩ | ⟨-, rfl⟩
        · exact hp
        · exact absurd hp (by simp)
        · exact absurd hp (by simp)
    · intro s n l hI hfit hl
      obtain rfl := Option.some.inj hl
      exact hI.flush hfit
  intro fd a hclient _
  have hat := hinv.2 .client
  rw [hclient] at hat
  obtain ⟨fd', written, hfd, hp⟩ := hat
  obtain rfl : fd = fd' := Except.ok.inj (Client.Opening.done.inj hfd)
  exact ⟨written, hp, hinv.1.content fd .ready written hp,
    hinv.1.isLocal fd .ready written hp (.inr rfl)⟩

/-- A remote file of one byte. -/
def offlineFile : World where
  inode _ := { data := [0], stub := some [], objectId := some [102] }
  names path := if path = [102] then some 0 else none
  store key := if key = [102] then some [7] else none

/-- The client opens the file. -/
def truncateIt : TruncateWork := .openFile 1 [] {} [102] (oRdwr + oTrunc)

/-- A test that implies `ChunksFit`: nothing is flushed behind the client's `open`. -/
def chunksFit (s : TruncateState) : ThreadSystem.Label Side Choice TruncateWork ℕ → Bool
  | .env _ =>
      match s.mons .client with
      | .opened .. => false
      | _ => true
  | _ => true

theorem chunksFit_sound {s : TruncateState} {l : ThreadSystem.Label Side Choice TruncateWork ℕ}
    (h : chunksFit s l = true) : ChunksFit s l := by
  cases l with
  | env n =>
    intro fd stage written d str hclient
    simp [chunksFit, hclient] at h
  | _ => trivial

/-- The client opens the file when the chunk has been flushed, while the download has not closed its
stream yet, and writes. -/
theorem keepsWritten_behind_chunk :
    ∃ s : TruncateState, Reach (truncateSystem 3).step ChunksFit (truncateInitial offlineFile) s ∧
      (s.world.world.inode 0).data = [9] ∧ KeepsWritten s := by
  have hrun : ((run (guardedBy chunksFit (truncateSystem 3).step) (truncateInitial offlineFile)
      [.start .downloader (.download [102]), .answer .downloader .ok, .answer .downloader .ok,
        .answer .downloader .ok, .answer .downloader .ok, .answer .downloader .ok,
        .answer .downloader .ok, .answer .downloader .ok, .answer .downloader (.size 4096),
        .answer .downloader .ok, .env 1,
        .start .client truncateIt, .answer .client (.size 3), .answer .client .ok,
        .answer .downloader .ok, .answer .downloader .ok, .answer .downloader .ok,
        .answer .downloader .ok, .answer .downloader .ok, .answer .downloader .ok,
        .answer .client .ok, .answer .client .ok,
        .start .client (.write 0 [9]), .answer .client .ok]).any fun s =>
          (s.world.world.inode 0).data = [9]) = true := by
    decide
  obtain ⟨s, hs, hp⟩ := Reach.exists_of_guarded (fun _ _ => chunksFit_sound) hrun
  exact ⟨s, hs, of_decide_eq_true hp, reach_keepsWritten hs⟩

/-- The descriptor that `open` has returned. -/
def TruncateOutcome.fd : TruncateOutcome → Option Fd
  | .opened (.done (.ok fd)) => some fd
  | _ => none

theorem TruncateOutcome.fd_eq_some {a : TruncateOutcome} {fd : Fd} (h : a.fd = some fd) :
    a = .opened (.done (.ok fd)) := by
  cases a with
  | opened opening =>
    cases opening with
    | done ret =>
      cases ret with
      | ok d => rw [Option.some.inj h]
      | error e => exact absurd h.symm (Option.some_ne_none fd)
    | polling d flags => exact absurd h.symm (Option.some_ne_none fd)
  | _ => exact absurd h.symm (Option.some_ne_none fd)

/-- **An overwritten file**: the download has its chunk in the buffer of its stream when the client
opens the file, clears the attributes and writes; `fclose` flushes the chunk. -/
theorem overwritten :
    ¬ ∀ s : TruncateState, Reach (truncateSystem 3).step (fun _ _ => True)
      (truncateInitial offlineFile) s →
      KeepsWritten s := by
  intro hall
  have hrun : ((run (truncateSystem 3).step (truncateInitial offlineFile)
      [.start .downloader (.download [102]), .answer .downloader .ok, .answer .downloader .ok,
        .answer .downloader .ok, .answer .downloader .ok, .answer .downloader .ok,
        .answer .downloader .ok, .answer .downloader .ok, .answer .downloader (.size 4096),
        .answer .downloader .ok,
        .start .client truncateIt, .answer .client (.size 3), .answer .client .ok,
        .answer .client .ok, .answer .client .ok,
        .start .client (.write 0 [9]), .answer .client .ok,
        .answer .downloader .ok, .env 1, .answer .downloader .ok, .answer .downloader .ok,
        .answer .downloader .ok, .answer .downloader .ok]).any fun s =>
          (s.thread .client).prog.result.bind TruncateOutcome.fd = some ⟨0, 3⟩ &&
            (s.thread .downloader).prog.result.isSome &&
              s.mons .client = .opened ⟨0, 3⟩ .ready [9] &&
            (s.world.world.inode 0).data = [7]) = true := by
    decide
  obtain ⟨s, hs, hp⟩ := Reach.exists_of_run (fun _ _ _ => trivial) hrun
  simp only [Bool.and_eq_true, decide_eq_true_eq] at hp
  obtain ⟨⟨⟨hopened, hdownloaded⟩, hplace⟩, hdata⟩ := hp
  obtain ⟨a, ha, hfd⟩ := Option.bind_eq_some_iff.mp hopened
  obtain ⟨b, hb⟩ := Option.isSome_iff_exists.mp hdownloaded
  obtain rfl := TruncateOutcome.fd_eq_some hfd
  obtain ⟨written, hp', hcontent, -⟩ :=
    hall s hs ⟨0, 3⟩ b (Prog.result_eq_some ha) (Prog.result_eq_some hb)
  obtain ⟨-, -, rfl⟩ := Place.opened.inj (hplace.symm.trans hp')
  exact absurd (hdata.symm.trans hcontent) (by decide)

end Concurrency

end CloudTiering
