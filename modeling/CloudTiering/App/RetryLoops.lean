import CloudTiering.App.S3Ops

/-!
# The loops over retries

`s3_bucket_exists`, `s3_create_bucket`, `s3_upload` and `s3_download` repeat their request while its
status is retryable and `--retries` is not zero.  The count comes from the configuration, where
nothing bounds it from below: from `0` or less the decrement goes away from zero.

* `recorded`: a request that writes down its status.
* `RetryLoop`: the four functions; `RetryLoop.recorded` returns the statuses as well.
* `wp_s3Retry_recorded`: what the statuses of a loop look like.
* `retriesBounded_iff`: the loop keeps to its bound just if the count is positive or there is no
  retry.
-/

namespace CloudTiering

open Foundations

namespace App

/-! ## One loop -/

/-- The request, with its status added to those of the requests before it. -/
def recorded {β : Type} (request : β → Sys (S3Status × β)) (s : β × List S3Status) :
    Sys (S3Status × (β × List S3Status)) := do
  let (status, b) ← request s.1
  return (status, (b, s.2 ++ [status]))

/-- Writing down the statuses does not change the loop. -/
theorem s3Retry_recorded_bind {β γ : Type} (request : β → Sys (S3Status × β)) (n : ℕ) (b : β)
    (l : List S3Status) (g : S3Status × β → Sys γ) :
    (s3Retry (recorded request) n (b, l) >>= fun a => g (a.1, a.2.1)) =
      s3Retry request n b >>= g := by
  induction n generalizing b l with
  | zero => exact Prog.bind_assoc _ _ _
  | succ n ih =>
    show recorded request (b, l) >>= _ >>= _ = request b >>= _ >>= g
    rw [recorded, Prog.bind_assoc, Prog.bind_assoc, Prog.bind_assoc]
    refine congrArg (request b >>= ·) (funext ?_)
    rintro ⟨status, b'⟩
    dsimp only
    rw [pure_bind]
    split
    · exact ih b' (l ++ [status])
    · rfl

/-- The statuses of a loop that can be repeated `n` times: the last of them is `last`. -/
structure Attempted (n : ℕ) (last : S3Status) (statuses : List S3Status) : Prop where
  last : statuses.getLast? = some last
  le : statuses.length ≤ n + 1
  retryable : ∀ status ∈ statuses.dropLast, status.isRetryable = true
  again : 0 < n → ∀ first, statuses.head? = some first → first.isRetryable = true →
    2 ≤ statuses.length

section

variable {n : ℕ} {status last : S3Status} {statuses : List S3Status}

theorem Attempted.ne_nil (h : Attempted n last statuses) : statuses ≠ [] := by
  intro hnil
  have hlast := h.last
  rw [hnil] at hlast
  exact Option.some_ne_none _ hlast.symm

theorem Attempted.one_le (h : Attempted n last statuses) : 1 ≤ statuses.length :=
  List.length_pos_iff.mpr h.ne_nil

/-- After a status that is not retryable, there is no other request. -/
theorem Attempted.length_of_not_retryable (h : Attempted n last statuses)
    (hfirst : ∀ first, statuses.head? = some first → first.isRetryable = false) :
    statuses.length = 1 := by
  rcases statuses with _ | ⟨first, _ | ⟨second, rest⟩⟩
  · exact absurd rfl h.ne_nil
  · rfl
  · have hre := h.retryable first List.mem_cons_self
    exact absurd ((hfirst first rfl).symm.trans hre) Bool.false_ne_true

/-- A loop that makes one request, because it may not be repeated or need not. -/
theorem Attempted.once (h : 0 < n → status.isRetryable = false) : Attempted n status [status] := by
  refine ⟨rfl, Nat.le_add_left 1 n, fun _ hmem => absurd hmem List.not_mem_nil, ?_⟩
  intro hn first hfirst hre
  obtain rfl := Option.some.inj hfirst
  exact absurd ((h hn).symm.trans hre) Bool.false_ne_true

/-- One more request in front. -/
theorem Attempted.cons (h : Attempted n last statuses) (hre : status.isRetryable = true) :
    Attempted (n + 1) last (status :: statuses) := by
  have hone := h.one_le
  constructor
  · rw [List.getLast?_cons_of_ne_nil h.ne_nil]
    exact h.last
  · exact Nat.succ_le_succ h.le
  · rw [List.dropLast_cons_of_ne_nil h.ne_nil]
    intro other hmem
    rcases List.mem_cons.mp hmem with rfl | hmem
    · exact hre
    · exact h.retryable other hmem
  · intro _ _ _ _
    rw [List.length_cons]
    omega

end

/-- **The loop.**  Whatever its requests are answered, it adds such statuses to the record. -/
theorem wp_s3Retry_recorded {β : Type} (request : β → Sys (S3Status × β)) (n : ℕ) (b : β)
    (l : List S3Status) :
    (s3Retry (recorded request) n (b, l)).wp Prog.anyAnswer
      (fun a _ => ∃ statuses, a.2.2 = l ++ statuses ∧ Attempted n a.1 statuses) () := by
  induction n generalizing b l with
  | zero =>
    refine Prog.wp_bind.mpr (Prog.wp_anyAnswer ?_)
    rintro ⟨status, b'⟩ _
    exact ⟨[status], rfl, .once fun h => absurd h (Nat.lt_irrefl 0)⟩
  | succ n ih =>
    refine Prog.wp_bind.mpr (Prog.wp_bind.mpr (Prog.wp_anyAnswer ?_))
    rintro ⟨status, b'⟩ _
    show Prog.wp _ (if status.isRetryable = true then _ else _) _ _
    split
    · rename_i hre
      refine Prog.wp_mono (ih b' (l ++ [status])) ?_
      rintro ⟨last, b'', l'⟩ _ ⟨statuses, hl, hstatuses⟩
      refine ⟨status :: statuses, ?_, hstatuses.cons hre⟩
      rw [hl, List.append_assoc]
      rfl
    · rename_i hre
      exact ⟨[status], rfl, .once fun _ => Bool.eq_false_iff.mpr hre⟩

/-- What follows the loop. -/
theorem wp_s3Retry_recorded_bind {β γ : Type} (request : β → Sys (S3Status × β)) (n : ℕ) (b : β)
    {f : S3Status × (β × List S3Status) → Sys γ} {Q : γ → Unit → Prop}
    (h : ∀ last b' statuses, Attempted n last statuses →
      (f (last, b', statuses)).wp Prog.anyAnswer Q ()) :
    (s3Retry (recorded request) n (b, []) >>= f).wp Prog.anyAnswer Q () := by
  refine Prog.wp_bind.mpr (Prog.wp_mono (wp_s3Retry_recorded request n b []) ?_)
  rintro ⟨last, b', l⟩ _ ⟨statuses, hl, hstatuses⟩
  obtain rfl : l = statuses := hl
  exact h last b' l hstatuses

/-! ## The four functions -/

/-- What a loop has done: the statuses of its requests, and whether the stream was closed without
error afterwards. -/
structure LoopRecord where
  statuses : List S3Status
  closed : Bool

/-- The functions with a loop over retries; the requests about the bucket are parameters. -/
inductive RetryLoop
  | bucketExists (s3TestBucket : Sys S3Status)
  | createBucket (s3CreateBucketRequest : Sys S3Status)
  | upload (fd : Fd) (objectId : Bytes)
  | download (fd : Fd) (objectId : Bytes)

namespace RetryLoop

/-- The function. -/
def function (retries : Int) : RetryLoop → Sys Int
  | .bucketExists s3TestBucket => s3BucketExists s3TestBucket retries
  | .createBucket s3CreateBucketRequest => s3CreateBucket s3CreateBucketRequest retries
  | .upload fd objectId => s3Upload retries fd objectId
  | .download fd objectId => s3Download retries fd objectId

/-- What the function returns to report success. -/
def success : RetryLoop → Int
  | .bucketExists _ => 1
  | .createBucket _ => 0
  | .upload .. => 0
  | .download .. => 0

/-- The end of a transfer: the stream is closed. -/
def closeStream (dupFd : Fd) (status : S3Status) : Sys Int := do
  let ret : Int := if status ≠ .ok then -1 else 0
  match ← sys (.fclose dupFd) with
  | .error _ => return -1
  | .ok _ => return ret

/-- The same, with the record. -/
def recordedCloseStream (dupFd : Fd) (status : S3Status) (statuses : List S3Status) :
    Sys (Int × Option LoopRecord) := do
  let ret : Int := if status ≠ .ok then -1 else 0
  match ← sys (.fclose dupFd) with
  | .error _ => return (-1, some ⟨statuses, false⟩)
  | .ok _ => return (ret, some ⟨statuses, true⟩)

/-- The function with the record of its loop, if it gets there. -/
def recorded (retries : Int) : RetryLoop → Sys (Int × Option LoopRecord)
  | .bucketExists s3TestBucket => do
      let (status, _, statuses) ← s3Retry (App.recorded fun _ => do return (← s3TestBucket, ()))
        (s3FurtherAttempts retries) ((), [])
      return (if status = .ok then 1 else 0, some ⟨statuses, true⟩)
  | .createBucket s3CreateBucketRequest => do
      let (status, _, statuses) ← s3Retry
        (App.recorded fun _ => do return (← s3CreateBucketRequest, ()))
        (s3FurtherAttempts retries) ((), [])
      return (if status ≠ .ok then -1 else 0, some ⟨statuses, true⟩)
  | .upload fd objectId => do
      match ← sys (.dup fd) with
      | .error _ => return (-1, none)
      | .ok dupFd =>
        match ← sys (.fstat dupFd) with
        | .error _ => return (-1, none)
        | .ok stSize =>
          match ← sys (.fdopen dupFd) with
          | .error _ => return (-1, none)
          | .ok _ =>
            let (status, _, statuses) ← s3Retry (App.recorded (s3PutObject (cString objectId)))
              (s3FurtherAttempts retries) (⟨⟨dupFd, 0⟩, stSize⟩, [])
            recordedCloseStream dupFd status statuses
  | .download fd objectId => do
      match ← sys (.dup fd) with
      | .error _ => return (-1, none)
      | .ok dupFd =>
        match ← sys (.fdopen dupFd) with
        | .error _ => return (-1, none)
        | .ok _ =>
          let (status, _, statuses) ← s3Retry (App.recorded (s3GetObject (cString objectId)))
            (s3FurtherAttempts retries) (⟨dupFd, 0⟩, [])
          recordedCloseStream dupFd status statuses

/-- A call in front of a program with a record. -/
theorem map_sys_bind {β : Type} (c : Call) {f : Rep c → Sys (Int × β)} {g : Rep c → Sys Int}
    (h : ∀ r, Prod.fst <$> f r = g r) : Prod.fst <$> (sys c >>= f) = sys c >>= g := by
  rw [map_bind]
  exact congrArg _ (funext h)

theorem map_recordedCloseStream (dupFd : Fd) (status : S3Status) (statuses : List S3Status) :
    Prod.fst <$> recordedCloseStream dupFd status statuses = closeStream dupFd status := by
  refine map_sys_bind (.fclose dupFd) fun r => ?_
  cases r with
  | error e => rfl
  | ok u => rfl

/-- The record adds nothing to the calls and the return value. -/
theorem map_recorded (l : RetryLoop) (retries : Int) :
    Prod.fst <$> l.recorded retries = l.function retries := by
  cases l with
  | bucketExists s3TestBucket =>
    unfold recorded function s3BucketExists
    rw [map_bind]
    exact s3Retry_recorded_bind _ _ () [] fun a => (return if a.1 = .ok then 1 else 0 : Sys Int)
  | createBucket s3CreateBucketRequest =>
    unfold recorded function s3CreateBucket
    rw [map_bind]
    exact s3Retry_recorded_bind _ _ () [] fun a => (return if a.1 ≠ .ok then -1 else 0 : Sys Int)
  | upload fd objectId =>
    refine map_sys_bind (.dup fd) fun r => ?_
    rcases r with e | dupFd
    · rfl
    refine map_sys_bind (.fstat dupFd) fun r => ?_
    rcases r with e | stSize
    · rfl
    refine map_sys_bind (.fdopen dupFd) fun r => ?_
    rcases r with e | u
    · rfl
    dsimp only
    rw [map_bind]
    simp only [map_recordedCloseStream]
    exact s3Retry_recorded_bind _ _ _ [] fun a => closeStream dupFd a.1
  | download fd objectId =>
    refine map_sys_bind (.dup fd) fun r => ?_
    rcases r with e | dupFd
    · rfl
    refine map_sys_bind (.fdopen dupFd) fun r => ?_
    rcases r with e | u
    · rfl
    dsimp only
    rw [map_bind]
    simp only [map_recordedCloseStream]
    exact s3Retry_recorded_bind _ _ _ [] fun a => closeStream dupFd a.1

/-- What a record is like if the loop can be repeated `n` times. -/
def Recorded (l : RetryLoop) (n : ℕ) (a : Int × Option LoopRecord) : Prop :=
  ∀ r ∈ a.2, ∃ last, Attempted n last r.statuses ∧ (a.1 = l.success ↔ last = .ok ∧ r.closed = true)

theorem recorded_none (l : RetryLoop) (n : ℕ) (ret : Int) : l.Recorded n (ret, none) :=
  fun _ h => absurd h.symm (Option.some_ne_none _)

theorem recorded_some {l : RetryLoop} {n : ℕ} {ret : Int} {last : S3Status}
    {statuses : List S3Status}
    {closed : Bool} (h : Attempted n last statuses)
    (hret : ret = l.success ↔ last = .ok ∧ closed = true) :
    l.Recorded n (ret, some ⟨statuses, closed⟩) := by
  intro r hr
  obtain rfl := Option.some.inj hr
  exact ⟨last, h, hret⟩

theorem wp_recordedCloseStream {l : RetryLoop} {n : ℕ} {last : S3Status} {statuses : List S3Status}
    (hl : l.success = 0) (h : Attempted n last statuses) (dupFd : Fd) :
    (recordedCloseStream dupFd last statuses).wp Prog.anyAnswer (fun a _ => l.Recorded n a) () := by
  refine Prog.wp_bind.mpr ⟨trivial, fun r _ _ => ?_⟩
  rcases r with e | u
  · refine recorded_some h ?_
    rw [hl]
    exact iff_of_false (by decide) fun h => Bool.false_ne_true h.2
  · refine recorded_some h ?_
    rw [hl]
    cases last <;> decide

/-- **What a call of one of the functions records.** -/
theorem wp_recorded (l : RetryLoop) (retries : Int) :
    (l.recorded retries).wp Prog.anyAnswer (fun a _ => l.Recorded (s3FurtherAttempts retries) a)
    () := by
  cases l with
  | bucketExists s3TestBucket =>
    refine wp_s3Retry_recorded_bind _ _ _ fun last _ statuses h => recorded_some h ?_
    show (if last = .ok then 1 else 0) = (1 : Int) ↔ _
    cases last <;> decide
  | createBucket s3CreateBucketRequest =>
    refine wp_s3Retry_recorded_bind _ _ _ fun last _ statuses h => recorded_some h ?_
    show (if last ≠ .ok then -1 else 0) = (0 : Int) ↔ _
    cases last <;> decide
  | upload fd objectId =>
    refine Prog.wp_bind.mpr ⟨trivial, fun r _ _ => ?_⟩
    rcases r with e | dupFd
    · exact recorded_none _ _ _
    refine Prog.wp_bind.mpr ⟨trivial, fun r _ _ => ?_⟩
    rcases r with e | stSize
    · exact recorded_none _ _ _
    refine Prog.wp_bind.mpr ⟨trivial, fun r _ _ => ?_⟩
    rcases r with e | u
    · exact recorded_none _ _ _
    exact wp_s3Retry_recorded_bind _ _ _ fun last _ statuses h => wp_recordedCloseStream rfl h dupFd
  | download fd objectId =>
    refine Prog.wp_bind.mpr ⟨trivial, fun r _ _ => ?_⟩
    rcases r with e | dupFd
    · exact recorded_none _ _ _
    refine Prog.wp_bind.mpr ⟨trivial, fun r _ _ => ?_⟩
    rcases r with e | u
    · exact recorded_none _ _ _
    exact wp_s3Retry_recorded_bind _ _ _ fun last _ statuses h => wp_recordedCloseStream rfl h dupFd

/-! ## The bound -/

/-- The loop keeps to the number `n` of the configuration: it makes at least one and at most `max 1
n` requests, goes on only after a retryable status, and the function reports success just if the
last request has succeeded and the stream was closed. -/
structure Bounded (l : RetryLoop) (n : Int) (ret : Int) (r : LoopRecord) : Prop where
  one_le : 1 ≤ r.statuses.length
  le : (r.statuses.length : Int) ≤ max 1 n
  retryable : ∀ status ∈ r.statuses.dropLast, status.isRetryable = true
  success : ret = l.success ↔ r.statuses.getLast? = some .ok ∧ r.closed = true

end RetryLoop

/-- The first request of the loop has ended with a retryable status. -/
def FirstRetryable (r : LoopRecord) : Prop :=
  ∃ first, r.statuses.head? = some first ∧ first.isRetryable = true

theorem s3FurtherAttempts_of_pos {n : Int32} (h : 1 ≤ n.toInt) :
    (s3FurtherAttempts n.toInt : Int) = n.toInt - 1 := by
  have hlt := n.toInt_lt
  rw [s3FurtherAttempts, Int.toNat_of_nonneg (by omega)]
  exact Int.emod_eq_of_lt (by omega) (by omega)

theorem s3FurtherAttempts_pos {n : Int32} (h : n.toInt < 1) : 0 < s3FurtherAttempts n.toInt := by
  have hle := n.le_toInt
  have hmod : (n.toInt - 1) % 2 ^ 32 = n.toInt - 1 + 2 ^ 32 := by omega
  rw [s3FurtherAttempts, hmod]
  omega

namespace RetryLoop

/-- The bound, for one record. -/
theorem bounded_iff {l : RetryLoop} {n : Int32} {ret : Int} {r : LoopRecord} {last : S3Status}
    (h : Attempted (s3FurtherAttempts n.toInt) last r.statuses)
    (hret : ret = l.success ↔ last = .ok ∧ r.closed = true) :
    l.Bounded n.toInt ret r ↔ 1 ≤ n.toInt ∨ ¬ FirstRetryable r := by
  have hone := h.one_le
  have hle := h.le
  constructor
  · intro hb
    by_contra hcon
    obtain ⟨hn, hfirst⟩ := not_or.mp hcon
    obtain ⟨first, hhead, hre⟩ := not_not.mp hfirst
    have htwo := h.again (s3FurtherAttempts_pos (Int.not_le.mp hn)) first hhead hre
    have hmax := hb.le
    omega
  · intro hcond
    refine ⟨hone, ?_, h.retryable, ?_⟩
    · rcases hcond with hn | hfirst
      · have hfurther := s3FurtherAttempts_of_pos hn
        omega
      · have hlen := h.length_of_not_retryable fun first hhead => Bool.eq_false_iff.mpr fun hre =>
          hfirst ⟨first, hhead, hre⟩
        omega
    · rw [h.last, hret]
      exact and_congr_left' (by rw [Option.some_inj])

end RetryLoop

/-- **The loops over retries.**  However the calls are answered, each function returns.  If it gets
to its loop, the loop keeps to the bound just if the number of the configuration is positive or the
first request has not ended with a retryable status. -/
theorem retriesBounded_iff {σ : Type} (l : RetryLoop) (n : Int32)
    (answer : σ → (c : Call) → Rep c × σ)
    (s : σ) : ∃ ret record s',
      (l.function n.toInt).runWith (fun s c => some (answer s c)) s = some (ret, s') ∧
      (l.recorded n.toInt).runWith (fun s c => some (answer s c)) s = some ((ret, record), s') ∧
      ∀ r ∈ record, (l.Bounded n.toInt ret r ↔ 1 ≤ n.toInt ∨ ¬ FirstRetryable r) := by
  obtain ⟨⟨ret, record⟩, s', hrun, hrecord⟩ :=
    Prog.wp_anyAnswer_runWith answer (l.wp_recorded n.toInt) s
  refine ⟨ret, record, s', ?_, hrun, ?_⟩
  · rw [← l.map_recorded, Prog.runWith_map, hrun]
    rfl
  · intro r hr
    obtain ⟨last, h, hret⟩ := hrecord r hr
    exact RetryLoop.bounded_iff h hret

/-- Some answer to every call. -/
instance (c : Call) : Inhabited (Rep c) := by
  cases c <;> first
    | exact ⟨.error .eio⟩
    | exact ⟨.error .failed⟩
    | exact ⟨.failed⟩
    | exact ⟨([] : Bytes)⟩
    | exact ⟨(0 : ℕ)⟩

/-- Requests end with the statuses of a list, one after the other. -/
def nextStatus : List S3Status → (c : Call) → Rep c × List S3Status
  | statuses, .getEnd => (statuses.headD .failed, statuses.tail)
  | statuses, _ => (default, statuses)

/-- A number of `0` does not stop the loop after the first request. -/
theorem not_retriesBounded_zero :
    ¬ ∀ (l : RetryLoop) (n : Int32) (statuses : List S3Status), ∃ ret record s',
      (l.recorded n.toInt).runWith (fun s c => some (nextStatus s c)) statuses =
        some ((ret, record), s') ∧
      ∀ r ∈ record, l.Bounded n.toInt ret r := by
  intro hall
  obtain ⟨ret, record, s', hrun, hbounded⟩ :=
    hall (.bucketExists (sys .getEnd)) 0 [.retryable, .ok]
  have hzero : ((RetryLoop.bucketExists (sys .getEnd)).recorded (0 : Int32).toInt).runWith
      (fun s c => some (nextStatus s c)) [.retryable, .ok] =
      some ((1, some ⟨[.retryable, .ok], true⟩), []) := by
    rfl
  rw [hzero] at hrun
  obtain ⟨hret, -⟩ := Prod.mk.inj (Option.some.inj hrun)
  obtain ⟨-, rfl⟩ := Prod.mk.inj hret
  exact absurd (hbounded _ rfl).le (by decide)

end App

end CloudTiering
