import CloudTiering.App.Outline
import CloudTiering.System.Answers

/-!
# Proof outlines for the S3 protocol

The loops of `s3_ops.c` under `wp`: a loop rule for each of the two requests and for the retries,
and outlines for the transfer of a whole file.

* `wp_s3PutObjectLoop`, `wp_s3GetObjectLoop`, `wp_s3Retry`: the loop rules.
* `S3UploadOutline`, `S3DownloadOutline`: `s3_upload` and `s3_download` where no request ends with a
  retryable status.
* `allCalls_s3PutObjectLoop`, `allCalls_s3GetObject`: a request makes calls of a request only.
* `allCalls_s3Upload`, `allCalls_s3Download`: a transfer makes calls of a transfer only.
-/

namespace CloudTiering

open Foundations

namespace App

variable {σ : Type} {K : Calls Call Rep σ}

/-! ## Loop rules -/

/-- The number of bytes that the put callback asks of the stream. -/
def toRead (bufferSize contentLength : ℕ) : ℕ := min contentLength (bufferSize % 2 ^ 32)

theorem size_mod_pos {size : ℕ} (hpos : 0 < size) (hlt : size < 2 ^ 31) : 0 < size % 2 ^ 32 := by
  omega

theorem toRead_pos {size len : ℕ} (hsize : 0 < size % 2 ^ 32) (hlen : 0 < len) :
    0 < toRead size len := by
  rw [toRead]
  omega

/-- The callback data after `k` bytes have been read. -/
def S3PutObjectCallbackData.advance (data : S3PutObjectCallbackData) (k : ℕ) :
    S3PutObjectCallbackData :=
  ⟨{ data.file with pos := data.file.pos + k }, data.contentLength - k⟩

/-- The put callback is one read, unless nothing is left. -/
theorem wp_s3PutObjectDataCallback {bufferSize : ℕ} {data : S3PutObjectCallbackData}
    {P : σ → Prop} {Q : Bytes → σ → Prop} {s : σ} (hlen : data.contentLength ≠ 0)
    (h : Prog.Triple K P
      (.fread data.file.fd data.file.pos (toRead bufferSize data.contentLength)) Q)
    (hs : P s) :
    (s3PutObjectDataCallback bufferSize data).wp K
      (fun a t => a.2 = data.advance a.1.length ∧ Q a.1 t) s := by
  have hmin : (if data.contentLength > bufferSize % 2 ^ 32 then bufferSize % 2 ^ 32
      else data.contentLength) = toRead bufferSize data.contentLength := by
    rw [toRead]
    split <;> omega
  rw [s3PutObjectDataCallback, if_pos hlen]
  dsimp only
  rw [hmin]
  refine Prog.wp_bind.mpr (Prog.wp_bind.mpr ⟨(h s hs).1, fun r t ht => ⟨rfl, ?_⟩⟩)
  exact (h s hs).2 r t ht

/-- The get callback is one write. -/
theorem wp_s3GetObjectDataCallback {buffer : Bytes} {file : Stream} {P : σ → Prop}
    {Q : ℕ → σ → Prop} {s : σ} (h : Prog.Triple K P (.fwrite file.fd file.pos buffer) Q)
    (hs : P s) :
    (s3GetObjectDataCallback buffer file).wp K (fun a t => ∃ wrote : ℕ,
      a = (if wrote < buffer.length then .abortedByCallback else .ok,
        { file with pos := file.pos + wrote }) ∧ Q wrote t) s := by
  refine Prog.wp_bind.mpr (Prog.wp_bind.mpr ⟨(h s hs).1, fun wrote t ht => ⟨wrote, rfl, ?_⟩⟩)
  exact (h s hs).2 wrote t ht

/-- **The loop of `S3_put_object`.**  `J got data` holds in front of every callback, and `A` once it
has been called with a buffer; a callback that is asked for bytes brings at least one. -/
theorem wp_s3PutObjectLoop {key : Bytes} {n : ℕ} {J : Bytes → S3PutObjectCallbackData → σ → Prop}
    {A : Bytes → S3PutObjectCallbackData → ℕ → σ → Prop}
    {Q : S3Status × S3PutObjectCallbackData → σ → Prop}
    (hlen : ∀ got data s, J got data s → got.length < n → data.contentLength ≠ 0)
    (hbuffer : ∀ got data, got.length < n → Prog.Triple K (J got data) .putBuffer fun r t =>
      match r with
      | .error status => Q (status, data) t
      | .ok size => 0 < size % 2 ^ 32 ∧ A got data size t)
    (hread : ∀ got data size, got.length < n → data.contentLength ≠ 0 → 0 < size % 2 ^ 32 →
      Prog.Triple K (A got data size)
        (.fread data.file.fd data.file.pos (toRead size data.contentLength))
        fun bs t => bs ≠ [] ∧ J (got ++ bs) (data.advance bs.length) t)
    (hend : ∀ got data, n ≤ got.length → Prog.Triple K (J got data) (.putEnd key got)
      fun status t => Q (status, data) t)
    {fuel : ℕ} {got : Bytes} {data : S3PutObjectCallbackData} {s : σ}
    (hfuel : n ≤ got.length + fuel) (hs : J got data s) :
    (s3PutObjectLoop key n fuel got data).wp K Q s := by
  induction fuel generalizing got data s with
  | zero => exact Prog.Triple.bind (hend got data hfuel) hs fun status t ht => ht
  | succ fuel ih =>
    rw [s3PutObjectLoop]
    by_cases hn : n ≤ got.length
    · rw [if_pos hn]
      exact Prog.Triple.bind (hend got data hn) hs fun status t ht => ht
    · rw [if_neg hn]
      have hne := hlen got data s hs (by omega)
      refine Prog.Triple.bind (hbuffer got data (by omega)) hs fun r t ht => ?_
      cases r with
      | error status => exact ht
      | ok size =>
        obtain ⟨hsize, hasked⟩ := ht
        refine Prog.wp_bind.mpr (Prog.wp_mono (wp_s3PutObjectDataCallback hne
          (hread got data size (by omega) hne hsize) hasked) ?_)
        rintro ⟨bs, data'⟩ u ⟨hdata, hbs, hJ'⟩
        dsimp only at hdata hbs hJ' ⊢
        have hpos : bs.length ≠ 0 := fun h => hbs (List.eq_nil_of_length_eq_zero h)
        rw [if_neg hpos, hdata]
        refine ih ?_ hJ'
        rw [List.length_append]
        omega

/-- **The loop of `S3_get_object`.**  `J rest file` holds in front of every callback, and `G` once
a chunk is there. -/
theorem wp_s3GetObjectLoop {J : Bytes → Stream → σ → Prop} {G : Bytes → Stream → ℕ → σ → Prop}
    {Q : S3Status × Stream → σ → Prop}
    (hchunk : ∀ rest file, rest ≠ [] → Prog.Triple K (J rest file) .getChunk fun r t =>
      match r with
      | .error status => Q (status, file) t
      | .ok n => 0 < n ∧ G rest file n t)
    (hwrite : ∀ rest file n, rest ≠ [] → 0 < n →
      Prog.Triple K (G rest file n) (.fwrite file.fd file.pos (rest.take n)) fun wrote t =>
        if wrote < (rest.take n).length then
          Q (.abortedByCallback, { file with pos := file.pos + wrote }) t
        else J (rest.drop n) { file with pos := file.pos + wrote } t)
    (hend : ∀ file, Prog.Triple K (J [] file) .getEnd fun status t => Q (status, file) t)
    {fuel : ℕ} {rest : Bytes} {file : Stream} {s : σ} (hfuel : rest.length ≤ fuel)
    (hs : J rest file s) : (s3GetObjectLoop fuel rest file).wp K Q s := by
  induction fuel generalizing rest file s with
  | zero =>
    obtain rfl := List.eq_nil_of_length_eq_zero (Nat.le_zero.mp hfuel)
    exact Prog.Triple.bind (hend file) hs fun status t ht => ht
  | succ fuel ih =>
    rw [s3GetObjectLoop]
    by_cases hr : rest.length = 0
    · rw [if_pos hr]
      obtain rfl := List.eq_nil_of_length_eq_zero hr
      exact Prog.Triple.bind (hend file) hs fun status t ht => ht
    · have hne : rest ≠ [] := fun h => hr (by rw [h]; rfl)
      rw [if_neg hr]
      refine Prog.Triple.bind (hchunk rest file hne) hs fun r t ht => ?_
      cases r with
      | error status => exact ht
      | ok n =>
        obtain ⟨hn, hgiven⟩ := ht
        refine Prog.wp_bind.mpr (Prog.wp_mono
          (wp_s3GetObjectDataCallback (hwrite rest file n hne hn) hgiven) ?_)
        rintro a u ⟨wrote, rfl, hu⟩
        dsimp only at hu ⊢
        by_cases hw : wrote < (rest.take n).length
        · rw [if_pos hw] at hu
          rw [if_pos hw, if_pos (by decide)]
          exact hu
        · rw [if_neg hw] at hu
          rw [if_neg hw, if_neg (by decide)]
          refine ih ?_ hu
          rw [List.length_drop]
          omega

/-- **The retries.**  A retryable status leads back to the assertion in front of the request. -/
theorem wp_s3Retry {β : Type} {request : β → Sys (S3Status × β)} {J : β → σ → Prop}
    {Q : S3Status × β → σ → Prop}
    (h : ∀ b s, J b s →
      (request b).wp K (fun a t => Q a t ∧ (a.1.isRetryable = true → J a.2 t)) s)
    {n : ℕ} {b : β} {s : σ} (hs : J b s) : (s3Retry request n b).wp K Q s := by
  induction n generalizing b s with
  | zero => exact Prog.wp_mono (h b s hs) fun a t ht => ht.1
  | succ n ih =>
    refine Prog.wp_bind.mpr (Prog.wp_mono (h b s hs) ?_)
    rintro ⟨status, b'⟩ t ⟨hQ, hJ⟩
    dsimp only
    split
    · exact ih (hJ ‹_›)
    · exact hQ

/-! ## Whole files -/

/-- What `s3_upload` and `s3_download` return for the status of the last request. -/
def s3Return (status : S3Status) : Int := if status ≠ .ok then -1 else 0

/-- The assertion after a request with a status that is not retryable. -/
def ended (finished : Int → σ → Prop) (status : S3Status) (t : σ) : Prop :=
  status.isRetryable = false ∧ finished (s3Return status) t

/-- A request that does not end with a retryable status is made once. -/
theorem wp_s3Retry_once {β : Type} {request : β → Sys (S3Status × β)} {finished : Int → σ → Prop}
    {n : ℕ} {b : β} {s : σ} (h : (request b).wp K (fun a t => ended finished a.1 t) s) :
    (s3Retry request n b).wp K (fun a t => finished (s3Return a.1) t) s := by
  refine wp_s3Retry (J := fun b' t => b' = b ∧
    (request b').wp K (fun a t => ended finished a.1 t) t) ?_ ⟨rfl, h⟩
  rintro b' s ⟨-, hb⟩
  refine Prog.wp_mono hb fun a t ⟨hre, hfin⟩ => ⟨hfin, fun hretry => ?_⟩
  rw [hre] at hretry
  exact Bool.noConfusion hretry

/-- An outline of `s3_upload`.  `reading d n got` stands in front of every callback, where `n` is
the length seen by `fstat` and `got` the bytes read so far. -/
structure S3UploadOutline (K : Calls Call Rep σ) (fd : Fd) (key : Bytes) (Q : Int → σ → Prop) where
  start : σ → Prop
  duplicated : Fd → σ → Prop
  sized : Fd → ℕ → σ → Prop
  reading : Fd → ℕ → Bytes → σ → Prop
  finished : Fd → Int → σ → Prop
  dup : Prog.Triple K start (.dup fd) (outcome duplicated (Q (-1)))
  fstat : ∀ d, Prog.Triple K (duplicated d) (.fstat d) (outcome (sized d) (Q (-1)))
  fdopen : ∀ d n, Prog.Triple K (sized d n) (.fdopen d) (outcome (fun _ => reading d n []) (Q (-1)))
  putBuffer : ∀ d n got, got.length < n → Prog.Triple K (reading d n got) .putBuffer fun r t =>
    match r with
    | .error status => ended (finished d) status t
    | .ok size => 0 < size % 2 ^ 32 ∧ reading d n got t
  fread : ∀ d n got size, got.length < n → 0 < size % 2 ^ 32 →
    Prog.Triple K (reading d n got) (.fread d got.length (toRead size (n - got.length)))
      fun bs t => bs ≠ [] ∧ reading d n (got ++ bs) t
  putEnd : ∀ d n got, n ≤ got.length →
    Prog.Triple K (reading d n got) (.putEnd key got) (ended (finished d))
  fclose : ∀ d r, Prog.Triple K (finished d r) (.fclose d) (outcome (fun _ => Q r) (Q (-1)))

/-- **An outline proves its specification.** -/
theorem S3UploadOutline.sound {fd : Fd} {objectId : Bytes} {retries : Int} {Q : Int → σ → Prop}
    (O : S3UploadOutline K fd (cString objectId) Q) {s : σ} (hs : O.start s) :
    (s3Upload retries fd objectId).wp K Q s := by
  refine Prog.Triple.bind O.dup hs fun r t ht => ?_
  cases r with
  | error e => exact ht
  | ok d =>
  refine Prog.Triple.bind (O.fstat d) ht fun r t ht => ?_
  cases r with
  | error e => exact ht
  | ok n =>
  refine Prog.Triple.bind (O.fdopen d n) ht fun r t ht => ?_
  cases r with
  | error e => exact ht
  | ok u =>
  -- the callback data are determined by the bytes read so far
  let J : Bytes → S3PutObjectCallbackData → σ → Prop := fun got data t =>
    data = ⟨⟨d, got.length⟩, n - got.length⟩ ∧ O.reading d n got t
  have hput : (s3PutObject (cString objectId) ⟨⟨d, 0⟩, n⟩).wp K
      (fun a t => ended (O.finished d) a.1 t) t := by
    refine wp_s3PutObjectLoop (J := J) (A := fun got data _ => J got data) ?_ ?_ ?_ ?_ (by simp)
      ⟨rfl, ht⟩
    · rintro got data s ⟨rfl, -⟩ hlt
      exact Nat.sub_ne_zero_of_lt hlt
    · rintro got data hlt s ⟨rfl, hs⟩
      refine ⟨(O.putBuffer d n got hlt s hs).1, fun r t ht => ?_⟩
      have h := (O.putBuffer d n got hlt s hs).2 r t ht
      cases r with
      | error status => exact h
      | ok size => exact ⟨h.1, rfl, h.2⟩
    · rintro got data size hlt - hsize s ⟨rfl, hs⟩
      refine ⟨(O.fread d n got size hlt hsize s hs).1, fun bs t ht => ?_⟩
      have h := (O.fread d n got size hlt hsize s hs).2 bs t ht
      refine ⟨h.1, ?_, h.2⟩
      simp only [S3PutObjectCallbackData.advance, List.length_append, Nat.sub_add_eq]
    · rintro got data hle s ⟨-, hs⟩
      exact O.putEnd d n got hle s hs
  refine Prog.wp_bind.mpr (Prog.wp_mono (wp_s3Retry_once hput) ?_)
  rintro ⟨status, data⟩ t hfin
  refine Prog.Triple.bind (O.fclose d (s3Return status)) hfin fun r t ht => ?_
  cases r with
  | error e => exact ht
  | ok u => exact ht

/-- An outline of `s3_download`.  `loading d done rest` stands in front of every callback: `done`
has been delivered, `rest` has not. -/
structure S3DownloadOutline (K : Calls Call Rep σ) (fd : Fd) (key : Bytes)
    (Q : Int → σ → Prop) where
  start : σ → Prop
  duplicated : Fd → σ → Prop
  ready : Fd → σ → Prop
  loading : Fd → Bytes → Bytes → σ → Prop
  finished : Fd → Int → σ → Prop
  dup : Prog.Triple K start (.dup fd) (outcome duplicated (Q (-1)))
  fdopen : ∀ d, Prog.Triple K (duplicated d) (.fdopen d) (outcome (fun _ => ready d) (Q (-1)))
  getBegin : ∀ d, Prog.Triple K (ready d) (.getBegin key) fun r t =>
    match r with
    | .error status => ended (finished d) status t
    | .ok object => loading d [] object t
  getChunk : ∀ d done rest, rest ≠ [] → Prog.Triple K (loading d done rest) .getChunk fun r t =>
    match r with
    | .error status => ended (finished d) status t
    | .ok n => 0 < n ∧ loading d done rest t
  fwrite : ∀ d done rest n, rest ≠ [] → 0 < n →
    Prog.Triple K (loading d done rest) (.fwrite d done.length (rest.take n)) fun wrote t =>
      if wrote < (rest.take n).length then finished d (-1) t
      else wrote = (rest.take n).length ∧ loading d (done ++ rest.take n) (rest.drop n) t
  getEnd : ∀ d done, Prog.Triple K (loading d done []) .getEnd (ended (finished d))
  fclose : ∀ d r, Prog.Triple K (finished d r) (.fclose d) (outcome (fun _ => Q r) (Q (-1)))

/-- **An outline proves its specification.** -/
theorem S3DownloadOutline.sound {fd : Fd} {objectId : Bytes} {retries : Int} {Q : Int → σ → Prop}
    (O : S3DownloadOutline K fd (cString objectId) Q) {s : σ} (hs : O.start s) :
    (s3Download retries fd objectId).wp K Q s := by
  refine Prog.Triple.bind O.dup hs fun r t ht => ?_
  cases r with
  | error e => exact ht
  | ok d =>
  refine Prog.Triple.bind (O.fdopen d) ht fun r t ht => ?_
  cases r with
  | error e => exact ht
  | ok u =>
  let J : Bytes → Stream → σ → Prop := fun rest file t =>
    ∃ done, file = ⟨d, done.length⟩ ∧ O.loading d done rest t
  have hget : (s3GetObject (cString objectId) ⟨d, 0⟩).wp K
      (fun a t => ended (O.finished d) a.1 t) t := by
    refine Prog.Triple.bind (O.getBegin d) ht fun r t ht => ?_
    cases r with
    | error status => exact ht
    | ok object =>
    refine wp_s3GetObjectLoop (J := J) (G := fun rest file _ => J rest file) ?_ ?_ ?_
      (Nat.le_refl _)
      ⟨[], rfl, ht⟩
    · rintro rest file hne s ⟨done, rfl, hs⟩
      refine ⟨(O.getChunk d done rest hne s hs).1, fun r t ht => ?_⟩
      have h := (O.getChunk d done rest hne s hs).2 r t ht
      cases r with
      | error status => exact h
      | ok n => exact ⟨h.1, done, rfl, h.2⟩
    · rintro rest file n hne hn s ⟨done, rfl, hs⟩
      refine ⟨(O.fwrite d done rest n hne hn s hs).1, fun wrote t ht => ?_⟩
      have h := (O.fwrite d done rest n hne hn s hs).2 wrote t ht
      dsimp only at h ⊢
      split
      · rw [if_pos ‹_›] at h
        exact ⟨rfl, h⟩
      · rw [if_neg ‹_›] at h
        refine ⟨done ++ rest.take n, ?_, h.2⟩
        rw [h.1, List.length_append]
    · rintro file s ⟨done, -, hs⟩
      exact O.getEnd d done s hs
  refine Prog.wp_bind.mpr (Prog.wp_mono (wp_s3Retry_once hget) ?_)
  rintro ⟨status, data⟩ t hfin
  refine Prog.Triple.bind (O.fclose d (s3Return status)) hfin fun r t ht => ?_
  cases r with
  | error e => exact ht
  | ok u => exact ht

/-! ## The calls of a transfer -/

theorem allCalls_s3PutObjectLoop (key : Bytes) (n fuel : ℕ) (got : Bytes)
    (data : S3PutObjectCallbackData) :
    (s3PutObjectLoop key n fuel got data).AllCalls fun c => isRequestCall c = true := by
  have hend : ∀ got data, (s3PutObjectEnd key got data).AllCalls fun c => isRequestCall c = true :=
    fun _ _ => .bind (Prog.allCalls_ask rfl) fun _ => trivial
  induction fuel generalizing got data with
  | zero => exact hend got data
  | succ fuel ih =>
    rw [s3PutObjectLoop]
    split
    · exact hend got data
    · refine .bind (Prog.allCalls_ask rfl) fun r => ?_
      cases r with
      | error st => trivial
      | ok size =>
        have hcb : (s3PutObjectDataCallback size data).AllCalls fun c =>
            isRequestCall c = true := by
          rw [s3PutObjectDataCallback]
          split
          · exact .bind (.bind (Prog.allCalls_ask rfl) fun _ => trivial) fun _ => trivial
          · trivial
        refine .bind hcb fun a => ?_
        dsimp only
        split
        · exact hend got _
        · exact ih _ _

theorem allCalls_s3Retry {β : Type} {P : Call → Prop} {request : β → Sys (S3Status × β)}
    (h : ∀ b, (request b).AllCalls P) (n : ℕ) (b : β) : (s3Retry request n b).AllCalls P := by
  induction n generalizing b with
  | zero => exact h b
  | succ n ih =>
    refine .bind (h b) fun a => ?_
    dsimp only
    split
    · exact ih _
    · trivial

/-- The upload of a whole file makes calls of a transfer only. -/
theorem allCalls_s3Upload (retries : Int) (fd : Fd) (objectId : Bytes) :
    (s3Upload retries fd objectId).AllCalls fun c => isTransferCall c = true := by
  refine .bind (Prog.allCalls_ask rfl) fun r => ?_
  cases r with
  | error e => trivial
  | ok d =>
  refine .bind (Prog.allCalls_ask rfl) fun r => ?_
  cases r with
  | error e => trivial
  | ok n =>
  refine .bind (Prog.allCalls_ask rfl) fun r => ?_
  cases r with
  | error e => trivial
  | ok u =>
  refine .bind ((allCalls_s3Retry (fun data => allCalls_s3PutObjectLoop _ _ _ _ data) _ _).mono
    fun _ => isTransferCall_of_isRequestCall) fun a => ?_
  refine .bind (Prog.allCalls_ask rfl) fun r => ?_
  cases r <;> trivial

theorem allCalls_s3GetObjectLoop (fuel : ℕ) (rest : Bytes) (file : Stream) :
    (s3GetObjectLoop fuel rest file).AllCalls fun c => isRequestCall c = true := by
  have hend : ∀ file : Stream, (do return (← sys .getEnd, file) : Sys (S3Status × Stream)).AllCalls
      fun c => isRequestCall c = true := fun _ => .bind (Prog.allCalls_ask rfl) fun _ => trivial
  induction fuel generalizing rest file with
  | zero => exact hend file
  | succ fuel ih =>
    rw [s3GetObjectLoop]
    split
    · exact hend file
    · refine .bind (Prog.allCalls_ask rfl) fun r => ?_
      cases r with
      | error st => trivial
      | ok n =>
        refine .bind (.bind (.bind (Prog.allCalls_ask rfl) fun _ => trivial) fun _ => trivial)
          fun a => ?_
        dsimp only
        split
        · trivial
        · exact ih _ _

theorem allCalls_s3GetObject (key : Bytes) (file : Stream) :
    (s3GetObject key file).AllCalls fun c => isRequestCall c = true := by
  refine .bind (Prog.allCalls_ask rfl) fun r => ?_
  cases r with
  | error st => trivial
  | ok object => exact allCalls_s3GetObjectLoop _ _ _

/-- The download of a whole file makes calls of a transfer only. -/
theorem allCalls_s3Download (retries : Int) (fd : Fd) (objectId : Bytes) :
    (s3Download retries fd objectId).AllCalls fun c => isTransferCall c = true := by
  refine .bind (Prog.allCalls_ask rfl) fun r => ?_
  cases r with
  | error e => trivial
  | ok d =>
  refine .bind (Prog.allCalls_ask rfl) fun r => ?_
  cases r with
  | error e => trivial
  | ok u =>
  refine .bind ((allCalls_s3Retry (allCalls_s3GetObject _) _ _).mono
    fun _ => isTransferCall_of_isRequestCall) fun a => ?_
  refine .bind (Prog.allCalls_ask rfl) fun r => ?_
  cases r <;> trivial

end App

end CloudTiering
