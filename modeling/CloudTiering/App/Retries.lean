import CloudTiering.App.S3Outline
import CloudTiering.System.Answers

/-!
# Transfers with retries

`s3_upload` and `s3_download` open one stream and make one request after the other on it, as long as
a request ends with a retryable status.  No request rewinds the stream.  So the bytes that have gone
through it in a request that failed are missing from the object, or doubled in the file, once a
later request has been carried out.

A run is given by the list of the environment's choices, one for each call.

* `RetriedMidway`, `Completed`: what the choices say about the requests.
* `Sent`, `Asked`, `Stopped`: the choices made so far, against the bytes that have gone through the
  stream.
* `s3Upload_whole_iff`, `s3Download_whole_iff`: when a transfer that returns `0` has transferred the
  content.
-/

namespace CloudTiering

open Foundations

namespace App

/-! ## What the choices say -/

/-- A request has ended with a retryable status after a data callback had been called. -/
def RetriedMidway (cs : List Choice) : Prop := ∃ n, [Choice.size n, .status .retryable].Sublist cs

/-- The last request and the closing of the stream have been carried out. -/
def Completed (cs : List Choice) : Prop := [Choice.ok, .ok] <:+ cs

theorem retriedMidway_concat_of_ne {cs : List Choice} {c : Choice} (hc : c ≠ .status .retryable) :
    RetriedMidway (cs ++ [c]) ↔ RetriedMidway cs := by
  refine exists_congr fun n => Prog.pair_sublist_concat.trans (or_iff_left ?_)
  rintro ⟨-, rfl⟩
  exact hc rfl

theorem retriedMidway_concat_retryable {cs : List Choice} :
    RetriedMidway (cs ++ [.status .retryable]) ↔ RetriedMidway cs ∨ ∃ n, .size n ∈ cs := by
  rw [RetriedMidway, RetriedMidway, ← exists_or]
  refine exists_congr fun n => Prog.pair_sublist_concat.trans (or_congr_right ?_)
  exact and_iff_left rfl

theorem completed_concat {cs : List Choice} {c c' : Choice} :
    Completed (cs ++ [c, c']) ↔ c = .ok ∧ c' = .ok := by
  rw [Completed]
  constructor
  · intro h
    have := List.IsSuffix.eq_of_length (List.suffix_of_suffix_length_le h
      (List.suffix_append cs [c, c']) (Nat.le_refl 2)) rfl
    obtain ⟨rfl, hc'⟩ := List.cons.inj this
    exact ⟨rfl, (List.cons.inj hc').1.symm⟩
  · rintro ⟨rfl, rfl⟩
    exact List.suffix_append cs _

theorem not_completed_concat {cs : List Choice} {c : Choice} (hc : c ≠ .ok) :
    ¬ Completed (cs ++ [c]) := by
  intro h
  have hlast := h.getLast (by simp)
  rw [List.getLast_append_singleton] at hlast
  exact hc hlast.symm

/-! ## The choices so far -/

/-- The choice at a call that is neither a data callback nor the end of a request. -/
def Plain (c : Choice) : Prop := (∀ n, c ≠ .size n) ∧ c ≠ .status .retryable

theorem plain_ok : Plain .ok := ⟨fun _ => Choice.noConfusion, Choice.noConfusion⟩

theorem plain_cut (e : Errno) (m : ℕ) : Plain (.cut e m) :=
  ⟨fun _ => Choice.noConfusion, Choice.noConfusion⟩

section

variable {all cs : List Choice} {c : Choice} {lost cur k n : ℕ}

/-- In front of a call: the failed requests have moved the stream by `lost` bytes, this one by
`cur`; the choices `cs` are still to come. -/
def Sent (all : List Choice) (lost cur : ℕ) (cs : List Choice) : Prop :=
  ∃ done, all = done ++ cs ∧ (RetriedMidway done ↔ 0 < lost) ∧
    ((∃ n, .size n ∈ done) ↔ 0 < lost + cur)

/-- A data callback has been called, and is about to move the stream. -/
def Asked (all : List Choice) (lost : ℕ) (cs : List Choice) : Prop :=
  ∃ done, all = done ++ cs ∧ (RetriedMidway done ↔ 0 < lost) ∧ ∃ n, .size n ∈ done

/-- The last request has ended with this status. -/
def Stopped (all : List Choice) (lost : ℕ) (status : S3Status) (cs : List Choice) : Prop :=
  ∃ done c, all = done ++ c :: cs ∧ (status = .ok ↔ c = .ok) ∧
    (status = .ok → (RetriedMidway (done ++ [c]) ↔ 0 < lost))

theorem Sent.start : Sent all 0 0 all := ⟨[], rfl, by simp [RetriedMidway], by simp⟩

theorem Sent.next (h : Sent all lost cur (c :: cs)) (hc : Plain c) : Sent all lost cur cs := by
  obtain ⟨done, rfl, hmid, hsize⟩ := h
  refine ⟨done ++ [c], by simp, (retriedMidway_concat_of_ne hc.2).trans hmid, ?_⟩
  refine Iff.trans (exists_congr fun n => ?_) hsize
  rw [List.mem_append, List.mem_singleton]
  exact or_iff_left fun h => hc.1 n h.symm

theorem Sent.ask (h : Sent all lost cur (.size n :: cs)) : Asked all lost cs := by
  obtain ⟨done, rfl, hmid, -⟩ := h
  exact ⟨done ++ [.size n], by simp, (retriedMidway_concat_of_ne Choice.noConfusion).trans hmid, n,
    by simp⟩

/-- The callback has moved the stream. -/
theorem Asked.move (h : Asked all lost (c :: cs)) (hc : Plain c) (hk : 0 < k) :
    Sent all lost k cs := by
  obtain ⟨done, rfl, hmid, n, hn⟩ := h
  refine ⟨done ++ [c], by simp, (retriedMidway_concat_of_ne hc.2).trans hmid, ?_⟩
  exact iff_of_true ⟨n, List.mem_append_left _ hn⟩ (Nat.add_pos_right lost hk)

/-- The request has ended with a retryable status: what it has moved is lost. -/
theorem Sent.retry (h : Sent all lost cur (.status .retryable :: cs)) :
    Sent all (lost + cur) 0 cs := by
  obtain ⟨done, rfl, hmid, hsize⟩ := h
  have hmem : (∃ n, Choice.size n ∈ done ++ [.status .retryable]) ↔ ∃ n, Choice.size n ∈ done :=
    exists_congr fun n => by simp
  refine ⟨done ++ [.status .retryable], by simp, ?_, hmem.trans hsize⟩
  rw [retriedMidway_concat_retryable, hmid, hsize]
  omega

theorem Sent.stop (h : Sent all lost cur (.ok :: cs)) : Stopped all lost .ok cs := by
  obtain ⟨done, rfl, hmid, -⟩ := h
  exact ⟨done, .ok, rfl, iff_of_true rfl rfl, fun _ =>
    (retriedMidway_concat_of_ne Choice.noConfusion).trans hmid⟩

theorem Sent.fail {status : S3Status} (h : Sent all lost cur (.status status :: cs))
    (hne : status ≠ .ok) :
    Stopped all lost status cs := by
  obtain ⟨done, rfl, -, -⟩ := h
  exact ⟨done, _, rfl, iff_of_false hne Choice.noConfusion, fun h => absurd h hne⟩

/-- The callback has been cut short: the request is aborted. -/
theorem Asked.abort {e : Errno} {m : ℕ} (h : Asked all lost (.cut e m :: cs)) :
    Stopped all lost .abortedByCallback cs := by
  obtain ⟨done, rfl, -, -⟩ := h
  exact ⟨done, _, rfl, iff_of_false S3Status.noConfusion Choice.noConfusion,
    fun h => S3Status.noConfusion h⟩

/-- Returning `r` is truthful (`0` says that the transfer is whole) exactly if a transfer that was
completed has not been retried midway. -/
def TruthfulIffNotRetried (all : List Choice) (r : Int) (whole : Prop) : Prop :=
  (r = 0 → whole) ↔ (Completed all → ¬ RetriedMidway all)

/-- A call in front of the requests has failed. -/
theorem Sent.abort {e : Errno} (h : Sent all lost cur [.fail e]) (whole : Prop) :
    TruthfulIffNotRetried all (-1) whole := by
  obtain ⟨done, rfl, -, -⟩ := h
  refine iff_of_true (fun h => absurd h (by decide)) fun h => ?_
  exact absurd h (not_completed_concat Choice.noConfusion)

theorem Stopped.close_fail {status : S3Status} {e : Errno} (h : Stopped all lost status [.fail e])
    (whole : Prop) : TruthfulIffNotRetried all (-1) whole := by
  obtain ⟨done, c, rfl, -, -⟩ := h
  refine iff_of_true (fun h => absurd h (by decide)) fun h => ?_
  exact absurd (completed_concat.mp h).2 Choice.noConfusion

theorem Stopped.close {status : S3Status} {whole : Prop} (h : Stopped all lost status [.ok])
    (hwhole : status = .ok → (whole ↔ lost = 0)) :
    TruthfulIffNotRetried all (s3Return status) whole := by
  obtain ⟨done, c, rfl, hc, hmid⟩ := h
  by_cases hs : status = .ok
  · obtain rfl := hc.mp hs
    subst hs
    have hcompleted : Completed (done ++ [.ok, .ok]) := completed_concat.mpr ⟨rfl, rfl⟩
    have hall : RetriedMidway (done ++ [.ok, .ok]) ↔ 0 < lost := by
      have hstep : RetriedMidway ((done ++ [.ok]) ++ [.ok]) ↔ RetriedMidway (done ++ [.ok]) :=
        retriedMidway_concat_of_ne Choice.noConfusion
      rw [List.append_assoc] at hstep
      exact hstep.trans (hmid rfl)
    have hret : s3Return .ok = 0 := rfl
    rw [TruthfulIffNotRetried, hret, hall, Nat.not_lt, Nat.le_zero, hwhole rfl]
    exact ⟨fun h _ => h rfl, fun h _ => h hcompleted⟩
  · have hret : s3Return status = -1 := if_pos hs
    rw [hret]
    refine iff_of_true (fun h => absurd h (by decide)) fun h => ?_
    exact absurd (hc.mpr (completed_concat.mp h).1) hs

end

/-! ## The calls around the requests -/

section

variable {all : List Choice} {I W : World → Prop} {fd d : Fd}

/-- In front of the first request. -/
def Before (all : List Choice) (I : World → Prop) (t : World × List Choice) : Prop :=
  Sent all 0 0 t.2 ∧ I t.1

/-- A call in front of the requests has failed; the transfer returns `-1`. -/
def Aborted (all : List Choice) (t : World × List Choice) : Prop :=
  t.2 = [] → ∀ whole, TruthfulIffNotRetried all (-1) whole

theorem aborted_of_fail {w w' : World} {e : Errno} {ks : List Choice}
    (h : Before all I (w, .fail e :: ks)) : Aborted all (w', ks) := by
  intro hnil whole
  obtain ⟨hsent, -⟩ := h
  dsimp only at hnil hsent
  rw [hnil] at hsent
  exact hsent.abort _

theorem before_dup (hI : ∀ w n, I w → I { w with opened := n }) :
    Prog.Triple (Prog.scriptCalls exec) (Before all I) (.dup fd)
      (outcome (fun d t => d.ino = fd.ino ∧ Before all I t) (Aborted all)) := by
  refine Prog.triple_scripted fun w k ks r w' hP he => ?_
  rcases attempt_eq_some he with ⟨rfl, hx⟩ | ⟨e, rfl, hx⟩
  · obtain ⟨rfl, rfl⟩ := Prod.mk.inj hx
    exact ⟨rfl, hP.1.next plain_ok, hI _ _ hP.2⟩
  · obtain ⟨rfl, rfl⟩ := Prod.mk.inj hx
    exact aborted_of_fail hP

theorem before_fstat : Prog.Triple (Prog.scriptCalls exec) (Before all I) (.fstat d)
    (outcome (fun n t => n = (t.1.inode d.ino).data.length ∧ Before all I t) (Aborted all)) := by
  refine Prog.triple_scripted fun w k ks r w' hP he => ?_
  rcases attempt_eq_some he with ⟨rfl, hx⟩ | ⟨e, rfl, hx⟩
  · obtain ⟨rfl, rfl⟩ := Prod.mk.inj hx
    exact ⟨rfl, hP.1.next plain_ok, hP.2⟩
  · obtain ⟨rfl, rfl⟩ := Prod.mk.inj hx
    exact aborted_of_fail hP

theorem before_fdopen : Prog.Triple (Prog.scriptCalls exec) (Before all I) (.fdopen d)
    (outcome (fun _ => Before all I) (Aborted all)) := by
  refine Prog.triple_scripted fun w k ks r w' hP he => ?_
  rcases attempt_eq_some he with ⟨rfl, hx⟩ | ⟨e, rfl, hx⟩
  · obtain ⟨rfl, rfl⟩ := Prod.mk.inj hx
    exact ⟨hP.1.next plain_ok, hP.2⟩
  · obtain ⟨rfl, rfl⟩ := Prod.mk.inj hx
    exact aborted_of_fail hP

/-- After the last request: if it has been carried out, `W` holds just if no byte has been lost. -/
def After (all : List Choice) (W : World → Prop) (status : S3Status)
    (t : World × List Choice) : Prop :=
  ∃ lost, Stopped all lost status t.2 ∧ (status = .ok → (W t.1 ↔ lost = 0))

theorem after_fclose {status : S3Status} (hW : ∀ w l, W { w with closed := l } ↔ W w) :
    Prog.Triple (Prog.scriptCalls exec) (After all W status) (.fclose d)
      (outcome (fun _ t => t.2 = [] → TruthfulIffNotRetried all (s3Return status) (W t.1))
        (Aborted all)) := by
  refine Prog.triple_scripted fun w k ks r w' ⟨lost, hstopped, hlost⟩ he => ?_
  rcases attempt_eq_some he with ⟨rfl, hx⟩ | ⟨e, rfl, hx⟩
  · obtain ⟨rfl, rfl⟩ := Prod.mk.inj hx
    rintro rfl
    exact hstopped.close fun hok => (hW _ _).trans (hlost hok)
  · obtain ⟨rfl, rfl⟩ := Prod.mk.inj hx
    rintro rfl whole
    exact hstopped.close_fail whole

end

/-! ## Uploads -/

section

variable {all : List Choice} {d : Fd} {key content : Bytes}

/-- In front of a request: the stream stands where the failed requests have left it, and they have
left so much of the content to be sent. -/
def UploadAt (all : List Choice) (d : Fd) (content : Bytes) (data : S3PutObjectCallbackData)
    (t : World × List Choice) : Prop :=
  ∃ lost ≤ content.length, data = ⟨⟨d, lost⟩, content.length - lost⟩ ∧ Sent all lost 0 t.2 ∧
    (t.1.inode d.ino).data = content

/-- After a request: if it has been carried out, what the failed ones have left is stored. -/
def Uploaded (all : List Choice) (key content : Bytes) (status : S3Status)
    (t : World × List Choice) :
    Prop :=
  ∃ lost ≤ content.length, Stopped all lost status t.2 ∧
    (status = .ok → t.1.store key = some (content.drop lost))

/-- One request. -/
theorem wp_s3PutObject_retry (hread : ∀ e, .cut e 0 ∉ all) {data : S3PutObjectCallbackData}
    {t : World × List Choice} (ht : UploadAt all d content data t) :
    (s3PutObject key data).wp (Prog.scriptCalls exec) (fun a t => Uploaded all key content a.1 t ∧
      (a.1.isRetryable = true → UploadAt all d content a.2 t)) t := by
  obtain ⟨lost, hlost, rfl, hsent, hfile⟩ := ht
  -- in front of a callback, and after the buffer has been given
  let J : (ℕ → List Choice → Prop) → Bytes → S3PutObjectCallbackData → World × List Choice → Prop :=
    fun choices got data t => got <+: content.drop lost ∧
      data = ⟨⟨d, lost + got.length⟩, content.length - lost - got.length⟩ ∧ choices got.length t.2 ∧
      (t.1.inode d.ino).data = content
  -- a request that ends early
  have hearly : ∀ {got data w status ks}, J (Sent all lost) got data (w, .status status :: ks) →
      status ≠ .ok → Uploaded all key content status (w, ks) ∧
        (status.isRetryable = true → UploadAt all d content data (w, ks)) := by
    rintro got data w status ks ⟨hgot, rfl, hsent, hfile⟩ hne
    have hlen := hgot.length_le
    rw [List.length_drop] at hlen
    refine ⟨⟨lost, hlost, hsent.fail hne, fun h => absurd h hne⟩, fun hretry => ?_⟩
    obtain rfl : status = .retryable := by
      cases status <;> first | rfl | exact Bool.noConfusion hretry
    exact ⟨lost + got.length, by omega, by rw [Nat.sub_add_eq], hsent.retry, hfile⟩
  refine wp_s3PutObjectLoop (J := J (Sent all lost))
    (A := fun got data _ => J (fun _ => Asked all lost) got data)
    ?_ ?_ ?_ ?_ (by simp) ⟨List.nil_prefix, rfl, hsent, hfile⟩
  · rintro got data t ⟨-, rfl, -, -⟩ hlt
    exact Nat.sub_ne_zero_of_lt hlt
  · intro got data hlt
    refine Prog.triple_scripted fun w k ks r w' hJ he => ?_
    obtain ⟨rfl, ⟨size, rfl, rfl, hpos, hsize⟩ | ⟨status, rfl, hne, rfl⟩⟩ := exec_putBuffer he
    · exact ⟨size_mod_pos hpos hsize, hJ.1, hJ.2.1, hJ.2.2.1.ask, hJ.2.2.2⟩
    · exact hearly hJ hne
  · intro got data size hlt hne hsize
    refine Prog.triple_scripted fun w k ks r w' ⟨hgot, hdata, hasked, hfile⟩ he => ?_
    subst hdata
    dsimp only at hgot hasked hfile he hne
    -- the bytes that the read brings extend what has been sent, and there is at least one
    have hmore : ∀ m, 0 < m → r = readAt (w.inode d.ino).data (lost + got.length) m →
        Plain k → r ≠ [] ∧ J (Sent all lost) (got ++ r)
          (S3PutObjectCallbackData.advance
            ⟨⟨d, lost + got.length⟩, content.length - lost - got.length⟩
            r.length) (w, ks) := by
      intro m hm hr hk
      rw [hfile, ← readAt_drop] at hr
      have hrne : r ≠ [] := by
        rw [hr]
        exact readAt_ne_nil (by rw [List.length_drop]; exact hlt) hm
      refine ⟨hrne, ?_, ?_, ?_, hfile⟩
      · rw [hr]
        exact prefix_append_readAt hgot m
      · rw [S3PutObjectCallbackData.advance, List.length_append, Nat.sub_add_eq, Nat.add_assoc]
      · refine hasked.move hk ?_
        rw [List.length_append]
        exact Nat.add_pos_right _ (List.length_pos_of_ne_nil hrne)
    have htoRead := toRead_pos hsize (Nat.pos_of_ne_zero hne)
    obtain ⟨rfl, ⟨rfl, hr⟩ | ⟨e, m, rfl, hr⟩⟩ := exec_fread he
    · exact hmore _ htoRead hr plain_ok
    · refine hmore _ (Nat.lt_min.mpr ⟨?_, htoRead⟩) hr (plain_cut e m)
      obtain ⟨done, hall, -⟩ := hasked
      rcases Nat.eq_zero_or_pos m with rfl | hm
      · exact absurd (by rw [hall]; simp) (hread e)
      · exact hm
  · intro got data hle
    refine Prog.triple_scripted fun w k ks r w' hJ he => ?_
    rcases exec_putEnd he with ⟨rfl, rfl, rfl⟩ | ⟨rfl, hne, rfl⟩
    · obtain ⟨hgot, -, hsent, -⟩ := hJ
      have hall : got = content.drop lost :=
        hgot.eq_of_length_le (by rw [List.length_drop]; exact hle)
      rw [hall]
      refine ⟨⟨lost, hlost, hsent.stop, fun _ => ?_⟩, fun h => Bool.noConfusion h⟩
      exact World.store_put_self w key _
    · exact hearly hJ hne

/-- The verdict on an upload, for every way in which the calls can be answered. -/
theorem wp_s3Upload_retry (retries : Int) {fd : Fd} {objectId : Bytes} {w : World}
    {cs : List Choice} (hread : ∀ e, .cut e 0 ∉ cs) :
    (s3Upload retries fd objectId).wp (Prog.scriptCalls exec)
      (fun r t => t.2 = [] →
        TruthfulIffNotRetried cs r (t.1.store (cString objectId) = some (w.inode fd.ino).data))
          (w, cs) := by
  let I : World → Prop := fun v => (v.inode fd.ino).data = (w.inode fd.ino).data
  refine Prog.Triple.bind (before_dup (I := I) fun _ _ h => h) ⟨.start, rfl⟩ fun r t ht => ?_
  cases r with
  | error e => exact fun hnil => ht hnil _
  | ok d =>
  obtain ⟨hd, ht⟩ := ht
  refine Prog.Triple.bind before_fstat ht fun r t ht => ?_
  cases r with
  | error e => exact fun hnil => ht hnil _
  | ok n =>
  obtain ⟨hn, ht⟩ := ht
  refine Prog.Triple.bind before_fdopen ht fun r t' ht' => ?_
  cases r with
  | error e => exact fun hnil => ht' hnil _
  | ok u =>
  have hat : UploadAt cs d (w.inode fd.ino).data ⟨⟨d, 0⟩, n⟩ t' := by
    have hsize : n = (w.inode fd.ino).data.length := by
      rw [hn, hd]
      exact congrArg _ ht.2
    exact ⟨0, Nat.zero_le _, by rw [hsize]; rfl, ht'.1, by rw [hd]; exact ht'.2⟩
  refine Prog.wp_bind.mpr (Prog.wp_mono (wp_s3Retry
    (Q := fun a t => Uploaded cs (cString objectId) (w.inode fd.ino).data a.1 t)
    (fun _ _ h => wp_s3PutObject_retry hread h) hat) ?_)
  rintro ⟨status, data⟩ t ⟨lost, hlost, hstopped, hstored⟩
  have hafter : After cs (fun v => v.store (cString objectId) = some (w.inode fd.ino).data)
      status t := by
    refine ⟨lost, hstopped, fun hok => ?_⟩
    dsimp only
    rw [hstored hok, Option.some_inj]
    constructor
    · intro heq
      have := congrArg List.length heq
      rw [List.length_drop] at this
      omega
    · rintro rfl
      rfl
  refine Prog.Triple.bind (after_fclose fun _ _ => Iff.rfl) hafter fun r t ht => ?_
  cases r with
  | error e => exact fun hnil => ht hnil _
  | ok u => exact ht

/-- **When an upload that returns `0` has stored the whole content**, of a file that can be read: if
and only if no request has been retried midway, or the last request or the closing of the stream has
failed. -/
theorem s3Upload_whole_iff {retries r : Int} {fd : Fd} {objectId : Bytes} {w w' : World}
    {cs : List Choice} (hread : ∀ e, .cut e 0 ∉ cs)
    (hrun : (s3Upload retries fd objectId).runWith (Prog.scripted exec) (w, cs) =
      some (r, (w', []))) :
    (r = 0 → w'.store (cString objectId) = some (w.inode fd.ino).data) ↔
      (Completed cs → ¬ RetriedMidway cs) :=
  Prog.wp_of_runWith (K := Prog.scriptCalls exec) id (fun _ _ _ _ h => h)
    (wp_s3Upload_retry retries hread)
    hrun rfl

/-- A file of two bytes, read in two buffers. -/
theorem s3Upload_whole_twoBytes :
    ∃ w', (s3Upload 1 ⟨0, 0⟩ [1]).runWith (Prog.scripted exec)
        ({ inode := fun _ => { data := [7, 8] }, names := fun _ => none, store := fun _ => none },
          [.ok, .ok, .ok, .size 1, .ok, .size 1, .ok, .ok, .ok]) = some (0, (w', [])) ∧
      (((0 : Int) = 0 → w'.store (cString [1]) = some [7, 8]) ↔
        (Completed [.ok, .ok, .ok, .size 1, .ok, .size 1, .ok, .ok, .ok] →
          ¬ RetriedMidway [.ok, .ok, .ok, .size 1, .ok, .size 1, .ok, .ok, .ok])) :=
  (Exists.intro _ rfl : ∃ w', _ = some (_, (w', _))).imp fun _ hrun =>
    ⟨hrun, s3Upload_whole_iff (by simp) hrun⟩

/-- The first request fails with a retryable status after it has read one of two bytes; the second
one stores the other byte. -/
theorem not_s3Upload_whole :
    ¬ ∀ (retries : Int) (fd : Fd) (objectId : Bytes) (w w' : World) (cs : List Choice),
      (∀ c ∈ cs, c = .ok ∨ (∃ n, c = .size n) ∨ c = .status .retryable) →
      (s3Upload retries fd objectId).runWith (Prog.scripted exec) (w, cs) = some (0, (w', [])) →
      w'.store (cString objectId) = some (w.inode fd.ino).data := by
  intro h
  have hstored := h 2 ⟨0, 0⟩ [1]
    { inode := fun _ => { data := [7, 8] }, names := fun _ => none, store := fun _ => none } _
    [.ok, .ok, .ok, .size 1, .ok, .status .retryable, .size 1, .ok, .ok, .ok] (by simp) rfl
  exact absurd hstored (by decide)

end

/-! ## Downloads -/

section

variable {all : List Choice} {d : Fd} {key object orig : Bytes}

/-- In front of a request: what the failed requests have brought, `sent`, stands at the beginning of
the file, and the stream behind it. -/
def DownloadAt (all : List Choice) (d : Fd) (key object orig : Bytes) (file : Stream)
    (t : World × List Choice) : Prop :=
  ∃ sent : Bytes, file = ⟨d, sent.length⟩ ∧ Sent all sent.length 0 t.2 ∧
    (t.1.inode d.ino).data = writeAt orig 0 sent ∧ t.1.store key = some object

/-- After a request: if it has been carried out, the object stands behind what the failed ones have
brought. -/
def Downloaded (all : List Choice) (d : Fd) (object orig : Bytes) (status : S3Status)
    (t : World × List Choice) : Prop :=
  ∃ sent : Bytes, Stopped all sent.length status t.2 ∧
    (status = .ok → (t.1.inode d.ino).data = writeAt orig 0 (sent ++ object))

/-- One request. -/
theorem wp_s3GetObject_retry {file : Stream} {t : World × List Choice}
    (ht : DownloadAt all d key object orig file t) :
    (s3GetObject key file).wp (Prog.scriptCalls exec)
    (fun a t => Downloaded all d object orig a.1 t ∧
      (a.1.isRetryable = true → DownloadAt all d key object orig a.2 t)) t := by
  obtain ⟨sent, rfl, hsent, hfile, hobject⟩ := ht
  -- in front of a callback, and once a chunk is there
  let J : (ℕ → List Choice → Prop) → Bytes → Stream → World × List Choice → Prop :=
    fun choices rest file t => ∃ part, part ++ rest = object ∧ file = ⟨d, (sent ++ part).length⟩ ∧
      choices part.length t.2 ∧ (t.1.inode d.ino).data = writeAt orig 0 (sent ++ part) ∧
      t.1.store key = some object
  -- a request that ends early
  have hearly : ∀ {rest file w status ks}, J (Sent all sent.length) rest file
      (w, .status status :: ks) →
      status ≠ .ok → Downloaded all d object orig status (w, ks) ∧
        (status.isRetryable = true → DownloadAt all d key object orig file (w, ks)) := by
    rintro rest file w status ks ⟨part, -, rfl, hsent, hfile, hobject⟩ hne
    refine ⟨⟨sent, hsent.fail hne, fun h => absurd h hne⟩, fun hretry => ?_⟩
    obtain rfl : status = .retryable := by
      cases status <;> first | rfl | exact Bool.noConfusion hretry
    refine ⟨sent ++ part, rfl, ?_, hfile, hobject⟩
    rw [List.length_append]
    exact hsent.retry
  have hstart : ∀ {w ks}, Sent all sent.length 0 ks → (w.inode d.ino).data = writeAt orig 0 sent →
      w.store key = some object → J (Sent all sent.length) object ⟨d, sent.length⟩ (w, ks) := by
    intro w ks hsent hfile hobject
    exact ⟨[], rfl, by rw [List.append_nil], hsent, by rw [List.append_nil]; exact hfile, hobject⟩
  refine Prog.Triple.bind
    (P := fun t => Sent all sent.length 0 t.2 ∧ (t.1.inode d.ino).data = writeAt orig 0 sent ∧
      t.1.store key = some object)
    (Q := fun r t =>
      (∀ status, r = .error status → Downloaded all d object orig status t ∧
        (status.isRetryable = true → DownloadAt all d key object orig ⟨d, sent.length⟩ t)) ∧
      ∀ obj, r = .ok obj → obj = object ∧ J (Sent all sent.length) object ⟨d, sent.length⟩ t)
    (Prog.triple_scripted fun w k ks r w' hP he => ?_) ⟨hsent, hfile, hobject⟩ fun r t ht => ?_
  · obtain ⟨hsent, hfile, hobject⟩ := hP
    obtain ⟨rfl, ⟨obj, rfl, hobj, rfl⟩ | ⟨hnone, -⟩ | ⟨status, rfl, hne, rfl⟩⟩ := exec_getBegin he
    · refine ⟨fun status hstatus => absurd hstatus (by simp), fun obj' hobj' => ?_⟩
      obtain rfl := Except.ok.inj hobj'
      exact ⟨Option.some.inj (hobj.symm.trans hobject), hstart (hsent.next plain_ok) hfile hobject⟩
    · exact absurd (hnone.symm.trans hobject) (by simp)
    · refine ⟨fun status' hstatus' => ?_, fun obj' hobj' => absurd hobj' (by simp)⟩
      obtain rfl := Except.error.inj hstatus'
      exact hearly (hstart hsent hfile hobject) hne
  cases r with
  | error status => exact ht.1 status rfl
  | ok obj =>
  obtain ⟨rfl, hJ⟩ := ht.2 obj rfl
  refine wp_s3GetObjectLoop (J := J (Sent all sent.length))
    (G := fun rest file _ => J (fun _ => Asked all sent.length) rest file)
    ?_ ?_ ?_ (Nat.le_refl _) hJ
  · intro rest file hne
    refine Prog.triple_scripted fun w k ks r w' hJ he => ?_
    obtain ⟨rfl, ⟨n, rfl, rfl, hpos, -⟩ | ⟨status, rfl, hst, rfl⟩⟩ := exec_getChunk he
    · obtain ⟨part, hpart, hpos', hsent, hfile, hobject⟩ := hJ
      exact ⟨hpos, part, hpart, hpos', hsent.ask, hfile, hobject⟩
    · exact hearly hJ hst
  · intro rest file n hne hn
    refine Prog.triple_scripted fun w k ks wrote w'
      ⟨part, hpart, hpos, hasked, hfile, hobject⟩ he => ?_
    subst hpos
    dsimp only at hpart hasked hfile hobject he ⊢
    have hchunk : rest.take n ≠ [] := by
      rw [Ne, List.take_eq_nil_iff]
      rintro (rfl | rfl)
      · exact Nat.lt_irrefl 0 hn
      · exact hne rfl
    -- the whole chunk has been written
    have hwhole : ∀ bs, bs = rest.take n → Plain k → wrote = bs.length →
        w' = w.write d.ino (sent ++ part).length bs →
        J (Sent all sent.length) (rest.drop n) ⟨d, (sent ++ part).length + wrote⟩ (w', ks) := by
      rintro bs rfl hk rfl rfl
      refine ⟨part ++ rest.take n, ?_, ?_, ?_, ?_, hobject⟩
      · rw [List.append_assoc, List.take_append_drop, hpart]
      · exact congrArg (Stream.mk d) (by rw [← List.append_assoc]; exact List.length_append.symm)
      · refine hasked.move hk ?_
        rw [List.length_append]
        exact Nat.add_pos_right _ (List.length_pos_of_ne_nil hchunk)
      · dsimp only
        rw [World.write, World.inode_update_self, ← List.append_assoc, ← writeAt_append, ← hfile]
    rcases exec_fwrite he with ⟨rfl, rfl, rfl⟩ | ⟨e, m, rfl, rfl, rfl⟩
    · rw [if_neg (Nat.lt_irrefl _)]
      exact hwhole _ rfl plain_ok rfl rfl
    · split
      · exact ⟨⟨sent, hasked.abort, fun h => S3Status.noConfusion h⟩, fun h => Bool.noConfusion h⟩
      · next hfull =>
        have hall : (rest.take n).take m = rest.take n := by
          have hm : ((rest.take n).take m).length = min m (rest.take n).length := List.length_take
          rw [hm] at hfull
          exact List.take_of_length_le
            (Nat.le_of_not_lt fun hlt => hfull (Nat.lt_of_le_of_lt (Nat.min_le_left _ _) hlt))
        exact hwhole _ hall (plain_cut e m) rfl rfl
  · intro file
    refine Prog.triple_scripted fun w k ks r w' hJ he => ?_
    obtain ⟨rfl, ⟨rfl, rfl⟩ | ⟨rfl, hst⟩⟩ := exec_getEnd he
    · obtain ⟨part, hpart, -, hsent, hfile, -⟩ := hJ
      obtain rfl : part = obj := by rw [← hpart, List.append_nil]
      exact ⟨⟨sent, hsent.stop, fun _ => hfile⟩, fun h => Bool.noConfusion h⟩
    · exact hearly hJ hst

/-- The verdict on a download, for every way in which the calls can be answered. -/
theorem wp_s3Download_retry (retries : Int) {fd : Fd} {objectId : Bytes} {w : World}
    {cs : List Choice}
    (hobject : w.store (cString objectId) = some object)
    (hlen : (w.inode fd.ino).data.length = object.length) :
    (s3Download retries fd objectId).wp (Prog.scriptCalls exec)
      (fun r t => t.2 = [] → TruthfulIffNotRetried cs r ((t.1.inode fd.ino).data = object))
      (w, cs) := by
  let I : World → Prop := fun v => (v.inode fd.ino).data = (w.inode fd.ino).data ∧
    v.store (cString objectId) = some object
  refine Prog.Triple.bind (before_dup (I := I) fun _ _ h => h) ⟨.start, rfl,
    hobject⟩ fun r t ht => ?_
  cases r with
  | error e => exact fun hnil => ht hnil _
  | ok d =>
  obtain ⟨hd, ht⟩ := ht
  refine Prog.Triple.bind before_fdopen ht fun r t ht => ?_
  cases r with
  | error e => exact fun hnil => ht hnil _
  | ok u =>
  have hat : DownloadAt cs d (cString objectId) object (w.inode fd.ino).data ⟨d, 0⟩ t :=
    ⟨[], rfl, ht.1, by rw [writeAt_nil, hd]; exact ht.2.1, ht.2.2⟩
  refine Prog.wp_bind.mpr (Prog.wp_mono (wp_s3Retry
    (Q := fun a t => Downloaded cs d object (w.inode fd.ino).data a.1 t)
    (fun _ _ h => wp_s3GetObject_retry h) hat) ?_)
  rintro ⟨status, file⟩ t ⟨sent, hstopped, hwritten⟩
  have hafter : After cs (fun v => (v.inode fd.ino).data = object) status t := by
    refine ⟨sent.length, hstopped, fun hok => ?_⟩
    dsimp only
    have hle : (w.inode fd.ino).data.length ≤ (sent ++ object).length := by
      rw [hlen, List.length_append]
      omega
    rw [← hd, hwritten hok, writeAt_zero_of_le hle, List.append_left_eq_self,
      List.length_eq_zero_iff]
  refine Prog.Triple.bind (after_fclose fun _ _ => Iff.rfl) hafter fun r t ht => ?_
  cases r with
  | error e => exact fun hnil => ht hnil _
  | ok u => exact ht

/-- **When a download that returns `0` has brought exactly the object**, into a file of its length:
if and only if no request has been retried midway, or the last request or the closing of the stream
has failed. -/
theorem s3Download_whole_iff {retries r : Int} {fd : Fd} {objectId : Bytes} {w w' : World}
    {cs : List Choice} (hobject : w.store (cString objectId) = some object)
    (hlen : (w.inode fd.ino).data.length = object.length)
    (hrun : (s3Download retries fd objectId).runWith (Prog.scripted exec) (w, cs) =
      some (r, (w', []))) :
    (r = 0 → (w'.inode fd.ino).data = object) ↔ (Completed cs → ¬ RetriedMidway cs) :=
  Prog.wp_of_runWith (K := Prog.scriptCalls exec) id (fun _ _ _ _ h => h)
    (wp_s3Download_retry retries hobject hlen) hrun rfl

/-- An object of two bytes, delivered in one chunk. -/
theorem s3Download_whole_twoBytes :
    ∃ w', (s3Download 1 ⟨0, 0⟩ [1]).runWith (Prog.scripted exec)
        ({ inode := fun _ => { data := [0, 0] }, names := fun _ => none,
            store := fun _ => some [7, 8] }, [.ok, .ok, .ok, .size 4, .ok, .ok, .ok]) =
          some (0, (w', [])) ∧
      (((0 : Int) = 0 → (w'.inode (Fd.mk 0 0).ino).data = [7, 8]) ↔
        (Completed [.ok, .ok, .ok, .size 4, .ok, .ok, .ok] →
          ¬ RetriedMidway [.ok, .ok, .ok, .size 4, .ok, .ok, .ok])) :=
  (Exists.intro _ rfl : ∃ w', _ = some (_, (w', _))).imp fun _ hrun =>
    ⟨hrun, s3Download_whole_iff rfl rfl hrun⟩

/-- The first request fails with a retryable status after it has delivered one of two bytes; the
second one writes the object behind that byte. -/
theorem not_s3Download_whole :
    ¬ ∀ (retries : Int) (fd : Fd) (objectId object : Bytes) (w w' : World) (cs : List Choice),
      w.store (cString objectId) = some object → (w.inode fd.ino).data.length = object.length →
      (∀ c ∈ cs, c = .ok ∨ (∃ n, c = .size n) ∨ c = .status .retryable) →
      (s3Download retries fd objectId).runWith (Prog.scripted exec) (w, cs) = some (0, (w', [])) →
      (w'.inode fd.ino).data = object := by
  intro h
  have hwritten := h 2 ⟨0, 0⟩ [1] [7, 8]
    { inode := fun _ => { data := [0, 0] }, names := fun _ => none, store := fun _ =>
      some [7, 8] } _
    [.ok, .ok, .ok, .size 1, .ok, .status .retryable, .ok, .size 2, .ok, .ok, .ok] rfl rfl
      (by simp) rfl
  exact absurd hwritten (by decide)

end

end App

end CloudTiering
