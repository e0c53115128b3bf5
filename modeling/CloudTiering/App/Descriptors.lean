import CloudTiering.App.ReturnCodes

/-!
# The descriptors of the daemon

`upload_file` and `download_file` open the file; `s3_upload` and `s3_download` duplicate the
descriptor and make a stream of the duplicate.  The duplicate is closed together with the stream, so
that it is lost where there is no stream yet.

* `Outstanding`: which descriptors are still to be closed.
* `ClosesOnce`: what was opened has been closed, once.
* `DuplicateLost`: `fstat` or `fdopen` of the duplicate has failed.
* `descriptorUpload`, `descriptorDownload`: the outlines.
* `closesOnce_iff`: everything is closed just if no duplicate is lost.
-/

namespace CloudTiering

open Foundations

namespace App

/-! ## The books -/

/-- Every descriptor opened since `w₀` has been closed once, but for those of the list `l`, and no
other one has been closed. -/
structure Outstanding (w₀ w : World) (l : List ℕ) : Prop where
  le : w₀.opened ≤ w.opened
  mem : ∀ n ∈ l, w₀.opened ≤ n ∧ n < w.opened
  count : ∀ n, w.closed.count n + l.count n =
    w₀.closed.count n + if w₀.opened ≤ n ∧ n < w.opened then 1 else 0

/-- Every descriptor opened since `w₀` has been closed exactly once. -/
def ClosesOnce (w₀ w : World) : Prop := ∀ n, w₀.opened ≤ n → n < w.opened →
  w.closed.count n = w₀.closed.count n + 1

section

variable {w₀ w w' : World} {l l' : List ℕ}

theorem Outstanding.refl (w : World) : Outstanding w w [] := by
  refine ⟨Nat.le_refl _, fun _ h => absurd h List.not_mem_nil, fun n => ?_⟩
  rw [if_neg (by omega)]
  rfl

/-- A call that neither opens nor closes. -/
theorem Outstanding.same (h : Outstanding w₀ w l) (hopened : w'.opened = w.opened)
    (hclosed : w'.closed = w.closed) : Outstanding w₀ w' l := by
  constructor
  · rw [hopened]
    exact h.le
  · rw [hopened]
    exact h.mem
  · rw [hopened, hclosed]
    exact h.count

/-- A new descriptor. -/
theorem Outstanding.opened (h : Outstanding w₀ w l) (hopened : w'.opened = w.opened + 1)
    (hclosed : w'.closed = w.closed) : Outstanding w₀ w' (w.opened :: l) := by
  have hle := h.le
  constructor
  · omega
  · intro n hn
    rcases List.mem_cons.mp hn with rfl | hn
    · exact ⟨hle, by omega⟩
    · obtain ⟨hlo, hhi⟩ := h.mem n hn
      exact ⟨hlo, by omega⟩
  · intro n
    have hn := h.count n
    rw [hopened, hclosed, List.count_cons]
    by_cases heq : w.opened = n
    · subst heq
      rw [if_neg (by omega)] at hn
      rw [if_pos (beq_self_eq_true _), if_pos ⟨hle, Nat.lt_succ_self _⟩]
      omega
    · rw [if_neg (c := (w.opened == n) = true) (by simpa using heq)]
      have hiff : w₀.opened ≤ n ∧ n < w.opened + 1 ↔ w₀.opened ≤ n ∧ n < w.opened := by omega
      simp only [hiff]
      exact hn

/-- A descriptor is closed. -/
theorem Outstanding.closed {n : ℕ} (h : Outstanding w₀ w (n :: l)) (hopened : w'.opened = w.opened)
    (hclosed : w'.closed = n :: w.closed) : Outstanding w₀ w' l := by
  constructor
  · rw [hopened]
    exact h.le
  · intro m hm
    rw [hopened]
    exact h.mem m (List.mem_cons_of_mem n hm)
  · intro m
    have hm := h.count m
    rw [List.count_cons] at hm
    rw [hopened, hclosed, List.count_cons]
    omega

theorem Outstanding.swap {m n : ℕ} (h : Outstanding w₀ w (m :: n :: l)) :
    Outstanding w₀ w (n :: m :: l) := by
  have hperm : (m :: n :: l).Perm (n :: m :: l) := List.Perm.swap n m l
  exact ⟨h.le, fun k hk => h.mem k (hperm.mem_iff.mpr hk),
    fun k => by rw [← hperm.count_eq k]; exact h.count k⟩

/-- Everything has been closed just if nothing is outstanding. -/
theorem Outstanding.closesOnce_iff_nil (h : Outstanding w₀ w l) : ClosesOnce w₀ w ↔ l = [] := by
  constructor
  · intro hcloses
    refine List.eq_nil_iff_forall_not_mem.mpr fun n hn => ?_
    obtain ⟨hlo, hhi⟩ := h.mem n hn
    have hpos := List.count_pos_iff.mpr hn
    have hcount := h.count n
    rw [if_pos ⟨hlo, hhi⟩, hcloses n hlo hhi] at hcount
    omega
  · rintro rfl n hle hlt
    have hcount := h.count n
    rw [if_pos ⟨hle, hlt⟩] at hcount
    exact hcount

/-! ## The calls -/

/-- The calls of the daemon that neither open nor close a descriptor. -/
def keepsDescriptors : Call → Bool
  | .fsetxattr .. | .fgetxattr .. | .fremovexattr .. | .fstat _ | .ftruncate .. | .fdopen _ => true
  | c => isRequestCall c

theorem exec_keepsDescriptors {ch : Choice} {c : Call} {r : Rep c} (hc : keepsDescriptors c = true)
    (h : exec w ch c = some (r, w')) : w'.opened = w.opened ∧ w'.closed = w.closed := by
  cases c with
  | fsetxattr fd x v flag =>
    cases flag with
    | create => rcases exec_fsetxattr_create h with ⟨-, -, rfl⟩
    | ⟨e, -, rfl, -⟩ <;> exact ⟨rfl, rfl⟩
    | replace => rcases exec_fsetxattr_replace h with ⟨-, -, rfl⟩
    | ⟨e, -, rfl, -⟩ <;> exact ⟨rfl, rfl⟩
  | fgetxattr fd x n => rw [(exec_fgetxattr h).1]; exact ⟨rfl, rfl⟩
  | fremovexattr fd x => rcases exec_fremovexattr h with ⟨-, -, rfl⟩
  | ⟨e, -, rfl, -⟩ <;> exact ⟨rfl, rfl⟩
  | fstat fd => rw [(exec_fstat h).1]; exact ⟨rfl, rfl⟩
  | ftruncate fd n => rcases exec_ftruncate h with ⟨-, rfl⟩ | ⟨e, -, -, rfl⟩ <;> exact ⟨rfl, rfl⟩
  | fdopen fd => rw [(exec_fdopen h).1]; exact ⟨rfl, rfl⟩
  | fread fd pos n => rw [(exec_fread h).1]; exact ⟨rfl, rfl⟩
  | fwrite fd pos bs => rcases exec_fwrite h with ⟨-, -, rfl⟩
  | ⟨e, m, -, -, rfl⟩ <;> exact ⟨rfl, rfl⟩
  | putBuffer => rw [(exec_putBuffer h).1]; exact ⟨rfl, rfl⟩
  | putEnd key got => rcases exec_putEnd h with ⟨-, -, rfl⟩ | ⟨-, -, rfl⟩ <;> exact ⟨rfl, rfl⟩
  | getBegin key => rw [(exec_getBegin h).1]; exact ⟨rfl, rfl⟩
  | getChunk => rw [(exec_getChunk h).1]; exact ⟨rfl, rfl⟩
  | getEnd => rw [(exec_getEnd h).1]; exact ⟨rfl, rfl⟩
  | _ => exact absurd hc Bool.false_ne_true

end

/-! ## What the record says -/

/-- `fstat` or `fdopen` of a duplicate has failed. -/
def DuplicateLost (log : Log) : Prop := ∃ fd d, d ≠ fd ∧ (.dup fd, true) ∈ log ∧
  ((.fstat d, false) ∈ log ∨ (.fdopen d, false) ∈ log)

/-- Calls other than these make no difference to that. -/
def Indifferent (e : Call × Bool) : Prop :=
  (∀ fd, e ≠ (.dup fd, true)) ∧ ∀ fd, e ≠ (.fstat fd, false) ∧ e ≠ (.fdopen fd, false)

theorem duplicateLost_concat {log : Log} {e : Call × Bool} (he : Indifferent e) :
    DuplicateLost (log ++ [e]) ↔ DuplicateLost log := by
  refine exists_congr fun fd => exists_congr fun d => and_congr_right fun _ => ?_
  simp only [List.mem_append, List.mem_singleton]
  exact and_congr (or_iff_left fun h => he.1 fd h.symm)
    (or_congr (or_iff_left fun h => (he.2 d).1 h.symm) (or_iff_left fun h => (he.2 d).2 h.symm))

/-- Only `fd` has been duplicated. -/
def DupsOf (fd : Fd) (log : Log) : Prop := ∀ fd' b, (.dup fd', b) ∈ log → fd' = fd

theorem DupsOf.concat {fd : Fd} {log : Log} {e : Call × Bool} (h : DupsOf fd log)
    (he : ∀ fd' b, e = (.dup fd', b) → fd' = fd) : DupsOf fd (log ++ [e]) := by
  intro fd' b hb
  rcases List.mem_append.mp hb with hb | hb
  · exact h fd' b hb
  · exact he fd' b (List.mem_singleton.mp hb).symm

/-- No descriptor has been duplicated, and neither `fstat` nor `fdopen` has been called. -/
def NoTransfer (log : Log) : Prop :=
  ∀ fd b, (.dup fd, b) ∉ log ∧ (.fstat fd, b) ∉ log ∧ (.fdopen fd, b) ∉ log

theorem NoTransfer.concat {log : Log} {e : Call × Bool} (h : NoTransfer log)
    (he : ∀ fd b, e ≠ (.dup fd, b) ∧ e ≠ (.fstat fd, b) ∧ e ≠ (.fdopen fd, b)) :
    NoTransfer (log ++ [e]) := by
  intro fd b
  simp only [List.mem_append, List.mem_singleton, not_or]
  exact ⟨⟨(h fd b).1, fun hb => (he fd b).1 hb.symm⟩,
    ⟨(h fd b).2.1, fun hb => (he fd b).2.1 hb.symm⟩,
    (h fd b).2.2, fun hb => (he fd b).2.2 hb.symm⟩

theorem NoTransfer.not_lost {log : Log} (h : NoTransfer log) : ¬ DuplicateLost log := by
  rintro ⟨fd, d, -, hdup, -⟩
  exact (h fd true).1 hdup

theorem NoTransfer.dupsOf {log : Log} (h : NoTransfer log) (fd : Fd) : DupsOf fd log :=
  fun fd' b hb => absurd hb (h fd' b).1

/-! ## The transfers -/

section

variable {w₀ w w' : World} {fd d : Fd} {log : Log} {e : Call × Bool} {t : World × Log}

/-- In front of the transfer: the file is open. -/
structure Opened (w₀ : World) (fd : Fd) (t : World × Log) : Prop where
  outstanding : Outstanding w₀ t.1 [fd.num]
  noTransfer : NoTransfer t.2

/-- In the transfer: the file is open, and so is the duplicate. -/
structure Duplicated (w₀ : World) (fd d : Fd) (t : World × Log) : Prop where
  outstanding : Outstanding w₀ t.1 [d.num, fd.num]
  ne : d ≠ fd
  dup : (.dup fd, true) ∈ t.2
  dups : DupsOf fd t.2
  kept : ¬ DuplicateLost t.2

/-- Behind the transfer: the file is open, and a duplicate has been lost just if the record says
so. -/
structure Owns (w₀ : World) (fd : Fd) (t : World × Log) : Prop where
  outstanding : ∃ lost, Outstanding w₀ t.1 (fd.num :: lost) ∧ (lost = [] ↔ ¬ DuplicateLost t.2)
  dups : DupsOf fd t.2

/-- A call that has to do with no descriptor. -/
theorem Opened.next (h : Opened w₀ fd (w, log)) (hw : w'.opened = w.opened ∧ w'.closed = w.closed)
    (he : ∀ fd b, e ≠ (.dup fd, b) ∧ e ≠ (.fstat fd, b) ∧ e ≠ (.fdopen fd, b)) :
    Opened w₀ fd (w', log ++ [e]) :=
  ⟨h.outstanding.same hw.1 hw.2, h.noTransfer.concat he⟩

theorem Opened.owns (h : Opened w₀ fd t) : Owns w₀ fd t :=
  ⟨⟨[], h.outstanding, iff_of_true rfl h.noTransfer.not_lost⟩, h.noTransfer.dupsOf fd⟩

theorem Duplicated.next (h : Duplicated w₀ fd d (w, log))
    (hw : w'.opened = w.opened ∧ w'.closed = w.closed)
    (he : Indifferent e) (hdup : ∀ fd' b, e ≠ (.dup fd', b)) :
    Duplicated w₀ fd d (w', log ++ [e]) :=
  ⟨h.outstanding.same hw.1 hw.2, h.ne, List.mem_append_left _ h.dup,
    h.dups.concat fun fd' b heq => absurd heq (hdup fd' b), fun hl =>
      h.kept ((duplicateLost_concat he).mp hl)⟩

/-- The duplicate has not become a stream, and nobody closes it. -/
theorem Duplicated.lost (h : Duplicated w₀ fd d (w, log))
    (hw : w'.opened = w.opened ∧ w'.closed = w.closed)
    (he : e = (.fstat d, false) ∨ e = (.fdopen d, false)) : Owns w₀ fd (w', log ++ [e]) := by
  refine ⟨⟨[d.num], (h.outstanding.same hw.1 hw.2).swap,
    iff_of_false (by simp) fun hno => hno ?_⟩, ?_⟩
  · refine ⟨fd, d, h.ne, List.mem_append_left _ h.dup, ?_⟩
    rcases he with rfl | rfl
    · exact .inl (List.mem_append_right _ List.mem_cons_self)
    · exact .inr (List.mem_append_right _ List.mem_cons_self)
  · refine h.dups.concat fun fd' b heq => ?_
    rcases he with rfl | rfl
    · exact absurd heq (by simp)
    · exact absurd heq (by simp)

/-- The stream is closed. -/
theorem Duplicated.fclose (h : Duplicated w₀ fd d (w, log))
    (hw : w' = { w with closed := d.num :: w.closed }) (b : Bool) :
    Owns w₀ fd (w', log ++ [(.fclose d, b)]) := by
  subst hw
  have hindifferent : Indifferent (.fclose d, b) := ⟨by simp, by simp⟩
  refine ⟨⟨[], h.outstanding.closed rfl rfl, iff_of_true rfl ?_⟩, h.dups.concat (by simp)⟩
  exact fun hl => h.kept ((duplicateLost_concat hindifferent).mp hl)

theorem Owns.next (h : Owns w₀ fd (w, log)) (hw : w'.opened = w.opened ∧ w'.closed = w.closed)
    (he : Indifferent e) (hdup : ∀ fd' b, e ≠ (.dup fd', b)) : Owns w₀ fd (w', log ++ [e]) := by
  obtain ⟨⟨lost, ho, hl⟩, hd⟩ := h
  refine ⟨⟨lost, ho.same hw.1 hw.2, ?_⟩, hd.concat fun fd' b heq => absurd heq (hdup fd' b)⟩
  rw [duplicateLost_concat he]
  exact hl

/-- The file is closed. -/
theorem Owns.close (h : Owns w₀ fd (w, log)) (hw : w' = { w with closed := fd.num :: w.closed })
    (b : Bool) :
    ClosesOnce w₀ w' ↔ ¬ DuplicateLost (log ++ [(.closeFile fd, b)]) := by
  subst hw
  obtain ⟨⟨lost, ho, hl⟩, -⟩ := h
  have hclosed : Outstanding w₀ { w with closed := fd.num :: w.closed } lost := ho.closed rfl rfl
  rw [duplicateLost_concat ⟨by simp, by simp⟩, ← hl]
  exact hclosed.closesOnce_iff_nil

/-- Any reading of the calls with a record. -/
abbrev recordedCalls : Calls Call Rep (World × Log) := loggedCalls fun _ => True

/-- The descriptor is duplicated. -/
theorem triple_dup : Prog.Triple recordedCalls (Opened w₀ fd) (.dup fd)
    fun r t => match r with
      | .ok d => Duplicated w₀ fd d t
      | .error _ => Owns w₀ fd t :=
  triple_logged fun w log ch r w' h he _ => by
    rcases exec_dup he with ⟨rfl, rfl⟩ | ⟨e, rfl, rfl, rfl⟩
    · rw [carriedOut_of_attempt_ok he]
      have hlt := (h.outstanding.mem fd.num List.mem_cons_self).2
      refine ⟨h.outstanding.opened rfl rfl, ?_, by simp,
        (h.noTransfer.dupsOf fd).concat (by simp), ?_⟩
      · intro heq
        rw [← heq] at hlt
        exact absurd hlt (Nat.lt_irrefl _)
      · -- nothing has failed yet
        rintro ⟨fd', d', -, -, hfail⟩
        simp only [List.mem_append, List.mem_singleton] at hfail
        rcases hfail with (hfail | hfail) | (hfail | hfail)
        · exact (h.noTransfer d' false).2.1 hfail
        · exact absurd hfail (by simp)
        · exact (h.noTransfer d' false).2.2 hfail
        · exact absurd hfail (by simp)
    · refine ⟨⟨[], h.outstanding, iff_of_true rfl ?_⟩, (h.noTransfer.dupsOf fd).concat (by simp)⟩
      rw [duplicateLost_concat ⟨by simp [CarriedOut], by simp⟩]
      exact h.noTransfer.not_lost

/-- A stream is made of the duplicate. -/
theorem triple_fdopen : Prog.Triple recordedCalls (Duplicated w₀ fd d) (.fdopen d)
    fun r t => match r with
      | .ok _ => Duplicated w₀ fd d t
      | .error _ => Owns w₀ fd t :=
  triple_logged fun w log ch r w' h he _ => by
    have hw := exec_keepsDescriptors rfl he
    rcases attempt_eq_some he with ⟨rfl, hx⟩ | ⟨e, rfl, hx⟩
    · obtain ⟨rfl, -⟩ := Prod.mk.inj hx
      exact h.next hw ⟨by simp, by simp [CarriedOut]⟩ (by simp)
    · obtain ⟨rfl, -⟩ := Prod.mk.inj hx
      exact h.lost hw (.inr rfl)

/-- The length of the duplicate is asked for. -/
theorem triple_fstat : Prog.Triple recordedCalls (Duplicated w₀ fd d) (.fstat d)
    fun r t => match r with
      | .ok _ => Duplicated w₀ fd d t
      | .error _ => Owns w₀ fd t :=
  triple_logged fun w log ch r w' h he _ => by
    have hw := exec_keepsDescriptors rfl he
    rcases attempt_eq_some he with ⟨rfl, hx⟩ | ⟨e, rfl, hx⟩
    · obtain ⟨rfl, -⟩ := Prod.mk.inj hx
      exact h.next hw ⟨by simp, by simp [CarriedOut]⟩ (by simp)
    · obtain ⟨rfl, -⟩ := Prod.mk.inj hx
      exact h.lost hw (.inl rfl)

/-- The requests and the closing of the stream. -/
theorem wp_stream {α β : Type} {requests : Sys α} {f : α → Except Errno Unit → Sys β}
    {t : World × Log}
    (hcalls : requests.AllCalls fun c => isRequestCall c = true) (h : Duplicated w₀ fd d t)
    (hf : ∀ a r, ∃ b, f a r = pure b) :
    (requests >>= fun a => sys (.fclose d) >>= f a).wp recordedCalls (fun _ => Owns w₀ fd) t := by
  refine Prog.wp_bind.mpr (Prog.wp_mono (Prog.wp_of_allCalls_keep (I := Duplicated w₀ fd d) hcalls
    (fun _ _ _ _ => trivial) ?_ h) fun a t ht => ?_)
  · rintro ⟨w, log⟩ c r ⟨w', log'⟩ hc hd ⟨ch, he, hlog, -⟩
    dsimp only at hlog
    rw [hlog]
    have hkeeps : keepsDescriptors c = true := by
      cases c <;> first | rfl | exact absurd hc Bool.false_ne_true
    have hno : ∀ c', isRequestCall c' = false → ∀ b b' : Bool, (c, b) ≠ (c', b') := by
      rintro c' hc' b b' heq
      rw [(Prod.mk.inj heq).1, hc'] at hc
      exact Bool.false_ne_true hc
    exact hd.next (exec_keepsDescriptors hkeeps he)
      ⟨fun _ => hno _ rfl _ _, fun _ => ⟨hno _ rfl _ _, hno _ rfl _ _⟩⟩ fun _ _ => hno _ rfl _ _
  · refine Prog.Triple.bind (P := Duplicated w₀ fd d) (Q := fun _ => Owns w₀ fd) ?_ ht
      fun r t ht => ?_
    · exact triple_logged fun w log ch r w' hd he _ => hd.fclose (exec_fclose he).1 (CarriedOut ch)
    · obtain ⟨b, hb⟩ := hf a r
      rw [hb]
      exact ht

theorem wp_s3Upload_owns (retries : Int) (objectId : Bytes) (h : Opened w₀ fd t) :
    (s3Upload retries fd objectId).wp recordedCalls (fun _ => Owns w₀ fd) t := by
  refine triple_dup.bind h fun r t ht => ?_
  cases r with
  | error e => exact ht
  | ok d =>
    refine triple_fstat.bind ht fun r t ht => ?_
    cases r with
    | error e => exact ht
    | ok n =>
      refine triple_fdopen.bind ht fun r t ht => ?_
      cases r with
      | error e => exact ht
      | ok u =>
        refine wp_stream (allCalls_s3Retry (fun _ => allCalls_s3PutObjectLoop _ _ _ _ _) _ _) ht ?_
        rintro a (e | u)
        · exact ⟨_, rfl⟩
        · exact ⟨_, rfl⟩

theorem wp_s3Download_owns (retries : Int) (objectId : Bytes) (h : Opened w₀ fd t) :
    (s3Download retries fd objectId).wp recordedCalls (fun _ => Owns w₀ fd) t := by
  refine triple_dup.bind h fun r t ht => ?_
  cases r with
  | error e => exact ht
  | ok d =>
    refine triple_fdopen.bind ht fun r t ht => ?_
    cases r with
    | error e => exact ht
    | ok u =>
      refine wp_stream (allCalls_s3Retry (allCalls_s3GetObject _) _ _) ht ?_
      rintro a (e | u)
      · exact ⟨_, rfl⟩
      · exact ⟨_, rfl⟩

/-! ## The operations -/

/-- The calls on attributes and on the length of the file. -/
def isFileCall : Call → Bool
  | .fsetxattr .. | .fgetxattr .. | .fremovexattr .. | .ftruncate .. => true
  | _ => false

theorem keepsDescriptors_of_isFileCall {c : Call} (h : isFileCall c = true) :
    keepsDescriptors c = true := by
  cases c <;> first | rfl | exact absurd h Bool.false_ne_true

/-- Such a call is none of those that the record is asked for. -/
theorem ne_of_isFileCall {c c' : Call} (h : isFileCall c = true) (h' : isFileCall c' = false)
    (b b' : Bool) :
    (c, b) ≠ (c', b') := by
  rintro heq
  rw [(Prod.mk.inj heq).1, h'] at h
  exact Bool.false_ne_true h

theorem triple_opened {c : Call} {Q : Rep c → World × Log → Prop} (hc : isFileCall c = true)
    (hQ : ∀ r t, Opened w₀ fd t → Q r t) : Prog.Triple recordedCalls (Opened w₀ fd) c Q :=
  triple_logged fun _ _ _ r _ h he _ => hQ r _ (h.next
    (exec_keepsDescriptors (keepsDescriptors_of_isFileCall hc) he) fun _ _ =>
      ⟨ne_of_isFileCall hc rfl _ _, ne_of_isFileCall hc rfl _ _, ne_of_isFileCall hc rfl _ _⟩)

theorem triple_owns {c : Call} {Q : Rep c → World × Log → Prop} (hc : isFileCall c = true)
    (hQ : ∀ r t, Owns w₀ fd t → Q r t) : Prog.Triple recordedCalls (Owns w₀ fd) c Q :=
  triple_logged fun _ _ _ r _ h he _ => hQ r _ (h.next
    (exec_keepsDescriptors (keepsDescriptors_of_isFileCall hc) he)
      ⟨fun _ => ne_of_isFileCall hc rfl _ _,
        fun _ => ⟨ne_of_isFileCall hc rfl _ _, ne_of_isFileCall hc rfl _ _⟩⟩
      fun _ _ => ne_of_isFileCall hc rfl _ _)

/-- The length of the file itself is asked for: whether that fails makes no difference. -/
theorem triple_owns_fstat : Prog.Triple recordedCalls (Owns w₀ fd) (.fstat fd) fun _ =>
    Owns w₀ fd :=
  triple_logged fun w log ch r w' h he _ => by
    obtain ⟨⟨lost, ho, hl⟩, hd⟩ := h
    have hw := exec_keepsDescriptors rfl he
    have hdups : DupsOf fd (log ++ [(.fstat fd, CarriedOut ch)]) := hd.concat (by simp)
    refine ⟨⟨lost, ho.same hw.1 hw.2, hl.trans (not_congr ?_)⟩, hdups⟩
    constructor
    · rintro ⟨fd', d, hne, hdup, hfail⟩
      exact ⟨fd', d, hne, List.mem_append_left _ hdup,
        hfail.imp (List.mem_append_left _) (List.mem_append_left _)⟩
    · rintro ⟨fd', d, hne, hdup, hfail⟩
      obtain rfl := hdups fd' true hdup
      simp only [List.mem_append, List.mem_singleton] at hdup hfail
      refine ⟨fd', d, hne, hdup.resolve_right (by simp), ?_⟩
      rcases hfail with (hfail | hfail) | (hfail | hfail)
      · exact .inl hfail
      · exact absurd (Call.fstat.inj (Prod.mk.inj hfail).1) hne
      · exact .inr hfail
      · exact absurd hfail (by simp)

/-- The file is opened. -/
theorem triple_open {path : Bytes} : Prog.Triple recordedCalls
    (fun t => Outstanding w₀ t.1 [] ∧ NoTransfer t.2) (.openFile path)
    (outcome (fun fd => Opened w₀ fd) fun t => ClosesOnce w₀ t.1 ↔ ¬ DuplicateLost t.2) :=
  triple_logged fun w log ch r w' ⟨ho, hno⟩ he _ => by
    have hnext : NoTransfer (log ++ [(.openFile path, CarriedOut ch)]) := hno.concat (by simp)
    rcases exec_openFile he with ⟨i, -, rfl, rfl⟩ | ⟨e, rfl, rfl⟩
    · exact ⟨ho.opened rfl rfl, hnext⟩
    · exact iff_of_true (ho.closesOnce_iff_nil.mpr rfl) hnext.not_lost

/-- The file is closed. -/
theorem triple_close : Prog.Triple recordedCalls (Owns w₀ fd) (.closeFile fd)
    fun _ t => ClosesOnce w₀ t.1 ↔ ¬ DuplicateLost t.2 :=
  triple_logged fun w log ch r w' h he _ => by
    refine h.close ?_ (CarriedOut ch)
    rcases attempt_eq_some he with ⟨-, hx⟩ | ⟨e, -, hx⟩
    · exact (Prod.mk.inj hx).2
    · exact (Prod.mk.inj hx).2

/-- The descriptors of an upload. -/
def descriptorUpload (retries : Int) (path buf : Bytes) (w₀ : World) :
    UploadOutline recordedCalls (s3Ops retries) path buf
      fun _ _ t => ClosesOnce w₀ t.1 ↔ ¬ DuplicateLost t.2 where
  start t := Outstanding w₀ t.1 [] ∧ NoTransfer t.2
  opened fd := Opened w₀ fd
  locked fd := Opened w₀ fd
  isLocal fd := Opened w₀ fd
  stored fd := Owns w₀ fd
  named fd := Owns w₀ fd
  stubbed fd := Owns w₀ fd
  sized fd _ := Owns w₀ fd
  emptied fd _ := Owns w₀ fd
  undo fd := Owns w₀ fd
  undoStub fd := Owns w₀ fd
  undoId fd := Owns w₀ fd
  leaving fd _ _ := Owns w₀ fd
  closing fd _ _ := Owns w₀ fd
  openFile := triple_open
  lock _ := triple_opened rfl fun r t ht => by
    cases r with
    | ok u => exact ht
    | error e => exact ht.owns
  check _ := triple_opened rfl fun r t ht => by
    cases r with
    | ok v => exact ht.owns
    | error e => cases e <;> exact ht
  upload fd t ht := Prog.wp_mono (wp_s3Upload_owns retries _ ht) fun r t ht => by split <;> exact ht
  setId _ := triple_owns rfl fun r t ht => by cases r <;> exact ht
  setStub _ := triple_owns rfl fun r t ht => by cases r <;> exact ht
  fstat _ := triple_owns_fstat.mono fun r t ht => by cases r <;> exact ht
  empty _ _ := triple_owns rfl fun r t ht => by cases r <;> exact ht
  extend _ _ := triple_owns rfl fun r t ht => by cases r <;> exact ht
  removeIdUndo _ := triple_owns rfl fun _ _ ht => ht
  removeStub _ := triple_owns rfl fun _ _ ht => ht
  removeId _ := triple_owns rfl fun _ _ ht => ht
  unlock _ _ _ := triple_owns rfl fun _ _ ht => ht
  close _ _ _ := triple_close

/-- The descriptors of a download. -/
def descriptorDownload (retries : Int) (path : Bytes) (w₀ : World) :
    DownloadOutline recordedCalls (s3Ops retries) path
      fun _ t => ClosesOnce w₀ t.1 ↔ ¬ DuplicateLost t.2 where
  start t := Outstanding w₀ t.1 [] ∧ NoTransfer t.2
  opened fd := Opened w₀ fd
  locked fd := Opened w₀ fd
  remote fd := Opened w₀ fd
  known fd _ := Opened w₀ fd
  loaded fd := Owns w₀ fd
  unstubbed fd := Owns w₀ fd
  leaving fd _ := Owns w₀ fd
  closing fd _ := Owns w₀ fd
  openFile := triple_open
  lock _ := triple_opened rfl fun r t ht => by
    cases r with
    | ok u => exact ht
    | error e => exact ht.owns
  check _ := triple_opened rfl fun r t ht => by
    cases r with
    | ok v => exact ht
    | error e => cases e <;> exact ht.owns
  getId _ := triple_opened rfl fun r t ht => by
    cases r with
    | ok v => exact ht
    | error e => exact ht.owns
  download fd id t ht := Prog.wp_mono (wp_s3Download_owns retries id ht) fun r t ht => by
    split <;> exact ht
  removeStub _ := triple_owns rfl fun r t ht => by cases r <;> exact ht
  removeId _ := triple_owns rfl fun r t ht => by cases r <;> exact ht
  unlock _ _ := triple_owns rfl fun _ _ ht => ht
  close _ _ := triple_close

end

/-! ## The result -/

theorem noTransfer_nil : NoTransfer [] :=
  fun _ _ => ⟨List.not_mem_nil, List.not_mem_nil, List.not_mem_nil⟩

/-- **When no descriptor is lost**: an upload or a download has closed everything that it has
opened, once, if and only if neither `fstat` nor `fdopen` of the duplicate has failed. -/
theorem closesOnce_iff {w w' : World} {path : Bytes} {retries : Int} {cs cs' : List Choice}
    {log : Log} :
    (∀ buf a, (uploadFile (s3Ops retries) path buf).runWith (Prog.scripted execLogged)
      ((w, []), cs) =
        some (a, ((w', log), cs')) → (ClosesOnce w w' ↔ ¬ DuplicateLost log)) ∧
    ∀ r, (downloadFile (s3Ops retries) path).runWith (Prog.scripted execLogged) ((w, []), cs) =
        some (r, ((w', log), cs')) → (ClosesOnce w w' ↔ ¬ DuplicateLost log) := by
  refine ⟨fun buf a hrun => ?_, fun r hrun => ?_⟩
  · refine of_runWith_logged (Q := fun _ t => ClosesOnce w t.1 ↔ ¬ DuplicateLost t.2) ?_ hrun
      fun _ _ => trivial
    exact (descriptorUpload retries path buf w).sound ⟨.refl w, noTransfer_nil⟩
  · refine of_runWith_logged (Q := fun _ t => ClosesOnce w t.1 ↔ ¬ DuplicateLost t.2) ?_ hrun
      fun _ _ => trivial
    exact (descriptorDownload retries path w).sound ⟨.refl w, noTransfer_nil⟩

/-- A file of one byte, which is local. -/
def openedFile : World where
  inode _ := { data := [7] }
  names _ := some 0
  store _ := none

/-- A remote file of one byte. -/
def fetchedFile : World where
  inode _ := { data := [0], stub := some [], objectId := some [1, 0] }
  names _ := some 0
  store _ := some [7]

/-- A file is uploaded, and a file is downloaded. -/
theorem closesOnce_transferred :
    (∃ a w' log, (uploadFile (s3Ops 1) [1] (List.replicate s3XattrSize 0)).runWith
      (Prog.scripted execLogged)
          ((openedFile, []),
            [.ok, .ok, .ok, .ok, .ok, .ok, .size 1, .ok, .ok, .ok, .ok, .ok, .ok, .ok, .ok,
              .ok, .ok]) =
          some (a, ((w', log), [])) ∧ (ClosesOnce openedFile w' ↔ ¬ DuplicateLost log)) ∧
      ∃ r w' log, (downloadFile (s3Ops 1) [1]).runWith (Prog.scripted execLogged)
        ((fetchedFile, []),
          [.ok, .ok, .ok, .ok, .ok, .ok, .ok, .size 1, .ok, .ok, .ok, .ok, .ok, .ok, .ok]) =
          some (r, ((w', log), [])) ∧ (ClosesOnce fetchedFile w' ↔ ¬ DuplicateLost log) := by
  have hup : ∃ a w' log, (uploadFile (s3Ops 1) [1] (List.replicate s3XattrSize 0)).runWith
      (Prog.scripted execLogged) ((openedFile, []),
        [.ok, .ok, .ok, .ok, .ok, .ok, .size 1, .ok, .ok, .ok, .ok, .ok, .ok, .ok, .ok, .ok, .ok]) =
      some (a, ((w', log), [])) := ⟨_, _, _, rfl⟩
  have hdown : ∃ r w' log, (downloadFile (s3Ops 1) [1]).runWith (Prog.scripted execLogged)
      ((fetchedFile, []),
      [.ok, .ok, .ok, .ok, .ok, .ok, .ok, .size 1, .ok, .ok, .ok, .ok, .ok, .ok, .ok]) =
      some (r, ((w', log), [])) := ⟨_, _, _, rfl⟩
  obtain ⟨a, w', log, hup⟩ := hup
  obtain ⟨r, v', log', hdown⟩ := hdown
  exact ⟨⟨a, w', log, hup, closesOnce_iff.1 _ a hup⟩, r, v', log', hdown, closesOnce_iff.2 r hdown⟩

/-- **A lost duplicate**: `fdopen` fails in `s3_upload`. -/
theorem duplicate_lost :
    ¬ ∀ (w w' : World) (path buf : Bytes) (retries : Int) (cs cs' : List Choice) (log : Log)
      (a : Int × Bytes), (uploadFile (s3Ops retries) path buf).runWith (Prog.scripted execLogged)
        ((w, []), cs) = some (a, ((w', log), cs')) → ClosesOnce w w' := by
  intro h
  have hcount := h openedFile _ [1] (List.replicate s3XattrSize 0) 1
    [.ok, .ok, .ok, .ok, .ok, .fail .enomem, .ok, .ok] [] _ _ rfl 1 (by decide) (by decide)
  exact absurd hcount (by decide)

end App

end CloudTiering
