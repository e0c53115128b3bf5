import CloudTiering.System.Kernel

/-!
# What an answer to a call says

One inversion lemma for each call: from an answer, what has become of the world and what was true of
it before.  The arguments about runs use these and never unfold `exec`.

* `attempt_eq_some` and the lemmas about the single calls.
* `CarriedOut`: the choices under which nothing fails.
* `isTransferCall`, `exec_transfer`: the calls that move the bytes touch no attribute.
* `SameContent`, `isQuiet`, `exec_quiet`: most calls touch neither the bytes of a file, nor its stub
  and `object_id` attributes, nor the store.
-/

namespace CloudTiering

open Foundations

/-! ## Calls on attributes and on the length -/

section

variable {w w' : World} {ch : Choice}

theorem attempt_eq_some {α : Type} {good x : Except Errno α × World}
    (h : attempt w good ch = some x) : (ch = .ok ∧ x = good) ∨ ∃ e, ch = .fail e ∧
      x = (.error e, w) := by
  cases ch with
  | ok => exact .inl ⟨rfl, (Option.some.inj h).symm⟩
  | fail e => exact .inr ⟨e, rfl, (Option.some.inj h).symm⟩
  | cut e n => exact absurd h (by simp [attempt])
  | size n => exact absurd h (by simp [attempt])
  | status st => exact absurd h (by simp [attempt])

/-- The choices of the environment that fail no call and no request. -/
def CarriedOut : Choice → Bool
  | .ok => true
  | .size _ => true
  | _ => false

theorem not_carriedOut_fail {e : Errno} (h : CarriedOut (.fail e) = true) : False :=
  Bool.noConfusion h

theorem attempt_carriedOut {α : Type} {good x : Except Errno α × World}
    (h : attempt w good ch = some x) (hch : CarriedOut ch = true) : ch = .ok ∧ x = good := by
  rcases attempt_eq_some h with h | ⟨e, rfl, -⟩
  · exact h
  · exact (not_carriedOut_fail hch).elim

/-- A call that can fail has been carried out where its answer is no error. -/
theorem carriedOut_of_attempt_ok {α : Type} {good : Except Errno α × World} {a : α}
    (h : attempt w good ch = some (.ok a, w')) : CarriedOut ch = true := by
  rcases attempt_eq_some h with ⟨rfl, -⟩ | ⟨e, -, hx⟩
  · rfl
  · exact absurd (Prod.mk.inj hx).1 (by simp)

/-- Such a call is carried out, or it fails. -/
theorem attempt_ok_or_failed {α : Type} {good x : Except Errno α × World}
    (h : attempt w good ch = some x) :
    ch = .ok ∨ CarriedOut ch = false := by
  rcases attempt_eq_some h with ⟨hok, -⟩ | ⟨e, rfl, -⟩
  · exact .inl hok
  · exact .inr rfl

theorem exec_openFile {path : Bytes} {r : Except Errno Fd}
    (h : exec w ch (.openFile path) = some (r, w')) :
    (∃ i, w.names path = some i ∧ r = .ok ⟨i, w.opened⟩ ∧ w' = { w with opened := w.opened + 1 }) ∨
      ∃ e, r = .error e ∧ w' = w := by
  rcases attempt_eq_some h with ⟨-, hx⟩ | ⟨e, -, hx⟩
  · unfold World.openFile at hx
    cases hn : w.names path with
    | none =>
      rw [hn] at hx
      exact .inr ⟨_, (Prod.mk.inj hx).1, (Prod.mk.inj hx).2⟩
    | some i =>
      rw [hn] at hx
      exact .inl ⟨i, rfl, (Prod.mk.inj hx).1, (Prod.mk.inj hx).2⟩
  · exact .inr ⟨e, (Prod.mk.inj hx).1, (Prod.mk.inj hx).2⟩

/-- `XATTR_CREATE`. -/
theorem exec_fsetxattr_create {fd : Fd} {x : Xattr} {v : Bytes} {r : Except Errno Unit}
    (h : exec w ch (.fsetxattr fd x v .create) = some (r, w')) :
    (r = .ok () ∧ (w.inode fd.ino).xattr x = none ∧
        w' = w.update fd.ino ((w.inode fd.ino).setXattr (some v) x)) ∨
      ∃ e, r = .error e ∧ w' = w ∧ (ch = .ok → ((w.inode fd.ino).xattr x).isSome) := by
  rcases attempt_eq_some h with ⟨-, hx⟩ | ⟨e, rfl, hx⟩
  · unfold World.fsetxattr at hx
    cases hv : (w.inode fd.ino).xattr x with
    | none =>
      rw [hv] at hx
      exact .inl ⟨(Prod.mk.inj hx).1, rfl, (Prod.mk.inj hx).2⟩
    | some u =>
      rw [hv] at hx
      exact .inr ⟨_, (Prod.mk.inj hx).1, (Prod.mk.inj hx).2, fun _ => rfl⟩
  · exact .inr ⟨e, (Prod.mk.inj hx).1, (Prod.mk.inj hx).2, fun hk => Choice.noConfusion hk⟩

/-- `XATTR_REPLACE`. -/
theorem exec_fsetxattr_replace {fd : Fd} {x : Xattr} {v : Bytes} {r : Except Errno Unit}
    (h : exec w ch (.fsetxattr fd x v .replace) = some (r, w')) :
    (r = .ok () ∧ ((w.inode fd.ino).xattr x).isSome ∧
        w' = w.update fd.ino ((w.inode fd.ino).setXattr (some v) x)) ∨
      ∃ e, r = .error e ∧ w' = w ∧ (ch = .ok → e = .enoattr ∧ (w.inode fd.ino).xattr x = none) := by
  rcases attempt_eq_some h with ⟨-, hx⟩ | ⟨e, rfl, hx⟩
  · unfold World.fsetxattr at hx
    cases hv : (w.inode fd.ino).xattr x with
    | none =>
      rw [hv] at hx
      exact .inr ⟨_, (Prod.mk.inj hx).1, (Prod.mk.inj hx).2, fun _ => ⟨rfl, rfl⟩⟩
    | some u =>
      rw [hv] at hx
      exact .inl ⟨(Prod.mk.inj hx).1, rfl, (Prod.mk.inj hx).2⟩
  · exact .inr ⟨e, (Prod.mk.inj hx).1, (Prod.mk.inj hx).2, fun hk => Choice.noConfusion hk⟩

theorem exec_fremovexattr {fd : Fd} {x : Xattr} {r : Except Errno Unit}
    (h : exec w ch (.fremovexattr fd x) = some (r, w')) :
    (r = .ok () ∧ ((w.inode fd.ino).xattr x).isSome ∧
        w' = w.update fd.ino ((w.inode fd.ino).setXattr none x)) ∨
      ∃ e, r = .error e ∧ w' = w ∧ (ch = .ok → e = .enoattr ∧ (w.inode fd.ino).xattr x = none) := by
  rcases attempt_eq_some h with ⟨-, hx⟩ | ⟨e, rfl, hx⟩
  · unfold World.fremovexattr at hx
    cases hv : (w.inode fd.ino).xattr x with
    | none =>
      rw [hv] at hx
      exact .inr ⟨_, (Prod.mk.inj hx).1, (Prod.mk.inj hx).2, fun _ => ⟨rfl, rfl⟩⟩
    | some u =>
      rw [hv] at hx
      exact .inl ⟨(Prod.mk.inj hx).1, rfl, (Prod.mk.inj hx).2⟩
  · exact .inr ⟨e, (Prod.mk.inj hx).1, (Prod.mk.inj hx).2, fun hk => Choice.noConfusion hk⟩

/-- Reading an attribute: there is one and it is returned, or there is none, or the call fails. -/
theorem exec_fgetxattr {fd : Fd} {x : Xattr} {n : ℕ} {r : Except Errno Bytes}
    (h : exec w ch (.fgetxattr fd x n) = some (r, w')) :
    w' = w ∧ ((∃ u v, (w.inode fd.ino).xattr x = some u ∧ r = .ok v ∧ (n ≠ 0 → v = u)) ∨
      (r = .error .enoattr ∧ (ch = .ok → (w.inode fd.ino).xattr x = none)) ∨
      ∃ e, r = .error e ∧ e ≠ .enoattr ∧
        (ch = .ok → n ≠ 0 ∧ ∃ u, (w.inode fd.ino).xattr x = some u ∧ n < u.length)) := by
  rcases attempt_eq_some h with ⟨-, hx⟩ | ⟨e, rfl, hx⟩
  · obtain ⟨hr, hw⟩ := Prod.mk.inj hx
    refine ⟨hw, ?_⟩
    unfold World.fgetxattr at hr
    cases hv : (w.inode fd.ino).xattr x with
    | none =>
      rw [hv] at hr
      exact .inr (.inl ⟨hr, fun _ => rfl⟩)
    | some u =>
      rw [hv] at hr
      dsimp only at hr
      split at hr
      · exact .inl ⟨u, _, rfl, hr, fun hn => absurd ‹n = 0› hn⟩
      · split at hr
        · exact .inr (.inr ⟨_, hr, by simp, fun _ => ⟨‹_›, u, rfl, ‹_›⟩⟩)
        · exact .inl ⟨u, u, rfl, hr, fun _ => rfl⟩
  · obtain ⟨hr, hw⟩ := Prod.mk.inj hx
    refine ⟨hw, ?_⟩
    by_cases he : e = .enoattr
    · subst he
      exact .inr (.inl ⟨hr, fun hk => Choice.noConfusion hk⟩)
    · exact .inr (.inr ⟨e, hr, he, fun hk => Choice.noConfusion hk⟩)

theorem exec_fstat {fd : Fd} {r : Except Errno ℕ} (h : exec w ch (.fstat fd) = some (r, w')) :
    w' = w ∧ (r = .ok (w.inode fd.ino).data.length ∨ ∃ e, r = .error e ∧ ch = .fail e) := by
  rcases attempt_eq_some h with ⟨-, hx⟩ | ⟨e, hk, hx⟩
  · exact ⟨(Prod.mk.inj hx).2, .inl (Prod.mk.inj hx).1⟩
  · exact ⟨(Prod.mk.inj hx).2, .inr ⟨e, (Prod.mk.inj hx).1, hk⟩⟩

theorem exec_ftruncate {fd : Fd} {len : ℕ} {r : Except Errno Unit}
    (h : exec w ch (.ftruncate fd len) = some (r, w')) :
    (r = .ok () ∧ w' = w.ftruncate fd.ino len) ∨ ∃ e, r = .error e ∧ ch = .fail e ∧ w' = w := by
  rcases attempt_eq_some h with ⟨-, hx⟩ | ⟨e, hk, hx⟩
  · exact .inl ⟨(Prod.mk.inj hx).1, (Prod.mk.inj hx).2⟩
  · exact .inr ⟨e, (Prod.mk.inj hx).1, hk, (Prod.mk.inj hx).2⟩

theorem exec_dup {fd : Fd} {r : Except Errno Fd} (h : exec w ch (.dup fd) = some (r, w')) :
    (r = .ok ⟨fd.ino, w.opened⟩ ∧ w' = { w with opened := w.opened + 1 }) ∨
      ∃ e, r = .error e ∧ ch = .fail e ∧ w' = w := by
  rcases attempt_eq_some h with ⟨-, hx⟩ | ⟨e, hk, hx⟩
  · exact .inl ⟨(Prod.mk.inj hx).1, (Prod.mk.inj hx).2⟩
  · exact .inr ⟨e, (Prod.mk.inj hx).1, hk, (Prod.mk.inj hx).2⟩

theorem exec_fdopen {fd : Fd} {r : Except Errno Unit} (h : exec w ch (.fdopen fd) = some (r, w')) :
    w' = w ∧ (r = .ok () ∨ ∃ e, r = .error e ∧ ch = .fail e) := by
  rcases attempt_eq_some h with ⟨-, hx⟩ | ⟨e, hk, hx⟩
  · exact ⟨(Prod.mk.inj hx).2, .inl (Prod.mk.inj hx).1⟩
  · exact ⟨(Prod.mk.inj hx).2, .inr ⟨e, (Prod.mk.inj hx).1, hk⟩⟩

/-- The descriptor is released, whatever is reported. -/
theorem exec_fclose {fd : Fd} {r : Except Errno Unit} (h : exec w ch (.fclose fd) = some (r, w')) :
    w' = { w with closed := fd.num :: w.closed } ∧
      (r = .ok () ∨ ∃ e, r = .error e ∧ ch = .fail e) := by
  rcases attempt_eq_some h with ⟨-, hx⟩ | ⟨e, hk, hx⟩
  · exact ⟨(Prod.mk.inj hx).2, .inl (Prod.mk.inj hx).1⟩
  · exact ⟨(Prod.mk.inj hx).2, .inr ⟨e, (Prod.mk.inj hx).1, hk⟩⟩

/-! ## Streams and requests -/

theorem exec_fread {fd : Fd} {pos n : ℕ} {r : Bytes}
    (h : exec w ch (.fread fd pos n) = some (r, w')) :
    w' = w ∧ ((ch = .ok ∧ r = readAt (w.inode fd.ino).data pos n) ∨
      ∃ e m, ch = .cut e m ∧ r = readAt (w.inode fd.ino).data pos (min m n)) := by
  cases ch with
  | ok =>
    obtain ⟨rfl, rfl⟩ := Prod.mk.inj (Option.some.inj h)
    exact ⟨rfl, .inl ⟨rfl, rfl⟩⟩
  | cut e m =>
    obtain ⟨rfl, rfl⟩ := Prod.mk.inj (Option.some.inj h)
    exact ⟨rfl, .inr ⟨e, m, rfl, rfl⟩⟩
  | _ => exact absurd h.symm (Option.some_ne_none _)

theorem exec_fwrite {fd : Fd} {pos : ℕ} {bs : Bytes} {r : ℕ}
    (h : exec w ch (.fwrite fd pos bs) = some (r, w')) :
    (ch = .ok ∧ r = bs.length ∧ w' = w.write fd.ino pos bs) ∨
      ∃ e m, ch = .cut e m ∧ r = (bs.take m).length ∧ w' = w.write fd.ino pos (bs.take m) := by
  cases ch with
  | ok =>
    obtain ⟨rfl, rfl⟩ := Prod.mk.inj (Option.some.inj h)
    exact .inl ⟨rfl, rfl, rfl⟩
  | cut e m =>
    obtain ⟨rfl, rfl⟩ := Prod.mk.inj (Option.some.inj h)
    exact .inr ⟨e, m, rfl, rfl, rfl⟩
  | _ => exact absurd h.symm (Option.some_ne_none _)

/-- The size of a buffer or of a chunk is a positive `int`. -/
theorem exec_putBuffer {r : Except S3Status ℕ} (h : exec w ch .putBuffer = some (r, w')) :
    w' = w ∧ ((∃ n, ch = .size n ∧ r = .ok n ∧ 0 < n ∧ n < 2 ^ 31) ∨
      ∃ st, ch = .status st ∧ st ≠ .ok ∧ r = .error st) := by
  cases ch with
  | size n =>
    obtain ⟨hn, hx⟩ := Option.ite_none_right_eq_some.mp h
    obtain ⟨rfl, rfl⟩ := Prod.mk.inj (Option.some.inj hx)
    exact ⟨rfl, .inl ⟨n, rfl, rfl, hn⟩⟩
  | status st =>
    obtain ⟨hst, hx⟩ := Option.ite_none_right_eq_some.mp h
    obtain ⟨rfl, rfl⟩ := Prod.mk.inj (Option.some.inj hx)
    exact ⟨rfl, .inr ⟨st, rfl, hst, rfl⟩⟩
  | _ => exact absurd h.symm (Option.some_ne_none _)

theorem exec_getChunk {r : Except S3Status ℕ} (h : exec w ch .getChunk = some (r, w')) :
    w' = w ∧ ((∃ n, ch = .size n ∧ r = .ok n ∧ 0 < n ∧ n < 2 ^ 31) ∨
      ∃ st, ch = .status st ∧ st ≠ .ok ∧ r = .error st) := by
  cases ch with
  | size n =>
    obtain ⟨hn, hx⟩ := Option.ite_none_right_eq_some.mp h
    obtain ⟨rfl, rfl⟩ := Prod.mk.inj (Option.some.inj hx)
    exact ⟨rfl, .inl ⟨n, rfl, rfl, hn⟩⟩
  | status st =>
    obtain ⟨hst, hx⟩ := Option.ite_none_right_eq_some.mp h
    obtain ⟨rfl, rfl⟩ := Prod.mk.inj (Option.some.inj hx)
    exact ⟨rfl, .inr ⟨st, rfl, hst, rfl⟩⟩
  | _ => exact absurd h.symm (Option.some_ne_none _)

theorem exec_putEnd {key got : Bytes} {r : S3Status}
    (h : exec w ch (.putEnd key got) = some (r, w')) :
    (ch = .ok ∧ r = .ok ∧ w' = w.put key got) ∨ (ch = .status r ∧ r ≠ .ok ∧ w' = w) := by
  cases ch with
  | ok =>
    obtain ⟨rfl, rfl⟩ := Prod.mk.inj (Option.some.inj h)
    exact .inl ⟨rfl, rfl, rfl⟩
  | status st =>
    obtain ⟨hst, hx⟩ := Option.ite_none_right_eq_some.mp h
    obtain ⟨rfl, rfl⟩ := Prod.mk.inj (Option.some.inj hx)
    exact .inr ⟨rfl, hst, rfl⟩
  | _ => exact absurd h.symm (Option.some_ne_none _)

theorem exec_getBegin_ok {key : Bytes} :
    exec w .ok (.getBegin key) = some (((w.store key).elim (.error .failed) .ok), w) := by
  delta exec
  dsimp only
  cases w.store key <;> rfl

theorem exec_getBegin {key : Bytes} {r : Except S3Status Bytes}
    (h : exec w ch (.getBegin key) = some (r, w')) :
    w' = w ∧ ((∃ obj, ch = .ok ∧ w.store key = some obj ∧ r = .ok obj) ∨
      (w.store key = none ∧ r = .error .failed) ∨ ∃ st, ch = .status st ∧ st ≠ .ok ∧
        r = .error st) := by
  cases ch with
  | ok =>
    rw [exec_getBegin_ok] at h
    cases hobj : w.store key with
    | none =>
      rw [hobj] at h
      obtain ⟨rfl, rfl⟩ := Prod.mk.inj (Option.some.inj h)
      exact ⟨rfl, .inr (.inl ⟨rfl, rfl⟩)⟩
    | some obj =>
      rw [hobj] at h
      obtain ⟨rfl, rfl⟩ := Prod.mk.inj (Option.some.inj h)
      exact ⟨rfl, .inl ⟨obj, rfl, rfl, rfl⟩⟩
  | status st =>
    obtain ⟨hst, hx⟩ := Option.ite_none_right_eq_some.mp h
    obtain ⟨rfl, rfl⟩ := Prod.mk.inj (Option.some.inj hx)
    exact ⟨rfl, .inr (.inr ⟨st, rfl, hst, rfl⟩)⟩
  | _ => exact absurd h.symm (Option.some_ne_none _)

theorem exec_getEnd {r : S3Status} (h : exec w ch .getEnd = some (r, w')) :
    w' = w ∧ ((ch = .ok ∧ r = .ok) ∨ (ch = .status r ∧ r ≠ .ok)) := by
  cases ch with
  | ok =>
    obtain ⟨rfl, rfl⟩ := Prod.mk.inj (Option.some.inj h)
    exact ⟨rfl, .inl ⟨rfl, rfl⟩⟩
  | status st =>
    obtain ⟨hst, hx⟩ := Option.ite_none_right_eq_some.mp h
    obtain ⟨rfl, rfl⟩ := Prod.mk.inj (Option.some.inj hx)
    exact ⟨rfl, .inr ⟨rfl, hst⟩⟩
  | _ => exact absurd h.symm (Option.some_ne_none _)

/-- The calls that load an object look at the store alone. -/
theorem exec_load {v : World} {c : Call} {r : Rep c}
    (hc : (∃ key, c = .getBegin key) ∨ c = .getChunk ∨ c = .getEnd) (hv : v.store = w.store)
    (he : exec w ch c = some (r, w')) : w' = w ∧ exec v ch c = some (r, v) := by
  rcases hc with ⟨key, rfl⟩ | rfl | rfl
  · cases ch with
    | ok =>
      rw [exec_getBegin_ok] at he ⊢
      obtain ⟨rfl, rfl⟩ := Prod.mk.inj (Option.some.inj he)
      rw [hv]
      exact ⟨rfl, rfl⟩
    | status st =>
      obtain ⟨hst, hx⟩ := Option.ite_none_right_eq_some.mp he
      obtain ⟨rfl, rfl⟩ := Prod.mk.inj (Option.some.inj hx)
      exact ⟨rfl, if_pos hst⟩
    | _ => exact absurd he.symm (Option.some_ne_none _)
  · rcases exec_getChunk he with ⟨rfl, ⟨n, rfl, rfl, hn⟩ | ⟨st, rfl, hst, rfl⟩⟩
    · exact ⟨rfl, if_pos hn⟩
    · exact ⟨rfl, if_pos hst⟩
  · rcases exec_getEnd he with ⟨rfl, ⟨rfl, rfl⟩ | ⟨rfl, hst⟩⟩
    · exact ⟨rfl, rfl⟩
    · exact ⟨rfl, if_pos hst⟩

/-! ## Whole transfers -/

theorem exec_uploadObject {fd : Fd} {key : Bytes} {r : Except Errno Unit}
    (h : exec w ch (.uploadObject fd key) = some (r, w')) :
    (r = .ok () ∧ w' = w.put key (w.inode fd.ino).data) ∨ ∃ e, r = .error e ∧ w' = w := by
  rcases attempt_eq_some h with ⟨-, hx⟩ | ⟨e, -, hx⟩
  · exact .inl ⟨(Prod.mk.inj hx).1, (Prod.mk.inj hx).2⟩
  · exact .inr ⟨e, (Prod.mk.inj hx).1, (Prod.mk.inj hx).2⟩

/-- A download brings the whole object, or fails and leaves a prefix of it. -/
theorem exec_downloadObject {fd : Fd} {key : Bytes} {r : Except Errno Unit}
    (h : exec w ch (.downloadObject fd key) = some (r, w')) :
    (r = .ok () ∧ ∃ obj, w.store key = some obj ∧ w' = w.write fd.ino 0 obj) ∨
      ∃ e, r = .error e ∧
        (w' = w ∨ ∃ obj n, w.store key = some obj ∧ w' = w.write fd.ino 0 (obj.take n)) := by
  simp only [exec] at h
  split at h
  · next obj hobj =>
      obtain ⟨rfl, rfl⟩ := Prod.mk.inj (Option.some.inj h)
      exact .inl ⟨rfl, obj, hobj, rfl⟩
  · next obj e n hobj =>
      obtain ⟨rfl, rfl⟩ := Prod.mk.inj (Option.some.inj h)
      exact .inr ⟨e, rfl, .inr ⟨obj, n, hobj, rfl⟩⟩
  · obtain ⟨rfl, rfl⟩ := Prod.mk.inj (Option.some.inj h)
    exact .inr ⟨_, rfl, .inl rfl⟩
  · obtain ⟨rfl, rfl⟩ := Prod.mk.inj (Option.some.inj h)
    exact .inr ⟨_, rfl, .inl rfl⟩
  · cases h

/-! ## Requests -/

/-- The push waits while the queue is full. -/
theorem exec_queuePush {data : Bytes} {r : Except Errno Unit}
    (h : exec w ch (.queuePush data) = some (r, w')) :
    (r = .ok () ∧ w' = { w with requests := w.requests ++ [data] }) ∨ ∃ e, r = .error e ∧
      w' = w := by
  cases ch with
  | ok =>
    obtain ⟨-, hx⟩ := Option.ite_none_right_eq_some.mp h
    obtain ⟨rfl, rfl⟩ := Prod.mk.inj (Option.some.inj hx)
    exact .inl ⟨rfl, rfl⟩
  | fail e =>
    obtain ⟨rfl, rfl⟩ := Prod.mk.inj (Option.some.inj h)
    exact .inr ⟨e, rfl, rfl⟩
  | _ => exact absurd h.symm (Option.some_ne_none _)

theorem exec_queueTryPop {r : Option Bytes} (h : exec w ch .queueTryPop = some (r, w')) :
    (w.requests = [] ∧ r = none ∧ w' = w) ∨
      ∃ d rs, w.requests = d :: rs ∧ r = some d ∧ w' = { w with requests := rs } := by
  obtain ⟨-, hx⟩ := Option.ite_none_right_eq_some.mp h
  cases hr : w.requests with
  | nil =>
    rw [hr] at hx
    obtain ⟨rfl, rfl⟩ := Prod.mk.inj (Option.some.inj hx)
    exact .inl ⟨rfl, rfl, rfl⟩
  | cons d rs =>
    rw [hr] at hx
    obtain ⟨rfl, rfl⟩ := Prod.mk.inj (Option.some.inj hx)
    exact .inr ⟨d, rs, rfl, rfl, rfl⟩

end

/-! ## Calls that leave the content alone -/

/-- The two worlds agree on the bytes and the location attributes of every file, on the names and on
the store. -/
structure SameContent (w w' : World) : Prop where
  data : ∀ i, (w'.inode i).data = (w.inode i).data
  stub : ∀ i, (w'.inode i).stub = (w.inode i).stub
  objectId : ∀ i, (w'.inode i).objectId = (w.inode i).objectId
  names : w'.names = w.names
  store : w'.store = w.store

theorem SameContent.refl (w : World) : SameContent w w :=
  ⟨fun _ => rfl, fun _ => rfl, fun _ => rfl, rfl, rfl⟩

theorem SameContent.object {w w' : World} (h : SameContent w w') (i : ℕ) :
    w'.object i = w.object i := by
  rw [World.object, World.object, h.objectId, h.store]

theorem sameContent_setLocked (w : World) (i : ℕ) (v : Option Bytes) :
    SameContent w (w.update i ((w.inode i).setXattr v .locked)) := by
  refine ⟨fun j => ?_, fun j => ?_, fun j => ?_, rfl, rfl⟩
  all_goals
    by_cases h : j = i
    · subst h
      rw [World.inode_update_self]
      rfl
    · rw [World.inode_update_of_ne w _ h]

/-- The calls that leave the content alone. -/
def isQuiet : Call → Bool
  | .fsetxattr _ .locked _ _ => true
  | .fremovexattr _ .locked => true
  | .fsetxattr .. => false
  | .fremovexattr .. => false
  | .libcOpen .. => false
  | .ftruncate .. => false
  | .fwrite .. => false
  | .putEnd .. => false
  | .uploadObject .. => false
  | .downloadObject .. => false
  | _ => true

/-- What `attempt` leaves is one of two worlds. -/
theorem sameContent_attempt {α : Type} {w v : World} {good x : Except Errno α × World}
    {ch : Choice} (h : attempt v good ch = some x) (hgood : SameContent w good.2)
    (hv : SameContent w v) : SameContent w x.2 := by
  rcases attempt_eq_some h with ⟨-, rfl⟩ | ⟨e, -, rfl⟩
  · exact hgood
  · exact hv

theorem sameContent_fsetxattr_locked (w : World) (i : ℕ) (v : Bytes) (fl : XattrFlag) :
    SameContent w (w.fsetxattr i .locked v fl).2 := by
  unfold World.fsetxattr
  split
  · exact .refl w
  · exact .refl w
  · exact sameContent_setLocked w i _

theorem sameContent_fremovexattr_locked (w : World) (i : ℕ) :
    SameContent w (w.fremovexattr i .locked).2 := by
  unfold World.fremovexattr
  split
  · exact .refl w
  · exact sameContent_setLocked w i _

/-- **A quiet call leaves the content alone**, however it is answered. -/
theorem exec_quiet {w : World} {ch : Choice} {c : Call} {a : Rep c × World} (hc : isQuiet c = true)
    (h : exec w ch c = some a) : SameContent w a.2 := by
  have hsame : ∀ w' : World, w'.inode = w.inode → w'.names = w.names → w'.store = w.store →
      SameContent w w' := by
    intro w' hi hn hs
    exact ⟨fun _ => by rw [hi], fun _ => by rw [hi], fun _ => by rw [hi], hn, hs⟩
  cases c with
  | openFile path =>
    refine sameContent_attempt h ?_ (.refl w)
    unfold World.openFile
    split
    · exact .refl w
    · exact hsame _ rfl rfl rfl
  | closeFile fd => exact sameContent_attempt h (hsame _ rfl rfl rfl) (hsame _ rfl rfl rfl)
  | fclose fd => exact sameContent_attempt h (hsame _ rfl rfl rfl) (hsame _ rfl rfl rfl)
  | fsetxattr fd x v fl =>
    cases x with
    | locked => exact sameContent_attempt h (sameContent_fsetxattr_locked w _ v fl) (.refl w)
    | stub => exact absurd hc (by simp [isQuiet])
    | objectId => exact absurd hc (by simp [isQuiet])
  | fremovexattr fd x =>
    cases x with
    | locked => exact sameContent_attempt h (sameContent_fremovexattr_locked w _) (.refl w)
    | stub => exact absurd hc (by simp [isQuiet])
    | objectId => exact absurd hc (by simp [isQuiet])
  | dup fd => exact sameContent_attempt h (hsame _ rfl rfl rfl) (.refl w)
  | fgetxattr fd x n => exact sameContent_attempt h (.refl w) (.refl w)
  | getxattrProcSelf fd x => exact sameContent_attempt h (.refl w) (.refl w)
  | fstat fd => exact sameContent_attempt h (.refl w) (.refl w)
  | fdopen fd => exact sameContent_attempt h (.refl w) (.refl w)
  | shmOpen => exact sameContent_attempt h (.refl w) (.refl w)
  | shmStat => exact sameContent_attempt h (.refl w) (.refl w)
  | shmMap len => exact sameContent_attempt h (.refl w) (.refl w)
  | libcOpen self path flags => exact absurd hc (by simp [isQuiet])
  | ftruncate fd len => exact absurd hc (by simp [isQuiet])
  | fwrite fd pos bs => exact absurd hc (by simp [isQuiet])
  | putEnd key got => exact absurd hc (by simp [isQuiet])
  | uploadObject fd key => exact absurd hc (by simp [isQuiet])
  | downloadObject fd key => exact absurd hc (by simp [isQuiet])
  | fread fd pos n => exact (exec_fread (r := a.1) h).1 ▸ .refl w
  | putBuffer => exact (exec_putBuffer (r := a.1) h).1 ▸ .refl w
  | getBegin key => exact (exec_getBegin (r := a.1) h).1 ▸ .refl w
  | getChunk => exact (exec_getChunk (r := a.1) h).1 ▸ .refl w
  | getEnd => exact (exec_getEnd (r := a.1) h).1 ▸ .refl w
  | getpid self =>
    obtain ⟨-, hx⟩ := Option.ite_none_right_eq_some.mp h
    obtain rfl := Option.some.inj hx
    exact .refl w
  | queuePush data =>
    rcases exec_queuePush (r := a.1) h with ⟨-, hw⟩ | ⟨e, -, hw⟩
    · exact hsame _ (by rw [hw]) (by rw [hw]) (by rw [hw])
    · exact hsame _ (by rw [hw]) (by rw [hw]) (by rw [hw])
  | queueTryPop =>
    rcases exec_queueTryPop (r := a.1) h with ⟨-, -, hw⟩ | ⟨d, rs, -, -, hw⟩
    · exact hsame _ (by rw [hw]) (by rw [hw]) (by rw [hw])
    · exact hsame _ (by rw [hw]) (by rw [hw]) (by rw [hw])

/-! ## Calls of a transfer -/

/-- The calls of one request and of its callbacks. -/
def isRequestCall : Call → Bool
  | .fread .. | .fwrite .. => true
  | .putBuffer | .putEnd .. | .getBegin _ | .getChunk | .getEnd => true
  | _ => false

/-- The calls of the transfer of a whole file. -/
def isTransferCall : Call → Bool
  | .dup _ | .fstat _ | .fdopen _ | .fclose _ => true
  | .fread .. | .fwrite .. => true
  | .putBuffer | .putEnd .. | .getBegin _ | .getChunk | .getEnd => true
  | _ => false

theorem isTransferCall_of_isRequestCall {c : Call} (h : isRequestCall c = true) :
    isTransferCall c = true := by
  cases c <;> first | rfl | exact absurd h Bool.false_ne_true

/-- **A transfer touches no attribute and no name.** -/
theorem exec_transfer {w w' : World} {ch : Choice} {c : Call} {r : Rep c}
    (hc : isTransferCall c = true) (h : exec w ch c = some (r, w')) :
    (∀ i x, (w'.inode i).xattr x = (w.inode i).xattr x) ∧ w'.names = w.names := by
  have hsame : ∀ v : World, v.inode = w.inode → v.names = w.names →
      (∀ i x, (v.inode i).xattr x = (w.inode i).xattr x) ∧ v.names = w.names :=
    fun v hi hn => ⟨fun i x => by rw [hi], hn⟩
  have hwrite : ∀ (i pos : ℕ) (bs : Bytes),
      (∀ j x, ((w.write i pos bs).inode j).xattr x = (w.inode j).xattr x) ∧
        (w.write i pos bs).names = w.names := by
    refine fun i pos bs => ⟨fun j x => ?_, rfl⟩
    rw [World.write]
    by_cases hj : j = i
    · rw [hj, World.inode_update_self]
      cases x <;> rfl
    · rw [World.inode_update_of_ne w _ hj]
  cases c with
  | dup fd =>
    rcases exec_dup h with ⟨-, rfl⟩ | ⟨-, -, -, rfl⟩
    · exact hsame _ rfl rfl
    · exact hsame _ rfl rfl
  | fstat fd => exact hsame _ (by rw [(exec_fstat h).1]) (by rw [(exec_fstat h).1])
  | fdopen fd => exact hsame _ (by rw [(exec_fdopen h).1]) (by rw [(exec_fdopen h).1])
  | fclose fd => exact hsame _ (by rw [(exec_fclose h).1]) (by rw [(exec_fclose h).1])
  | fread fd pos n => exact hsame _ (by rw [(exec_fread h).1]) (by rw [(exec_fread h).1])
  | fwrite fd pos bs =>
    rcases exec_fwrite h with ⟨-, -, rfl⟩ | ⟨-, m, -, -, rfl⟩
    · exact hwrite _ _ _
    · exact hwrite _ _ _
  | putBuffer => exact hsame _ (by rw [(exec_putBuffer h).1]) (by rw [(exec_putBuffer h).1])
  | putEnd key got =>
    rcases exec_putEnd h with ⟨-, -, rfl⟩ | ⟨-, -, rfl⟩
    · exact hsame _ rfl rfl
    · exact hsame _ rfl rfl
  | getBegin key => exact hsame _ (by rw [(exec_getBegin h).1]) (by rw [(exec_getBegin h).1])
  | getChunk => exact hsame _ (by rw [(exec_getChunk h).1]) (by rw [(exec_getChunk h).1])
  | getEnd => exact hsame _ (by rw [(exec_getEnd h).1]) (by rw [(exec_getEnd h).1])
  | _ => exact absurd hc (by simp [isTransferCall])

end CloudTiering
