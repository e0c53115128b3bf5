import CloudTiering.Concurrency.Phases

/-!
# What the calls of the parties leave alone

Most calls neither set nor remove an attribute, drop no request and take no name away.

* `SamePresence`, `exec_neutral`: the same attributes are there before and after.
* `Keeps`, `Grows`: names and requests stay.
* `execOk_create`, `execOk_remove`, `execOk_check`: the calls on attributes where nothing fails.
-/

namespace CloudTiering

open Foundations App

namespace Concurrency

/-! ## Which attributes are there -/

/-- The same attributes are set in both worlds. -/
def SamePresence (w w' : World) : Prop :=
  ∀ i x, ((w'.inode i).xattr x).isSome = ((w.inode i).xattr x).isSome

section

variable {w w' : World} {ch : Choice}

theorem samePresence_of_inode (h : w'.inode = w.inode) : SamePresence w w' := fun i x => by rw [h]

theorem samePresence_setData (w : World) (i : ℕ) (d : Bytes) :
    SamePresence w (w.update i { w.inode i with data := d }) := by
  intro j x
  by_cases hj : j = i
  · rw [hj, World.inode_update_self]
    cases x <;> rfl
  · rw [World.inode_update_of_ne w _ hj]

/-- An attribute that is there gets another value. -/
theorem samePresence_setXattr {i : ℕ} {x : Xattr} (h : ((w.inode i).xattr x).isSome = true)
    (v : Bytes) :
    SamePresence w (w.update i ((w.inode i).setXattr (some v) x)) := by
  intro j y
  by_cases hj : j = i
  · rw [hj, World.inode_update_self, Inode.xattr_setXattr]
    split
    · rw [‹y = x›, h]
      rfl
    · rfl
  · rw [World.inode_update_of_ne w _ hj]

/-- The calls that neither set nor remove an attribute. -/
def isNeutral : Call → Bool
  | .openFile _ | .libcOpen .. | .closeFile _ => true
  | .fsetxattr _ _ _ flag => flag = .replace
  | .fgetxattr .. | .ftruncate .. => true
  | .getpid _ | .shmOpen | .shmStat | .shmMap _ | .queuePush _ | .queueTryPop => true
  | c => isTransferCall c

theorem isNeutral_of_isTransferCall {c : Call} (hc : isTransferCall c = true) :
    isNeutral c = true := by
  cases c <;> first | rfl | exact absurd hc (by simp [isTransferCall])

theorem isNeutral_of_isLookCall {fd : Fd} {c : Call}
    (hc : isLookCall fd c) : isNeutral c = true := by
  cases c with
  | fsetxattr fd' x v flag => exact decide_eq_true hc.2.2.2
  | fgetxattr fd' x n => rfl
  | _ => exact hc.elim

theorem samePresence_attempt {α : Type} {v : World} {good x : Except Errno α × World}
    (h : attempt v good ch = some x) (hgood : SamePresence w good.2) (hbad : SamePresence w v) :
    SamePresence w x.2 := by
  rcases attempt_eq_some h with ⟨-, rfl⟩ | ⟨e, -, rfl⟩
  · exact hgood
  · exact hbad

theorem samePresence_libcOpen (w : World) (self n : ℕ) (path : Bytes) (flags : ℕ) :
    SamePresence w (w.libcOpen self n path flags).2 := by
  unfold World.libcOpen
  cases w.names path with
  | none => exact samePresence_of_inode rfl
  | some i =>
    dsimp only
    split
    · exact samePresence_setData w i []
    · exact samePresence_of_inode rfl

theorem exec_neutral {c : Call} {r : Rep c} (hc : isNeutral c = true)
    (h : exec w ch c = some (r, w')) : SamePresence w w' := by
  have hsame : SamePresence w w := samePresence_of_inode rfl
  cases c with
  | openFile path =>
    rcases exec_openFile h with ⟨i, -, -, rfl⟩ | ⟨e, -, rfl⟩
    · exact samePresence_of_inode rfl
    · exact hsame
  | libcOpen self path flags =>
    cases ch with
    | size n =>
      obtain ⟨-, hx⟩ := Option.ite_none_right_eq_some.mp h
      obtain rfl : (w.libcOpen self n path flags).2 = w' := congrArg Prod.snd (Option.some.inj hx)
      exact samePresence_libcOpen w self n path flags
    | fail e =>
      obtain ⟨-, rfl⟩ := Prod.mk.inj (Option.some.inj h)
      exact hsame
    | _ => exact absurd h.symm (Option.some_ne_none _)
  | closeFile fd =>
    exact samePresence_attempt h (samePresence_of_inode rfl) (samePresence_of_inode rfl)
  | fsetxattr fd x v flag =>
    obtain rfl : flag = .replace := of_decide_eq_true hc
    rcases exec_fsetxattr_replace h with ⟨-, hset, rfl⟩ | ⟨e, -, rfl, -⟩
    · exact samePresence_setXattr hset v
    · exact hsame
  | fgetxattr fd x n => exact samePresence_of_inode (by rw [(exec_fgetxattr h).1])
  | ftruncate fd n =>
    rcases exec_ftruncate h with ⟨-, rfl⟩ | ⟨e, -, -, rfl⟩
    · exact samePresence_setData w fd.ino _
    · exact hsame
  | getpid self =>
    obtain ⟨-, hx⟩ := Option.ite_none_right_eq_some.mp h
    obtain ⟨-, rfl⟩ := Prod.mk.inj (Option.some.inj hx)
    exact hsame
  | shmOpen => exact samePresence_attempt h hsame hsame
  | shmStat => exact samePresence_attempt h hsame hsame
  | shmMap len => exact samePresence_attempt h hsame hsame
  | queuePush data =>
    rcases exec_queuePush h with ⟨-, rfl⟩ | ⟨e, -, rfl⟩
    · exact samePresence_of_inode rfl
    · exact hsame
  | queueTryPop =>
    rcases exec_queueTryPop h with ⟨-, -, rfl⟩ | ⟨d, rs, -, -, rfl⟩
    · exact hsame
    · exact samePresence_of_inode rfl
  | _ =>
    intro i x
    refine congrArg Option.isSome ((exec_transfer ?_ h).1 i x)
    exact hc

/-- No name is taken away and no request is dropped. -/
structure Keeps (w w' : World) : Prop where
  names : ∀ path i, w.names path = some i → w'.names path = some i
  requests : ∀ data ∈ w.requests, data ∈ w'.requests

theorem keeps_of_eq (hn : w'.names = w.names) (hr : w'.requests = w.requests) : Keeps w w' :=
  ⟨fun _ _ h => by rw [hn]; exact h, fun _ h => by rw [hr]; exact h⟩

/-- No name is taken away, and requests come behind the others. -/
structure Grows (w w' : World) : Prop where
  names : ∀ path i, w.names path = some i → w'.names path = some i
  requests : w.requests <+: w'.requests

theorem Grows.keeps (h : Grows w w') : Keeps w w' := ⟨h.names, fun _ hd => h.requests.subset hd⟩

theorem grows_of_eq (hn : w'.names = w.names) (hr : w'.requests = w.requests) : Grows w w' :=
  ⟨fun _ _ h => by rw [hn]; exact h, hr ▸ List.prefix_rfl⟩

theorem grows_attempt {α : Type} {v : World} {good x : Except Errno α × World}
    (h : attempt v good ch = some x) (hgood : Grows w good.2) (hbad : Grows w v) : Grows w x.2 := by
  rcases attempt_eq_some h with ⟨-, rfl⟩ | ⟨e, -, rfl⟩
  · exact hgood
  · exact hbad

/-- The name of a new descriptor has not been in use. -/
theorem grows_libcOpen {self n : ℕ} (hn : w.names (procPidFdFdPath self n) = none) (path : Bytes)
    (flags : ℕ) : Grows w (w.libcOpen self n path flags).2 := by
  unfold World.libcOpen
  cases w.names path with
  | none => exact grows_of_eq rfl rfl
  | some i =>
    dsimp only
    split
    all_goals
      refine ⟨fun name j hj => ?_, List.prefix_rfl⟩
      have hne : name ≠ procPidFdFdPath self n := by
        rintro rfl
        rw [hn] at hj
        exact absurd hj.symm (Option.some_ne_none j)
      exact (Function.update_of_ne hne _ _).trans hj

/-- Only the download thread takes requests. -/
theorem exec_grows {c : Call} {r : Rep c} (hc : c ≠ .queueTryPop)
    (h : exec w ch c = some (r, w')) : Grows w w' := by
  have hsame : Grows w w := grows_of_eq rfl rfl
  have hattempt : ∀ {α : Type} {v : World} {good : Except Errno α × World} {r : Except Errno α},
      attempt v good ch = some (r, w') → good.2.names = w.names → good.2.requests = w.requests →
        v.names = w.names → v.requests = w.requests → Grows w w' :=
    fun ha hn hr hn' hr' => grows_attempt ha (grows_of_eq hn hr) (grows_of_eq hn' hr')
  cases c with
  | openFile path =>
    rcases exec_openFile h with ⟨i, -, -, rfl⟩ | ⟨e, -, rfl⟩
    · exact grows_of_eq rfl rfl
    · exact hsame
  | libcOpen self path flags =>
    cases ch with
    | size n =>
      obtain ⟨hn, hx⟩ := Option.ite_none_right_eq_some.mp h
      obtain rfl : (w.libcOpen self n path flags).2 = w' := congrArg Prod.snd (Option.some.inj hx)
      exact grows_libcOpen hn path flags
    | fail e =>
      obtain ⟨-, rfl⟩ := Prod.mk.inj (Option.some.inj h)
      exact hsame
    | _ => exact absurd h.symm (Option.some_ne_none _)
  | fsetxattr fd x v flag =>
    cases flag with
    | create =>
      rcases exec_fsetxattr_create h with ⟨-, -, rfl⟩ | ⟨e, -, rfl, -⟩
      · exact grows_of_eq rfl rfl
      · exact hsame
    | replace =>
      rcases exec_fsetxattr_replace h with ⟨-, -, rfl⟩ | ⟨e, -, rfl, -⟩
      · exact grows_of_eq rfl rfl
      · exact hsame
  | fremovexattr fd x =>
    rcases exec_fremovexattr h with ⟨-, -, rfl⟩ | ⟨e, -, rfl, -⟩
    · exact grows_of_eq rfl rfl
    · exact hsame
  | closeFile fd => exact hattempt h rfl rfl rfl rfl
  | fgetxattr fd x n => exact hattempt h rfl rfl rfl rfl
  | getxattrProcSelf fd x => exact hattempt h rfl rfl rfl rfl
  | fstat fd => exact hattempt h rfl rfl rfl rfl
  | ftruncate fd n => exact hattempt h rfl rfl rfl rfl
  | dup fd => exact hattempt h rfl rfl rfl rfl
  | fdopen fd => exact hattempt h rfl rfl rfl rfl
  | fclose fd => exact hattempt h rfl rfl rfl rfl
  | uploadObject fd key => exact hattempt h rfl rfl rfl rfl
  | shmOpen => exact hattempt h rfl rfl rfl rfl
  | shmStat => exact hattempt h rfl rfl rfl rfl
  | shmMap len => exact hattempt h rfl rfl rfl rfl
  | fread fd pos n => exact grows_of_eq (by rw [(exec_fread h).1]) (by rw [(exec_fread h).1])
  | fwrite fd pos bs =>
    rcases exec_fwrite h with ⟨-, -, rfl⟩ | ⟨e, m, -, -, rfl⟩
    · exact grows_of_eq rfl rfl
    · exact grows_of_eq rfl rfl
  | putBuffer => exact grows_of_eq (by rw [(exec_putBuffer h).1]) (by rw [(exec_putBuffer h).1])
  | putEnd key got =>
    rcases exec_putEnd h with ⟨-, -, rfl⟩ | ⟨-, -, rfl⟩
    · exact grows_of_eq rfl rfl
    · exact hsame
  | getBegin key => exact grows_of_eq (by rw [(exec_getBegin h).1]) (by rw [(exec_getBegin h).1])
  | getChunk => exact grows_of_eq (by rw [(exec_getChunk h).1]) (by rw [(exec_getChunk h).1])
  | getEnd => exact grows_of_eq (by rw [(exec_getEnd h).1]) (by rw [(exec_getEnd h).1])
  | downloadObject fd key =>
    rcases exec_downloadObject h with ⟨-, obj, -, rfl⟩ | ⟨e, -, rfl | ⟨obj, n, -, rfl⟩⟩
    · exact grows_of_eq rfl rfl
    · exact hsame
    · exact grows_of_eq rfl rfl
  | getpid self =>
    obtain ⟨-, hx⟩ := Option.ite_none_right_eq_some.mp h
    obtain ⟨-, rfl⟩ := Prod.mk.inj (Option.some.inj hx)
    exact hsame
  | queuePush data =>
    rcases exec_queuePush h with ⟨-, rfl⟩ | ⟨e, -, rfl⟩
    · exact ⟨fun _ _ hi => hi, List.prefix_append w.requests [data]⟩
    · exact hsame
  | queueTryPop => exact absurd rfl hc

theorem exec_keeps {c : Call} {r : Rep c} (hc : c ≠ .queueTryPop)
    (h : exec w ch c = some (r, w')) : Keeps w w' :=
  (exec_grows hc h).keeps

/-- Calls that are carried out: an attribute is created, or it is already there. -/
theorem execOk_create {fd : Fd} {x : Xattr} {v : Bytes} {r : Except Errno Unit}
    (h : execOk w ch (.fsetxattr fd x v .create) = some (r, w')) :
    (r = .ok () ∧ (w.inode fd.ino).xattr x = none ∧
        w' = w.update fd.ino ((w.inode fd.ino).setXattr (some v) x)) ∨
      ∃ e, r = .error e ∧ w' = w ∧ ((w.inode fd.ino).xattr x).isSome = true := by
  obtain ⟨hch, he, -⟩ := execOk_eq_some h
  obtain ⟨rfl, -⟩ := attempt_carriedOut he hch
  rcases exec_fsetxattr_create he with hok | ⟨e, hr, hw, hset⟩
  · exact .inl hok
  · exact .inr ⟨e, hr, hw, hset rfl⟩

/-- An attribute is removed, or it is not there. -/
theorem execOk_remove {fd : Fd} {x : Xattr} {r : Except Errno Unit}
    (h : execOk w ch (.fremovexattr fd x) = some (r, w')) :
    (r = .ok () ∧ w' = w.update fd.ino ((w.inode fd.ino).setXattr none x)) ∨
      ∃ e, r = .error e ∧ w' = w ∧ (w.inode fd.ino).xattr x = none := by
  obtain ⟨hch, he, -⟩ := execOk_eq_some h
  obtain ⟨rfl, -⟩ := attempt_carriedOut he hch
  rcases exec_fremovexattr he with ⟨hr, -, hw⟩ | ⟨e, hr, hw, hnone⟩
  · exact .inl ⟨hr, hw⟩
  · exact .inr ⟨e, hr, hw, (hnone rfl).2⟩

/-- The location check finds the stub attribute, or it is not there. -/
theorem execOk_check {fd : Fd} {r : Except Errno Bytes}
    (h : execOk w ch (.fgetxattr fd .stub 0) = some (r, w')) :
    w' = w ∧ ((∃ v, r = .ok v ∧ (w.inode fd.ino).stub.isSome = true) ∨
      (r = .error .enoattr ∧ (w.inode fd.ino).stub = none)) := by
  obtain ⟨hch, he, hs⟩ := execOk_eq_some h
  obtain ⟨rfl, -⟩ := attempt_carriedOut he hch
  obtain ⟨hw, ⟨u, v, hu, rfl, -⟩ | ⟨rfl, hnone⟩ | ⟨e, rfl, hne, -⟩⟩ := exec_fgetxattr he
  · exact ⟨hw, .inl ⟨v, rfl, by rw [show (w.inode fd.ino).stub = some u from hu]; rfl⟩⟩
  · exact ⟨hw, .inr ⟨rfl, hnone rfl⟩⟩
  · exact absurd (of_decide_eq_true hs) hne

end

end Concurrency

end CloudTiering
