import CloudTiering.Concurrency.Attributes
import CloudTiering.Concurrency.Parties
import CloudTiering.Foundations.Mutex

/-!
# Remote files and their object ids

A client that truncates a file clears its attributes in two steps, without the lock and on the word
of an earlier look.  By the time it removes `object_id`, the file may have been downloaded and
uploaded again, and the attribute it removes is the new one.

* `Phase.holds`, `Phase.Knows`: what a phase says about the lock and the attributes of the file.
* `ClearsUnmarked`: the condition on a run.
* `reach_hasObjectId`: under it, a remote file has its object id.
* `lost_objectId`: without it, it need not have one.
-/

namespace CloudTiering

open Foundations App

namespace Concurrency

/-! ## What a phase says -/

/-- The thread is between its `try_lock_file` and its `unlock_file` on file `i`. -/
def Phase.holds (i : ℕ) : Phase → Bool
  | .checking _ fd | .storing fd | .named fd | .unnaming fd | .stubbed fd => fd.ino = i
  | .asking fd | .loading fd | .unstubbed fd | .unlocking fd => fd.ino = i
  | _ => false

/-- What a thread knows of the attributes of its file.  An upload never finds that the stub
attribute is there when it sets it, so that it has nothing to undo. -/
def Phase.Knows (w : World) : Phase → Prop
  | .storing fd => (w.inode fd.ino).stub = none
  | .named fd => (w.inode fd.ino).stub = none ∧ (w.inode fd.ino).objectId.isSome = true
  | .unnaming _ => False
  | .unstubbed fd => (w.inode fd.ino).stub = none
  | _ => True

section

variable {w w' : World} {p : Phase}

/-- What a thread knows remains true as long as nobody sets the stub attribute of the file that it
has locked, or removes an `object_id` that it has set. -/
theorem Phase.Knows.mono (h : p.Knows w)
    (hstub : ∀ i, p.holds i = true → (w.inode i).stub = none → (w'.inode i).stub = none)
    (hid : ∀ fd, p = .named fd → (w.inode fd.ino).objectId.isSome = true →
      (w'.inode fd.ino).objectId.isSome = true) : p.Knows w' := by
  cases p with
  | storing fd => exact hstub fd.ino (decide_eq_true rfl) h
  | named fd => exact ⟨hstub fd.ino (decide_eq_true rfl) h.1, hid fd rfl h.2⟩
  | unnaming fd => exact h
  | unstubbed fd => exact hstub fd.ino (decide_eq_true rfl) h
  | _ => trivial

theorem Phase.Knows.same (h : p.Knows w)
    (hw : ∀ i x, x ≠ .locked → ((w'.inode i).xattr x).isSome = ((w.inode i).xattr x).isSome) :
    p.Knows w' := by
  refine h.mono (fun i _ hs => ?_) fun fd _ hid => (hw fd.ino .objectId (by simp)).trans hid
  have hsame := hw i .stub (by simp)
  rw [show (w.inode i).xattr .stub = none from hs] at hsame
  exact Option.isNone_iff_eq_none.mp (Option.isSome_eq_false_iff.mp hsame)

end

/-- After a piece of work, a thread holds no lock. -/
theorem Outcome.At.not_holds {a : Outcome} {p : Phase} (h : a.At p) (i : ℕ) :
    p.holds i = false := by
  cases a with
  | transferred ret =>
    obtain rfl : p = .outside := h
    rfl
  | opened opening vars =>
    obtain ⟨pid, hp⟩ := h
    cases opening with
    | done ret =>
      obtain rfl | ⟨fd, flags, rfl⟩ := hp
      · rfl
      · rfl
    | polling fd flags =>
      obtain rfl : p = .polling pid fd flags := hp
      rfl

theorem Work.start_not_holds {p : Phase} (work : Work) (h : ∀ i, p.holds i = false) (i : ℕ) :
    (work.start p).holds i = false := by
  cases work with
  | uploadRoutine buf secondary => cases secondary <;> rfl
  | poll => exact h i
  | _ => rfl

theorem Work.start_knows {w : World} {p : Phase} (work : Work) (h : p.Knows w) :
    (work.start p).Knows w := by
  cases work with
  | uploadRoutine buf secondary => cases secondary <;> trivial
  | poll => exact h
  | _ => trivial

/-! ## The invariant -/

/-- **The invariant**: the lock attributes exclude, the threads' knowledge is true, and a remote
file has its object id. -/
structure ObjectIdInv {T : Type} (w : World) (place : T → Phase) : Prop where
  held : HeldAreSet Phase.holds w.isLocked place
  knows : ∀ t, (place t).Knows w
  present : ∀ i, (w.inode i).stub.isSome = true → (w.inode i).objectId.isSome = true

section

variable {T : Type} [DecidableEq T] {w w' : World} {place : T → Phase} {t : T} {p : Phase} {fd : Fd}

/-- What all threads know, after a step of one of them. -/
theorem knows_update (hknows : ∀ u, u ≠ t → (place u).Knows w') (hp : p.Knows w') (u : T) :
    (Function.update place t p u).Knows w' := by
  by_cases hu : u = t
  · rw [hu, Function.update_self]
    exact hp
  · rw [Function.update_of_ne hu]
    exact hknows u hu

namespace ObjectIdInv

/-- A step that neither sets nor removes the stub attribute or an `object_id`. -/
theorem same (h : ObjectIdInv w place)
    (hheld : HeldAreSet Phase.holds w'.isLocked (Function.update place t p))
    (hw : ∀ i x, x ≠ .locked → ((w'.inode i).xattr x).isSome = ((w.inode i).xattr x).isSome)
    (hk : p.Knows w) : ObjectIdInv w' (Function.update place t p) := by
  refine ⟨hheld, knows_update (fun u _ => (h.knows u).same hw) (hk.same hw), fun i hi => ?_⟩
  exact (hw i .objectId (by simp)).trans (h.present i ((hw i .stub (by simp)).symm.trans hi))

/-- A step that neither sets nor removes an attribute. -/
theorem neutral (h : ObjectIdInv w place) (hw : SamePresence w w')
    (hp : ∀ i, p.holds i = (place t).holds i) (hk : p.Knows w) :
    ObjectIdInv w' (Function.update place t p) :=
  h.same (h.held.stay (fun i hi => (hw i .locked).trans hi) hp) (fun i x _ => hw i x) hk

theorem isSome_setLocked (w : World) (i : ℕ) (v : Option Bytes) (j : ℕ) (x : Xattr)
    (hx : x ≠ .locked) :
    (((w.update i ((w.inode i).setXattr v .locked)).inode j).xattr x).isSome =
      ((w.inode j).xattr x).isSome :=
  congrArg Option.isSome (World.xattr_setXattr_of_ne w v fun _ => hx)

/-- The lock of a file that is not locked is taken. -/
theorem lock {up : Bool} (h : ObjectIdInv w place) (ht : place t = .locking up fd)
    (hfree : (w.inode fd.ino).locked = none) (v : Bytes) :
    ObjectIdInv (w.update fd.ino ((w.inode fd.ino).setXattr (some v) .locked))
      (Function.update place t (.checking up fd)) := by
  have hflag : w.isLocked fd.ino = false := by
    rw [World.isLocked, hfree]
    rfl
  refine h.same (h.held.lock hflag (decide_eq_true rfl) (by simp) fun i hi => ⟨?_, ?_⟩)
    (isSome_setLocked w fd.ino _) trivial
  · exact World.isLocked_update_of_ne w _ hi
  · rw [ht]
    exact decide_eq_false hi.symm

/-- The lock is released. -/
theorem unlock (h : ObjectIdInv w place) (ht : ∀ i, (place t).holds i = decide (fd.ino = i)) :
    ObjectIdInv (w.update fd.ino ((w.inode fd.ino).setXattr none .locked))
      (Function.update place t (.closing fd)) := by
  have hhold : (place t).holds fd.ino = true := by
    rw [ht]
    exact decide_eq_true rfl
  refine h.same (h.held.unlock hhold rfl fun i hi => ⟨?_, ?_⟩) (isSome_setLocked w fd.ino _) trivial
  · exact World.isLocked_update_of_ne w _ hi
  · rw [ht]
    exact (decide_eq_false hi.symm).symm

/-- The call of `unlock_file`. -/
theorem unlocking {ch : Choice} {r : Except Errno Unit} (h : ObjectIdInv w place)
    (he : execOk w ch (.fremovexattr fd .locked) = some (r, w'))
    (ht : ∀ i, (place t).holds i = decide (fd.ino = i)) :
    ObjectIdInv w' (Function.update place t (.closing fd)) := by
  have hset : w.isLocked fd.ino = true := h.held.flag_eq_true (by rw [ht]; exact decide_eq_true rfl)
  rcases execOk_remove he with ⟨-, rfl⟩ | ⟨e, -, -, hnone⟩
  · exact h.unlock ht
  · rw [World.isLocked, show (w.inode fd.ino).locked = none from hnone] at hset
    exact absurd hset Bool.false_ne_true

theorem isLocked_setXattr {x : Xattr} (w : World) (i : ℕ) (v : Option Bytes)
    (hx : x ≠ .locked) (j : ℕ) :
    (w.update i ((w.inode i).setXattr v x)).isLocked j = w.isLocked j :=
  congrArg Option.isSome (World.xattr_setXattr_of_ne w v (y := .locked) fun _ => hx.symm)

/-- An upload that holds the lock sets `object_id`. -/
theorem setId (h : ObjectIdInv w place) (ht : place t = .storing fd) (v : Bytes) :
    ObjectIdInv (w.update fd.ino ((w.inode fd.ino).setXattr (some v) .objectId))
      (Function.update place t (.named fd)) := by
  have hstub : ∀ i,
      ((w.update fd.ino ((w.inode fd.ino).setXattr (some v) .objectId)).inode i).stub =
      (w.inode i).stub := fun i => World.xattr_setXattr_of_ne w (y := .stub) _ fun _ => by simp
  have hid : ∀ i, (w.inode i).objectId.isSome = true →
      ((w.update fd.ino ((w.inode fd.ino).setXattr (some v) .objectId)).inode i).objectId.isSome =
          true := by
    intro i hi
    by_cases hif : i = fd.ino
    · subst hif
      exact congrArg Option.isSome (World.xattr_setXattr_self w fd.ino (some v) .objectId)
    · rw [World.inode_update_of_ne w _ hif]
      exact hi
  refine ⟨h.held.stay (fun i hi => ?_) fun i => by rw [ht]; rfl, ?_, fun i hi => ?_⟩
  · rw [isLocked_setXattr w _ _ (by simp), hi]
  · refine knows_update (fun u _ => ?_) ⟨?_, ?_⟩
    · exact (h.knows u).mono (fun i _ hs => (hstub i).trans hs) fun fd' _ => hid fd'.ino
    · have hk := h.knows t
      rw [ht] at hk
      exact (hstub fd.ino).trans hk
    · exact congrArg Option.isSome (World.xattr_setXattr_self w fd.ino (some v) .objectId)
  · rw [hstub] at hi
    exact hid i (h.present i hi)

/-- The stub attribute is set, with `object_id` there. -/
theorem setStub (h : ObjectIdInv w place) (ht : place t = .named fd) (v : Bytes) :
    ObjectIdInv (w.update fd.ino ((w.inode fd.ino).setXattr (some v) .stub))
      (Function.update place t (.stubbed fd)) := by
  have hhold : (place t).holds fd.ino = true := by
    rw [ht]
    exact decide_eq_true rfl
  have hknown := h.knows t
  rw [ht] at hknown
  have hid : ∀ i, ((w.update fd.ino ((w.inode fd.ino).setXattr (some v) .stub)).inode i).objectId =
      (w.inode i).objectId := fun i =>
    World.xattr_setXattr_of_ne w (y := .objectId) _ fun _ => by simp
  refine ⟨h.held.stay (fun i hi => ?_) fun i => by rw [ht]; rfl, ?_, fun i hi => ?_⟩
  · rw [isLocked_setXattr w _ _ (by simp), hi]
  · refine knows_update (fun u hu => ?_) trivial
    refine (h.knows u).mono (fun i hi hs => ?_) fun fd' _ hs => by rw [hid]; exact hs
    by_cases hif : i = fd.ino
    · -- nobody else has locked this file
      subst hif
      exact absurd (h.held.unique hi hhold) hu
    · rw [World.inode_update_of_ne w _ hif]
      exact hs
  · rw [hid]
    by_cases hif : i = fd.ino
    · rw [hif]
      exact hknown.2
    · rw [World.inode_update_of_ne w _ hif] at hi
      exact h.present i hi

/-- The stub attribute is removed. -/
theorem removeStub (h : ObjectIdInv w place) (hp : ∀ i, p.holds i = (place t).holds i)
    (hk : ∀ w', (w'.inode fd.ino).stub = none → p.Knows w') :
    ObjectIdInv (w.update fd.ino ((w.inode fd.ino).setXattr none .stub))
      (Function.update place t p) := by
  have hid : ∀ i, ((w.update fd.ino ((w.inode fd.ino).setXattr none .stub)).inode i).objectId =
      (w.inode i).objectId := fun i =>
    World.xattr_setXattr_of_ne w (y := .objectId) _ fun _ => by simp
  have hself :
      ((w.update fd.ino ((w.inode fd.ino).setXattr none .stub)).inode fd.ino).stub = none :=
    World.xattr_setXattr_self w fd.ino none .stub
  refine ⟨h.held.stay (fun i hi => ?_) hp, ?_, fun i hi => ?_⟩
  · rw [isLocked_setXattr w _ _ (by simp), hi]
  · refine knows_update (fun u _ => ?_) (hk _ hself)
    refine (h.knows u).mono (fun i _ hs => ?_) fun fd' _ hs => by rw [hid]; exact hs
    by_cases hif : i = fd.ino
    · rw [hif]
      exact hself
    · rw [World.inode_update_of_ne w _ hif]
      exact hs
  · by_cases hif : i = fd.ino
    · rw [hif, hself] at hi
      exact absurd hi (by simp)
    · rw [hid]
      rw [World.inode_update_of_ne w _ hif] at hi
      exact h.present i hi

/-- `object_id` is removed from a file without the stub attribute, and no upload has just set it. -/
theorem removeId (h : ObjectIdInv w place) (hp : ∀ i, p.holds i = (place t).holds i)
    (hk : ∀ w', (w'.inode fd.ino).stub = none → p.Knows w') (hnone : (w.inode fd.ino).stub = none)
    (hnamed : ∀ u fd', u ≠ t → place u = .named fd' → fd'.ino ≠ fd.ino) :
    ObjectIdInv (w.update fd.ino ((w.inode fd.ino).setXattr none .objectId))
      (Function.update place t p) := by
  have hstub : ∀ i, ((w.update fd.ino ((w.inode fd.ino).setXattr none .objectId)).inode i).stub =
      (w.inode i).stub := fun i => World.xattr_setXattr_of_ne w (y := .stub) _ fun _ => by simp
  refine ⟨h.held.stay (fun i hi => ?_) hp, ?_, fun i hi => ?_⟩
  · rw [isLocked_setXattr w _ _ (by simp), hi]
  · refine knows_update (fun u hu => ?_) (hk _ ((hstub _).trans hnone))
    refine (h.knows u).mono (fun i _ hs => (hstub i).trans hs) fun fd' hfd' hs => ?_
    rw [World.inode_update_of_ne w _ (hnamed u fd' hu hfd')]
    exact hs
  · rw [hstub] at hi
    by_cases hif : i = fd.ino
    · rw [hif, hnone] at hi
      exact absurd hi (by simp)
    · rw [World.inode_update_of_ne w _ hif]
      exact h.present i hi

/-- **One call of one thread.**  The removal of `object_id` by a client is the one call that needs a
condition. -/
theorem answer {ch : Choice} {c : Call} {r : Rep c} (h : ObjectIdInv w place)
    (hpre : (place t).expects c) (he : execOk w ch c = some (r, w'))
    (hclear : ∀ fd, place t = .clearingId fd → (w.inode fd.ino).stub = none ∧
      ∀ u fd', place u = .named fd' → fd'.ino ≠ fd.ino) :
    ObjectIdInv w' (Function.update place t ((place t).next c r)) := by
  have hneutral : ∀ p : Phase, isNeutral c = true → (∀ i, p.holds i = (place t).holds i) →
      p.Knows w → ObjectIdInv w' (Function.update place t p) := fun p hc hp hk =>
    h.neutral (exec_neutral hc (execOk_eq_some he).2.1) hp hk
  have hknown := h.knows t
  cases hp : place t with
  | outside =>
    rw [hp] at hpre
    exact hpre.elim
  | popping secondary =>
    rw [hp] at hpre hneutral
    subst hpre
    refine hneutral _ rfl (fun i => ?_) ?_
    all_goals
      rw [next_popping]
      cases Option.or r secondary <;> trivial
  | starting up path =>
    rw [hp] at hpre hneutral
    subst hpre
    cases r <;> exact hneutral _ rfl (fun _ => rfl) trivial
  | locking up fd =>
    rw [hp] at hpre
    subst hpre
    rcases execOk_create he with ⟨rfl, hfree, rfl⟩ | ⟨e, rfl, rfl, -⟩
    · exact h.lock hp hfree []
    · exact h.neutral (samePresence_of_inode rfl) (fun i => by rw [hp]; rfl) trivial
  | checking up fd =>
    rw [hp] at hpre hneutral
    subst hpre
    rcases (execOk_check he).2 with ⟨v, rfl, -⟩ | ⟨rfl, hnone⟩
    · cases up <;> exact hneutral _ rfl (fun _ => rfl) trivial
    · cases up with
      | true => exact hneutral _ rfl (fun _ => rfl) hnone
      | false => exact hneutral _ rfl (fun _ => rfl) trivial
  | storing fd =>
    rw [hp] at hpre hneutral hknown
    rcases hpre with hc | ⟨v, rfl⟩ | rfl
    · rw [next_storing hc]
      exact hneutral _ (isNeutral_of_isTransferCall hc) (fun _ => rfl) hknown
    · rcases execOk_create he with ⟨rfl, -, rfl⟩ | ⟨e, rfl, rfl, -⟩
      · exact h.setId hp v
      · exact h.neutral (samePresence_of_inode rfl) (fun i => by rw [hp]; rfl) trivial
    · exact h.unlocking he fun i => by rw [hp]; rfl
  | named fd =>
    rw [hp] at hpre hknown
    subst hpre
    rcases execOk_create he with ⟨rfl, -, rfl⟩ | ⟨e, -, -, hset⟩
    · exact h.setStub hp []
    · -- the thread knows that the attribute is not there
      rw [show (w.inode fd.ino).xattr .stub = none from hknown.1] at hset
      exact absurd hset Bool.false_ne_true
  | unnaming fd =>
    rw [hp] at hknown
    exact hknown.elim
  | stubbed fd =>
    rw [hp] at hpre hneutral
    rcases hpre with rfl | ⟨n, rfl⟩ | rfl
    · exact hneutral _ rfl (fun _ => rfl) trivial
    · exact hneutral _ rfl (fun _ => rfl) trivial
    · exact h.unlocking he fun i => by rw [hp]; rfl
  | asking fd =>
    rw [hp] at hpre hneutral
    obtain ⟨n, -, rfl⟩ := hpre
    cases r <;> exact hneutral _ rfl (fun _ => rfl) trivial
  | loading fd =>
    rw [hp] at hpre hneutral
    rcases hpre with hc | rfl
    · rw [next_loading hc]
      exact hneutral _ (isNeutral_of_isTransferCall hc) (fun _ => rfl) trivial
    · rcases execOk_remove he with ⟨rfl, rfl⟩ | ⟨e, rfl, rfl, -⟩
      · exact h.removeStub (fun i => by rw [hp]; rfl) fun _ hs => hs
      · exact h.neutral (samePresence_of_inode rfl) (fun i => by rw [hp]; rfl) trivial
  | unstubbed fd =>
    rw [hp] at hpre hknown
    subst hpre
    have hnamed : ∀ u fd', u ≠ t → place u = .named fd' → fd'.ino ≠ fd.ino := by
      intro u fd' hu hn heq
      refine hu (h.held.unique (i := fd.ino) ?_ ?_)
      · rw [hn]
        exact decide_eq_true heq
      · rw [hp]
        exact decide_eq_true rfl
    rcases execOk_remove he with ⟨-, rfl⟩ | ⟨e, -, rfl, -⟩
    · exact h.removeId (fun i => by rw [hp]; rfl) (fun _ _ => trivial) hknown hnamed
    · exact h.neutral (samePresence_of_inode rfl) (fun i => by rw [hp]; rfl) trivial
  | unlocking fd =>
    rw [hp] at hpre
    subst hpre
    exact h.unlocking he fun i => by rw [hp]; rfl
  | closing fd =>
    rw [hp] at hpre hneutral
    subst hpre
    exact hneutral _ rfl (fun _ => rfl) trivial
  | entering self pid path flags =>
    rw [hp] at hpre hneutral
    subst hpre
    cases r <;> exact hneutral _ rfl (fun _ => rfl) trivial
  | looking pid fd flags =>
    rw [hp] at hpre hneutral
    have hc := isNeutral_of_isLookCall hpre
    obtain hn | hn := afterLook_cases
      (if flags &&& oTrunc = oTrunc then .clearing fd else .scheduling pid fd flags) .outside c r
    all_goals
      show ObjectIdInv w' (Function.update place t (afterLook _ .outside c r))
      rw [hn]
    · split <;> exact hneutral _ hc (fun _ => rfl) trivial
    · exact hneutral _ hc (fun _ => rfl) trivial
  | clearing fd =>
    rw [hp] at hpre
    subst hpre
    rcases execOk_remove he with ⟨-, rfl⟩ | ⟨e, -, rfl, -⟩
    · exact h.removeStub (fun i => by rw [hp]; rfl) fun _ _ => trivial
    · exact h.neutral (samePresence_of_inode rfl) (fun i => by rw [hp]; rfl) trivial
  | clearingId fd =>
    rw [hp] at hpre
    subst hpre
    obtain ⟨hnone, hnamed⟩ := hclear fd hp
    rcases execOk_remove he with ⟨-, rfl⟩ | ⟨e, -, rfl, -⟩
    · exact h.removeId (fun i => by rw [hp]; rfl) (fun _ _ => trivial) hnone fun u fd' _ =>
        hnamed u fd'
    · exact h.neutral (samePresence_of_inode rfl) (fun i => by rw [hp]; rfl) trivial
  | scheduling pid fd flags =>
    rw [hp] at hpre hneutral
    rcases hpre with hc | ⟨stale, rfl⟩
    · rw [next_scheduling hc]
      refine hneutral _ ?_ (fun _ => rfl) trivial
      cases c <;> first | rfl | exact absurd hc (by simp [isSetupCall])
    · exact hneutral _ rfl (fun _ => rfl) trivial
  | polling pid fd flags =>
    rw [hp] at hpre hneutral
    have hc := isNeutral_of_isLookCall hpre
    obtain hn | hn := afterLook_cases (.polling pid fd flags) .outside c r
    all_goals
      show ObjectIdInv w' (Function.update place t (afterLook _ .outside c r))
      rw [hn]
      exact hneutral _ hc (fun _ => rfl) trivial

end ObjectIdInv

end

/-! ## Runs -/

/-- **The condition.**  When a client removes `object_id`, the second of the two attributes that it
clears, the file is not marked as remote, and no upload is between setting `object_id` and marking
it. -/
def ClearsUnmarked {T : Type} (s : PartyState T) :
    ThreadSystem.Label T Choice Work Empty → Prop
  | .answer t _ => ∀ fd, s.mons t = .clearingId fd → (s.world.inode fd.ino).stub = none ∧
      ∀ u fd', s.mons u = .named fd' → fd'.ino ≠ fd.ino
  | _ => True

/-- Every remote file that no thread has locked has its object id. -/
def HasObjectIds {T : Type} (s : PartyState T) : Prop :=
  ∀ i, (∀ t, (s.mons t).holds i = false) → (s.world.inode i).stub.isSome = true →
    (s.world.inode i).objectId.isSome = true

/-- **A remote file has its object id** in every run in which the clients clear unmarked files. -/
theorem reach_hasObjectId {T : Type} [DecidableEq T] {retries : Int} {w : World} {s : PartyState T}
    (hids : ∀ i, (w.inode i).stub.isSome = true → (w.inode i).objectId.isSome = true)
    (h : Reach (partySystem T execOk (fun _ _ => true) retries).step ClearsUnmarked
      (partiesAtRest T w) s) :
    HasObjectIds s := by
  have hinv : ObjectIdInv s.world s.mons := by
    refine (Parties.reach_inv (fun _ _ _ _ _ he => (execOk_eq_some he).2.2) h ?_ ?_ ?_).1
    · refine ⟨fun i => ⟨none, fun t => by simp [Phase.holds], fun hs => absurd hs (by simp)⟩,
        fun _ => trivial, hids⟩
    · intro s t k c f r w hI hP _ hpre he
      exact hI.answer hpre he hP
    · intro s t work a hI _ _ ha
      have hrest : ∀ i, (s.mons t).holds i = false := ha.not_holds
      refine hI.neutral (samePresence_of_inode rfl) (fun i => ?_) ?_
      · rw [hrest]
        exact work.start_not_holds hrest i
      · exact work.start_knows (hI.knows t)
  exact fun i _ hi => hinv.present i hi

/-- A remote file of one byte. -/
def remoteFile : World where
  inode _ := { data := [0], stub := some [], objectId := some [102] }
  names path := if path = [102] then some 0 else none
  store key := if key = [102] then some [7] else none

/-- The work of a client that truncates the file. -/
def truncatingOpen : Work := .openFile 1 [] {} [102] (oRdwr + oTrunc)

/-- The work of the upload thread and of the download thread on the file. -/
def uploadIt : Work := .uploadRoutine (List.replicate s3XattrSize 0) (some [102])
def downloadIt : Work := .downloadRoutine (some [102])

/-- `ClearsUnmarked` as a test, for two threads. -/
def clearsUnmarked (s : PartyState Bool) : ThreadSystem.Label Bool Choice Work Empty → Bool
  | .answer t _ =>
      match s.mons t with
      | .clearingId fd => (s.world.inode fd.ino).stub = none && [false, true].all fun u =>
          match s.mons u with
          | .named fd' => fd'.ino ≠ fd.ino
          | _ => true
      | _ => true
  | _ => true

theorem clearsUnmarked_sound {s : PartyState Bool} {l : ThreadSystem.Label Bool Choice Work Empty}
    (h : clearsUnmarked s l = true) : ClearsUnmarked s l := by
  cases l with
  | answer t k =>
    intro fd hfd
    simp only [clearsUnmarked, hfd, Bool.and_eq_true, decide_eq_true_eq, List.all_eq_true] at h
    refine ⟨h.1, fun u fd' hu => ?_⟩
    have hall := h.2 u (by cases u <;> simp)
    rw [hu] at hall
    exact of_decide_eq_true hall
  | _ => trivial

/-- A client truncates the remote file, and the file is uploaded again. -/
theorem hasObjectId_reuploaded :
    ∃ s : PartyState Bool, Reach (partySystem Bool execOk (fun _ _ => true) 3).step ClearsUnmarked
        (partiesAtRest Bool remoteFile) s ∧
      (s.world.inode 0).stub.isSome = true ∧ HasObjectIds s := by
  have hrun : ((run (guardedBy clearsUnmarked (partySystem Bool execOk (fun _ _ => true) 3).step)
      (partiesAtRest Bool remoteFile)
      [.start true truncatingOpen, .answer true (.size 3), .answer true .ok, .answer true .ok,
        .answer true .ok,
        .start false uploadIt, .answer false .ok, .answer false .ok, .answer false .ok,
        .answer false .ok, .answer false .ok, .answer false .ok, .answer false .ok,
        .answer false .ok, .answer false .ok,
        .answer false .ok]).any fun s => (s.world.inode 0).stub.isSome) =
            true := by
    decide
  obtain ⟨s, hs, hp⟩ := Reach.exists_of_guarded (fun _ _ => clearsUnmarked_sound) hrun
  exact ⟨s, hs, hp, reach_hasObjectId (fun _ _ => rfl) hs⟩

/-- **A stale look**: a client looks, the file is downloaded and uploaded again, and the client
removes the `object_id` that the upload has just set. -/
theorem lost_objectId :
    ¬ ∀ s : PartyState (Fin 3), Reach (partySystem (Fin 3) execOk (fun _ _ => true) 3).step
      (fun _ _ => True) (partiesAtRest (Fin 3) remoteFile) s → HasObjectIds s := by
  intro hall
  have hrun : ((run (partySystem (Fin 3) execOk (fun _ _ => true) 3).step
      (partiesAtRest (Fin 3) remoteFile)
      [.start 2 truncatingOpen, .answer 2 (.size 3), .answer 2 .ok,
        .start 1 downloadIt, .answer 1 .ok, .answer 1 .ok, .answer 1 .ok, .answer 1 .ok,
        .answer 1 .ok, .answer 1 .ok, .answer 1 .ok, .answer 1 .ok, .answer 1 (.size 4096),
        .answer 1 .ok, .answer 1 .ok, .answer 1 .ok, .answer 1 .ok, .answer 1 .ok, .answer 1 .ok,
        .answer 1 .ok,
        .answer 2 .ok,
        .start 0 uploadIt, .answer 0 .ok, .answer 0 .ok, .answer 0 .ok, .answer 0 .ok,
        .answer 0 .ok, .answer 0 .ok, .answer 0 (.size 4096), .answer 0 .ok, .answer 0 .ok,
        .answer 0 .ok, .answer 0 .ok,
        .answer 2 .ok,
        .answer 0 .ok, .answer 0 .ok, .answer 0 .ok, .answer 0 .ok, .answer 0 .ok,
        .answer 0 .ok]).any fun s =>
          (List.finRange 3).all (fun t => !(s.mons t).holds 0) && (s.world.inode 0).stub.isSome &&
            (s.world.inode 0).objectId.isNone) = true := by
    decide
  obtain ⟨s, hs, hp⟩ := Reach.exists_of_run (fun _ _ _ => trivial) hrun
  simp only [Bool.and_eq_true, List.all_eq_true] at hp
  obtain ⟨⟨hrest, hstub⟩, hid⟩ := hp
  have hpresent := hall s hs 0 (fun t => by simpa using hrest t (List.mem_finRange t)) hstub
  rw [Option.isNone_iff_eq_none.mp hid] at hpresent
  exact absurd hpresent Bool.false_ne_true

end Concurrency

end CloudTiering
