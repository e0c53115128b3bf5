import CloudTiering.Concurrency.ObjectIds
import CloudTiering.Tiering.Invariant

/-!
# The steps of the parties against a plain file system

* `FsEvent`, `plainStep`: what the clients see, and a plain file system that says whether they may
  see it.
* `Stage.emits`: the events of a call.
* `KeyUnused`: an object is not stored over the one of another file.
* `TierInv.lock` to `TierInv.writing`: the calls that change something.
* `TierInv.answer`: every call keeps the invariant, and the plain file system makes the same events.
-/

namespace CloudTiering

open Foundations App Concurrency

namespace Tiering

/-! ## The plain file system -/

/-- What the clients do with the files, and what they read. -/
inductive FsEvent
  | read (i pos n : ℕ) (bs : Bytes)
  | write (i pos : ℕ) (bs : Bytes)
  | truncate (i : ℕ)
  deriving DecidableEq

/-- A plain file system: the content of each file, which writes and truncations change, and nothing
else. -/
def plainStep (c : ℕ → Bytes) : FsEvent → Option (ℕ → Bytes)
  | .read i pos n bs => if bs = readAt (c i) pos n then some c else none
  | .write i pos bs => some (Function.update c i (writeAt (c i) pos bs))
  | .truncate i => some (Function.update c i [])

/-- What the clients see of a call. -/
def Stage.emits (p : Stage) (call : Call) (r : Rep call) : List FsEvent :=
  match p with
  | .entering _ _ flags => match call, r with
    | .libcOpen .., .ok fd => if flags &&& oTrunc = oTrunc then [.truncate fd.ino] else []
    | _, _ => []
  | .ready fd => match call, r with
    | .fread _ pos n, bs => [.read fd.ino pos n bs]
    | .fwrite _ pos bs, wrote => [.write fd.ino pos (bs.take wrote)]
    | _, _ => []
  | _ => []

/-- No other file has `key` as the name of its object, or is about to. -/
def KeyUnused {T : Type} (w : World) (m : T → Stage) (i : ℕ) (key : Bytes) : Prop :=
  (∀ j x, (w.inode j).objectId = some x → cString x = key → j = i) ∧
    ∀ u fd d, m u = .stored fd d key → fd.ino = i

/-! ## Views -/

section

variable {w w' : World} {c c' : ℕ → Bytes} {i j : ℕ} {n : Inode}

theorem view_of_sameContent (h : SameContent w w') (i : ℕ) : view w' c i = view w c i := by
  rw [view, view, h.data, h.stub, h.objectId]

theorem view_update_of_ne (hij : i ≠ j) (hc : c' i = c i) :
    view (w.update j n) c' i = view w c i := by
  rw [view, view, World.inode_update_of_ne w n hij, hc]

theorem view_update_self : view (w.update j n) c j = ⟨n.data, n.stub.isSome, n.objectId, c j⟩ := by
  rw [view, World.inode_update_self]

theorem view_setId {v : Option Bytes} :
    view (w.update j ((w.inode j).setXattr v .objectId)) c j = { view w c j with id := v } :=
  view_update_self

theorem view_setStub {v : Option Bytes} :
    view (w.update j ((w.inode j).setXattr v .stub)) c j = { view w c j with stub := v.isSome } :=
  view_update_self

theorem view_setData {d : Bytes} :
    view (w.update j { w.inode j with data := d }) c j = { view w c j with data := d } :=
  view_update_self

theorem isLocked_setXattr {x : Xattr} (v : Option Bytes) (hx : x ≠ .locked)
    (h : w.isLocked i = true) : (w.update j ((w.inode j).setXattr v x)).isLocked i = true :=
  (ObjectIdInv.isLocked_setXattr w j v hx i).trans h

theorem isLocked_setData {d : Bytes} (h : w.isLocked i = true) :
    (w.update j { w.inode j with data := d }).isLocked i = true :=
  (samePresence_setData w j d i .locked).trans h

end

section

variable {T : Type} [DecidableEq T] {w w' : World} {c : ℕ → Bytes} {m : T → Stage} {t u : T}
  {p q : Stage} {j : ℕ}
  {ch : Choice} {call : Call} {r : Rep call} {fd d : Fd} {n : ℕ}

/-! ## The other threads -/

omit [DecidableEq T] in
theorem role_eq_of_holds (h : TierInv w c m) (ht : (m t).holds j = true) (hu : u ≠ t)
    (hino : (m u).ino = j) :
    (m u).role = .idle ∨ (m u).role = .opens ∨ (m u).role = .truncates := by
  have hnot : (m u).role.holds ≠ true := by
    intro hold
    refine hu (h.held.unique (i := j) ?_ ht)
    rw [Stage.holds, hold, hino]
    exact decide_eq_true rfl
  cases hr : (m u).role with
  | idle => exact .inl rfl
  | opens => exact .inr (.inl rfl)
  | truncates => exact .inr (.inr rfl)
  | uploads | downloads | leaves =>
    rw [hr] at hnot
    exact absurd rfl hnot

omit [DecidableEq T] in
/-- Next to an upload. -/
theorem idle_of_uploads (h : TierInv w c m) (ht : (m t).uploads j = true)
    (hold : (m t).holds j = true) (hu : u ≠ t)
    (hino : (m u).ino = j) : (m u).role = .idle := by
  have hclosed := h.closed t u j ht
  rw [Stage.opens, hino] at hclosed
  rcases role_eq_of_holds h hold hu hino with hr | hr | hr
  · exact hr
  · simp [hr] at hclosed
  · simp [hr] at hclosed

omit [DecidableEq T] in
/-- Next to a download. -/
theorem idle_or_opens_of_downloads (h : TierInv w c m) (ht : (m t).downloads j = true)
    (hold : (m t).holds j = true)
    (hu : u ≠ t) (hino : (m u).ino = j) : (m u).role = .idle ∨ (m u).role = .opens := by
  have hcalm := h.calm t u j ht
  rw [Stage.truncates, hino] at hcalm
  rcases role_eq_of_holds h hold hu hino with hr | hr | hr
  · exact .inl hr
  · exact .inr hr
  · simp [hr] at hcalm

omit [DecidableEq T] in
/-- Next to a client. -/
theorem not_uploads_of_opens (h : TierInv w c m) (ht : (m t).opens j = true)
    (hino : (m u).ino = j) :
    (m u).role ≠ .uploads := by
  intro hr
  have hup : (m u).uploads j = true := by
    rw [Stage.uploads, hr, hino]
    simp
  rw [h.closed u t j hup] at ht
  exact absurd ht Bool.false_ne_true

omit [DecidableEq T] in
theorem not_downloads_of_truncates (h : TierInv w c m) (ht : (m t).truncates j = true)
    (hino : (m u).ino = j) :
    (m u).role ≠ .downloads := by
  intro hr
  have hdown : (m u).downloads j = true := by
    rw [Stage.downloads, hr, hino]
    simp
  rw [h.calm u t j hdown] at ht
  exact absurd ht Bool.false_ne_true

namespace TierInv

/-! ## Calls that change nothing -/

/-- A quiet call, behind which the thread is as far as before with its file. -/
theorem quietCall (h : TierInv w c m) (hq : m t = q) (hquiet : isQuiet call = true)
    (hneutral : isNeutral call = true)
    (he : execOk w ch call = some (r, w')) (hmoves : Moves q p)
    (hcalm : (q.role = .truncates || q.isEmptied) = false)
    (hp : p.At w.store (view w c p.ino)) : TierInv w' c (Function.update m t p) := by
  subst hq
  obtain ⟨-, hexec, -⟩ := execOk_eq_some he
  have hsame := exec_quiet hquiet hexec
  refine h.quiet hmoves (fun i hi => (exec_neutral hneutral hexec i .locked).trans hi)
    (view_of_sameContent hsame)
    hsame.store hp fun _ hqi => ?_
  rw [Stage.unsettles, hcalm] at hqi
  exact absurd hqi Bool.false_ne_true

/-- The world stays as it is. -/
theorem skip (h : TierInv w c m) (hq : m t = q) (hmoves : Moves q p)
    (hcalm : (q.role = .truncates || q.isEmptied) = false) (hp : p.At w.store (view w c p.ino)) :
    TierInv w c (Function.update m t p) := by
  subst hq
  refine h.quiet hmoves (fun _ => id) (fun _ => rfl) rfl hp fun _ hqi => ?_
  rw [Stage.unsettles, hcalm] at hqi
  exact absurd hqi Bool.false_ne_true

/-! ## The lock -/

/-- The lock of a file that is not locked is taken: for an upload nobody has the file open, for a
download nobody truncates it. -/
theorem lock {up : Bool} (h : TierInv w c m) (hq : m t = .locking up fd)
    (hfree : (w.inode fd.ino).locked = none)
    (hup : up = true → ∀ u, (m u).opens fd.ino = false)
    (hdown : up = false → ∀ u, (m u).truncates fd.ino = false)
    (v : Bytes) :
    TierInv (w.update fd.ino ((w.inode fd.ino).setXattr (some v) .locked)) c
      (Function.update m t (.checking up fd)) := by
  have hsame := sameContent_setLocked w fd.ino (some v)
  have hflag : w.isLocked fd.ino = false := by
    rw [World.isLocked, hfree]
    rfl
  have hholds : ∀ i, (Stage.checking up fd).holds i = decide (fd.ino = i) := fun i => by
    cases up <;> rfl
  refine h.update (j := fd.ino) (h.held.lock hflag ?_ (by simp) fun i hi => ⟨?_, ?_⟩)
    (h.closed.update (fun i hi => .inr ?_) (fun i hi => absurd hi ?_) fun _ => not_opens_of_uploads)
    (h.calm.update (fun i hi => .inr ?_) (fun i hi => absurd hi ?_) fun _ =>
      not_truncates_of_downloads)
    (fun i _ => view_of_sameContent hsame i) rfl (fun i hi => ?_) ?_ (fun u _ _ hu => ?_)
      fun _ hbefore => ?_
  · rw [hholds]
    exact decide_eq_true rfl
  · exact World.isLocked_update_of_ne w _ hi
  · rw [hholds, hq]
    exact decide_eq_false hi.symm
  · obtain ⟨hrole, hino⟩ := Bool.and_eq_true_iff.mp hi
    obtain rfl : fd.ino = i := of_decide_eq_true hino
    cases up with
    | true => exact hup rfl
    | false => exact absurd (of_decide_eq_true hrole) (by simp [Stage.role])
  · cases up <;> simp [Stage.opens, Stage.role]
  · obtain ⟨hrole, hino⟩ := Bool.and_eq_true_iff.mp hi
    obtain rfl : fd.ino = i := of_decide_eq_true hino
    cases up with
    | true => exact absurd (of_decide_eq_true hrole) (by simp [Stage.role])
    | false => exact hdown rfl
  · cases up <;> simp [Stage.truncates, Stage.role]
  · rw [hq] at hi
    exact absurd hi (by simp [Stage.unsettles, Stage.role, Stage.isEmptied])
  · cases up <;> trivial
  · rw [view_of_sameContent hsame]
    exact hu
  · rw [view_of_sameContent hsame]
    exact hbefore (by rw [hq]; rfl)

/-- The lock is released. -/
theorem unlock {r : Except Errno Unit} (h : TierInv w c m) (hq : m t = .unlocking fd)
    (he : execOk w ch (.fremovexattr fd .locked) = some (r, w')) :
    TierInv w' c (Function.update m t (.closing fd)) := by
  have hheld : (m t).holds fd.ino = true := by
    rw [hq]
    exact decide_eq_true rfl
  have hset : w.isLocked fd.ino = true := h.held.flag_eq_true hheld
  rcases execOk_remove he with ⟨-, rfl⟩ | ⟨e, -, -, hnone⟩
  · have hsame := sameContent_setLocked w fd.ino none
    refine h.update (j := fd.ino) (h.held.unlock hheld rfl fun i hi => ⟨?_, ?_⟩)
      (h.closed.update (fun i hi => absurd hi ?_) (fun i hi => absurd hi ?_) fun _ =>
        not_opens_of_uploads)
      (h.calm.update (fun i hi => absurd hi ?_) (fun i hi => absurd hi ?_) fun _ =>
        not_truncates_of_downloads)
      (fun i _ => view_of_sameContent hsame i) rfl (fun i hi => ?_) trivial (fun u _ _ hu => ?_)
        fun _ hbefore => ?_
    · exact World.isLocked_update_of_ne w _ hi
    · rw [hq]
      exact (decide_eq_false hi.symm).symm
    · simp [Stage.uploads, Stage.role]
    · simp [Stage.opens, Stage.role]
    · simp [Stage.downloads, Stage.role]
    · simp [Stage.truncates, Stage.role]
    · rw [hq] at hi
      exact absurd hi (by simp [Stage.unsettles, Stage.role, Stage.isEmptied])
    · rw [view_of_sameContent hsame]
      exact hu
    · rw [view_of_sameContent hsame]
      exact hbefore (by rw [hq]; rfl)
  · rw [World.isLocked, show (w.inode fd.ino).locked = none from hnone] at hset
    exact absurd hset Bool.false_ne_true

/-! ## Uploads -/

omit [DecidableEq T] in
/-- What a thread knows. -/
theorem here_of_eq (h : TierInv w c m) (hq : m t = q) (hino : q.ino = j) :
    q.At w.store (view w c j) := by
  subst hq
  subst hino
  exact h.here t

/-- A step of an upload. -/
theorem upload (h : TierInv w c m) (hq : m t = q) (hrole : q.role = .uploads) (hino : q.ino = j)
    (hpino : p.ino = j)
    (hprole : p.role = .uploads ∨ p.role = .leaves)
    (hflag : ∀ i, w.isLocked i = true → w'.isLocked i = true)
    (hview : ∀ i, i ≠ j → view w' c i = view w c i) (hstore : w'.store = w.store)
    (hp : p.At w.store (view w' c j))
    (hsettled : p.unsettles j = false → Settled w.store (view w' c j)) :
    TierInv w' c (Function.update m t p) := by
  subst hq
  subst hino
  have hup : (m t).uploads (m t).ino = true := by
    rw [Stage.uploads, hrole]
    simp
  have hold : (m t).holds (m t).ino = true := by
    rw [Stage.holds, hrole]
    simp [Role.holds]
  refine h.local ⟨.inr ⟨hpino, hprole.imp (fun hr => hr.trans hrole.symm) .inl⟩, fun i => ?_⟩
    hflag hview hstore
    (by rw [hpino]; exact hp) (fun u hu hsame _ => .of_idle (idle_of_uploads h hup hold hu hsame))
    fun hpj _ => hsettled hpj
  rw [Stage.holds, Stage.holds, hpino]
  obtain hr | hr := hprole
  all_goals simp [hr, hrole, Role.holds]

/-- The object is stored. -/
theorem putObject {got key : Bytes} (h : TierInv w c m) (hq : m t = .reading fd d n got)
    (hn : n ≤ got.length)
    (hunused : KeyUnused w m fd.ino key) :
    TierInv (w.put key got) c (Function.update m t (.stored fd d key)) := by
  obtain ⟨-, hhere, hsize, hpre⟩ := h.here_of_eq hq rfl
  obtain rfl : got = c fd.ino := hpre.eq_of_length_le (hsize ▸ hn)
  have hup : (m t).uploads fd.ino = true := by
    rw [hq]
    exact decide_eq_true rfl
  have hold : (m t).holds fd.ino = true := by
    rw [hq]
    exact decide_eq_true rfl
  have hmoves : Moves (m t) (.stored fd d key) := by
    rw [hq]
    exact ⟨.inr ⟨rfl, .inl rfl⟩, fun _ => rfl⟩
  -- the object of another file is another one
  have hother : ∀ i x, i ≠ fd.ino → (w.inode i).objectId = some x →
      (w.put key (c fd.ino)).store (cString x) = w.store (cString x) := fun i x hi hx =>
    Function.update_of_ne (fun hkey => hi (hunused.1 i x hx hkey)) _ _
  refine ⟨h.held.stay (fun _ => id) hmoves.holds,
    h.closed.update (fun _ hi => .inl (hmoves.uploads hi)) (fun _ hi => .inl (hmoves.opens hi))
      fun _ => not_opens_of_uploads,
    h.calm.update (fun _ hi => .inl (hmoves.downloads hi)) (fun _ hi => .inl (hmoves.truncates hi))
      fun _ => not_truncates_of_downloads, fun u => ?_, fun i hi => ?_⟩
  · by_cases hu : u = t
    · rw [hu, Function.update_self]
      exact ⟨hhere, World.store_put_self w key _⟩
    · rw [Function.update_of_ne hu]
      by_cases hino : (m u).ino = fd.ino
      · exact .of_idle (idle_of_uploads h hup hold hu hino)
      · refine (h.here u).of_store (fun x hx => hother _ x hino hx) fun fd' d' key' hu' => ?_
        refine Function.update_of_ne (fun hkey => ?_) _ _
        rw [hu'] at hino
        exact hino (hunused.2 u fd' d' (by rw [hu', hkey]))
  · by_cases hi' : i = fd.ino
    · subst hi'
      exact View.Here.settled hhere
    · refine Settled.of_store (h.settled i fun u => ?_) fun x hx => hother i x hi' hx
      by_cases hu : u = t
      · rw [hu, hq]
        rfl
      · have := hi u
        rwa [Function.update_of_ne hu] at this

/-- `object_id` is set. -/
theorem setId {key v : Bytes} (h : TierInv w c m) (hq : m t = .stored fd d key)
    (hv : cString v = key) :
    TierInv (w.update fd.ino ((w.inode fd.ino).setXattr (some v) .objectId)) c
      (Function.update m t (.named fd)) := by
  obtain ⟨hhere, hobject⟩ := h.here_of_eq hq rfl
  refine h.upload (j := fd.ino) hq rfl rfl rfl (.inl rfl) (fun i => isLocked_setXattr _ (by simp))
    (fun i hi => view_update_of_ne hi rfl) rfl ?_ fun _ => ?_
  · rw [view_setId]
    exact ⟨hhere, (congrArg w.store hv).trans hobject⟩
  · rw [view_setId]
    exact View.Here.settled hhere

/-- The stub attribute is set. -/
theorem setStub (h : TierInv w c m) (hq : m t = .named fd) (v : Bytes) :
    TierInv (w.update fd.ino ((w.inode fd.ino).setXattr (some v) .stub)) c
      (Function.update m t (.stubbed fd)) := by
  obtain ⟨hhere, hthere⟩ := h.here_of_eq hq rfl
  refine h.upload (j := fd.ino) hq rfl rfl rfl (.inl rfl) (fun i => isLocked_setXattr _ (by simp))
    (fun i hi => view_update_of_ne hi rfl) rfl ?_ fun _ => ?_
  · rw [view_setStub]
    exact ⟨rfl, hthere, hhere.2⟩
  · rw [view_setStub]
    exact ⟨fun hs => absurd hs Bool.noConfusion, fun _ => ⟨hthere, congrArg List.length hhere.2⟩⟩

/-- The file is truncated. -/
theorem empty (h : TierInv w c m) (hq : m t = .sized fd n) :
    TierInv (w.ftruncate fd.ino 0) c (Function.update m t (.emptied fd n)) := by
  obtain ⟨hstub, hthere, -, hn⟩ := h.here_of_eq hq rfl
  refine h.upload (j := fd.ino) hq rfl rfl rfl (.inl rfl) (fun i => isLocked_setData)
    (fun i hi => view_update_of_ne hi rfl) rfl ?_ fun hsettled => absurd hsettled ?_
  · rw [World.ftruncate, view_setData]
    exact ⟨hstub, hthere, hn⟩
  · simp [Stage.unsettles, Stage.isEmptied, Stage.ino]

/-- The file gets its length back. -/
theorem extend (h : TierInv w c m) (hq : m t = .emptied fd n) :
    TierInv (w.ftruncate fd.ino n) c (Function.update m t (.unlocking fd)) := by
  obtain ⟨hstub, hthere, hn⟩ := h.here_of_eq hq rfl
  refine h.upload (j := fd.ino) hq rfl rfl rfl (.inr rfl) (fun i => isLocked_setData)
    (fun i hi => view_update_of_ne hi rfl) rfl trivial fun _ => ?_
  rw [World.ftruncate, view_setData]
  exact ⟨fun hs => absurd (hstub.symm.trans hs) Bool.noConfusion,
    fun _ => ⟨hthere, (length_resize _ _).trans hn⟩⟩

/-! ## What is settled -/

omit [DecidableEq T] in
theorem role_of_unsettles {i : ℕ} (h : p.unsettles i = true) :
    p.role = .truncates ∨ p.role = .uploads := by
  rcases Bool.or_eq_true_iff.mp (Bool.and_eq_true_iff.mp h).1 with hr | he
  · exact .inl (of_decide_eq_true hr)
  · cases p with
    | emptied fd n => exact .inr rfl
    | _ => exact absurd he Bool.false_ne_true

omit [DecidableEq T] in
/-- A file that is transferred, and has not been emptied yet, is settled. -/
theorem settled_of_holds (h : TierInv w c m) (hq : m t = q) (hino : q.ino = j)
    (hopens : q.role = .uploads ∨
    q.role = .downloads) (hempty : q.isEmptied = false) : Settled w.store (view w c j) := by
  subst hq
  subst hino
  have hold : (m t).holds (m t).ino = true := by
    obtain hr | hr := hopens
    all_goals simp [Stage.holds, hr, Role.holds]
  refine h.settled _ fun u => ?_
  by_contra hne
  have hu : (m u).unsettles (m t).ino = true := by simpa using hne
  have hino := ino_of_unsettles hu
  rcases role_of_unsettles hu with hr | hr
  · rcases hopens with ht | ht
    · have := h.closed t u (m t).ino (by simp [Stage.uploads, ht])
      simp [Stage.opens, hr, hino] at this
    · have := h.calm t u (m t).ino (by simp [Stage.downloads, ht])
      simp [Stage.truncates, hr, hino] at this
  · -- it holds the lock, so that it is the thread itself
    obtain rfl : u = t := h.held.unique (i := (m t).ino)
      (by simp [Stage.holds, hr, Role.holds, hino]) hold
    rw [Stage.unsettles, hempty] at hu
    rcases hopens with ht | ht
    all_goals simp [ht] at hu

omit [DecidableEq T] in
/-- A client finds the content in a file that is local. -/
theorem data_of_opens (h : TierInv w c m) (hq : m t = q) (hopens : q.opens j = true)
    (hstub : (view w c j).stub = false) : (view w c j).data = (view w c j).content := by
  subst hq
  by_cases hall : ∀ u, (m u).unsettles j = false
  · exact (h.settled j hall).1 hstub
  obtain ⟨u, hu⟩ := not_forall.mp hall
  rw [Bool.not_eq_false] at hu
  have hat := h.here_of_eq (t := u) rfl (ino_of_unsettles hu)
  rcases role_of_unsettles hu with hr | hr
  · -- another client is truncating it
    cases hp : m u with
    | looking fd flags =>
      rw [hp] at hr hat
      change (if _ then Role.truncates else Role.opens) = _ at hr
      split at hr
      · exact hat ‹_›
      · exact absurd hr (by simp)
    | clearing fd =>
      rw [hp] at hat
      exact hat
    | clearingId fd =>
      rw [hp] at hat
      exact hat.2
    | checking up fd =>
      rw [hp] at hr
      cases up <;> exact absurd hr (by simp [Stage.role])
    | _ =>
      rw [hp] at hr
      exact absurd hr (by simp [Stage.role])
  · have := h.closed u t j (by simp [Stage.uploads, hr, ino_of_unsettles hu])
    rw [this] at hopens
    exact absurd hopens Bool.false_ne_true

/-! ## Downloads -/

/-- A step of a download. -/
theorem download (h : TierInv w c m) (hq : m t = q) (hrole : q.role = .downloads) (hino : q.ino = j)
    (hpino : p.ino = j)
    (hprole : p.role = .downloads ∨ p.role = .leaves)
    (hflag : ∀ i, w.isLocked i = true → w'.isLocked i = true)
    (hview : ∀ i, i ≠ j → view w' c i = view w c i) (hstore : w'.store = w.store)
    (hp : p.At w.store (view w' c j))
    (hopens : ∀ p' : Stage, p'.role = .opens → p'.At w.store (view w c j) →
      p'.At w.store (view w' c j))
    (hsettled : Settled w.store (view w' c j)) : TierInv w' c (Function.update m t p) := by
  subst hq
  subst hino
  have hdown : (m t).downloads (m t).ino = true := by simp [Stage.downloads, hrole]
  have hold : (m t).holds (m t).ino = true := by simp [Stage.holds, hrole, Role.holds]
  refine h.local ⟨.inr ⟨hpino, hprole.imp (fun hr => hr.trans hrole.symm) .inl⟩, fun i => ?_⟩
    hflag hview hstore
    (by rw [hpino]; exact hp) (fun u hu hsame hold' => ?_) fun _ _ => hsettled
  · rw [Stage.holds, Stage.holds, hpino]
    obtain hr | hr := hprole
    all_goals simp [hr, hrole, Role.holds]
  · rcases idle_or_opens_of_downloads h hdown hold hu hsame with hr | hr
    · exact .of_idle hr
    · exact hopens _ hr hold'

/-- Bytes of the object are written. -/
theorem writeObject {object done bs rest : Bytes} (h : TierInv w c m)
    (hq : m t = .loading fd d object done)
    (hrest : object = done ++ bs ++ rest) :
    TierInv (w.write d.ino done.length bs) c
      (Function.update m t (.loading fd d object (done ++ bs))) := by
  obtain ⟨hd, hstub, hobject, -, old, hdata, hlen⟩ := h.here_of_eq hq rfl
  have hbefore : Settled w.store (view w c fd.ino) := h.settled_of_holds hq rfl (.inr rfl) rfl
  have hpre : done ++ bs <+: object := ⟨rest, hrest.symm⟩
  have hnew : writeAt (w.inode fd.ino).data done.length bs = writeAt old 0 (done ++ bs) := by
    rw [show (w.inode fd.ino).data = _ from hdata]
    exact writeAt_append old done bs
  rw [hd]
  refine h.download (j := fd.ino) hq rfl rfl rfl (.inl rfl) (fun i => isLocked_setData)
    (fun i hi => view_update_of_ne hi rfl) rfl ?_ (fun p' hr hat => hat.of_opens hr hstub) ?_
  · rw [World.write, view_setData]
    exact ⟨hd, hstub, hobject, hpre, old, hnew, hlen⟩
  · rw [World.write, view_setData]
    refine ⟨fun hs => absurd (hstub.symm.trans hs) Bool.noConfusion,
      fun _ => ⟨(hbefore.2 hstub).1, ?_⟩⟩
    have hle : (done ++ bs).length ≤ (c fd.ino).length :=
      (congrArg List.length hobject) ▸ hpre.length_le
    calc (writeAt (w.inode fd.ino).data done.length bs).length
        = max old.length (done ++ bs).length := by rw [hnew, length_writeAt_zero]
      _ = (c fd.ino).length := by
        rw [show old.length = (c fd.ino).length from hlen, Nat.max_eq_left hle]

/-- The stub attribute is removed: the content is here. -/
theorem removeStub (h : TierInv w c m) (hq : m t = .loaded fd d) :
    TierInv (w.update fd.ino ((w.inode fd.ino).setXattr none .stub)) c
      (Function.update m t (.unstubbed fd)) := by
  obtain ⟨-, hdata⟩ := h.here_of_eq hq rfl
  refine h.download (j := fd.ino) hq rfl rfl rfl (.inr rfl) (fun i => isLocked_setXattr _ (by simp))
    (fun i hi => view_update_of_ne hi rfl) rfl ?_ (fun p' hr hat => ?_) ?_
  · rw [view_setStub]
    rfl
  · rw [view_setStub]
    exact hat.of_here (by simp [hr]) (by simp [hr]) (.inr rfl) id
  · rw [view_setStub]
    exact View.Here.settled ⟨rfl, hdata⟩

/-- `object_id` is removed. -/
theorem removeId (h : TierInv w c m) (hq : m t = .unstubbed fd) :
    TierInv (w.update fd.ino ((w.inode fd.ino).setXattr none .objectId)) c
      (Function.update m t (.unlocking fd)) := by
  have hstub : (view w c fd.ino).stub = false := h.here_of_eq hq rfl
  have hino : (m t).ino = fd.ino := by rw [hq]; rfl
  have hold : (m t).holds fd.ino = true := by
    rw [hq]
    exact decide_eq_true rfl
  refine h.local (by rw [hq]; exact ⟨.inr ⟨rfl, .inl rfl⟩, fun _ => rfl⟩)
    (fun i => isLocked_setXattr _ (by simp))
    (fun i hi => view_update_of_ne (hino ▸ hi) rfl) rfl trivial (fun u hu hsame hat => ?_)
      fun _ hbefore => ?_
  · rw [hino] at hat hsame ⊢
    rw [view_setId]
    rcases role_eq_of_holds h hold hu hsame with hr | hr | hr
    · exact .of_idle hr
    all_goals exact hat.of_here (by simp [hr]) (by simp [hr]) (.inl rfl) id
  · rw [hino] at hbefore ⊢
    rw [view_setId]
    have hsettled := hbefore (by rw [hq]; rfl)
    exact ⟨hsettled.1, fun hs => absurd (hstub.symm.trans hs) Bool.noConfusion⟩

/-! ## Clients -/

/-- A client about to look opens the file, and truncates it if the flags say so; it holds no
lock. -/
theorem role_looking (fd : Fd) (flags : ℕ) : (Stage.looking fd flags).role = .truncates ∧
    flags &&& oTrunc = oTrunc ∨
    (Stage.looking fd flags).role = .opens ∧ ¬ flags &&& oTrunc = oTrunc := by
  by_cases htrunc : flags &&& oTrunc = oTrunc
  · exact .inl ⟨if_pos htrunc, htrunc⟩
  · exact .inr ⟨if_neg htrunc, htrunc⟩

/-- A file is opened: nobody uploads it, and nobody downloads it if it is truncated. -/
theorem enter {self flags : ℕ} {path : Bytes} (h : TierInv w c m)
    (hq : m t = .entering self path flags)
    (hup : ∀ u, (m u).uploads fd.ino = false)
    (hdown : flags &&& oTrunc = oTrunc → ∀ u, (m u).downloads fd.ino = false)
    (hflag : ∀ i, w.isLocked i = true → w'.isLocked i = true)
    (hview : ∀ i, i ≠ fd.ino → view w' c' i = view w c i) (hstore : w'.store = w.store)
    (hsame : ¬ flags &&& oTrunc = oTrunc → view w' c' fd.ino = view w c fd.ino)
    (hempty : flags &&& oTrunc = oTrunc → (view w' c' fd.ino).stub = (view w c fd.ino).stub ∧
      (view w' c' fd.ino).data = (view w' c' fd.ino).content) :
    TierInv w' c' (Function.update m t (.looking fd flags)) := by
  have hrole := role_looking fd flags
  have hheld : HeldAreSet Stage.holds w'.isLocked (Function.update m t (.looking fd flags)) := by
    refine h.held.stay hflag fun i => ?_
    rcases hrole with ⟨hr, -⟩ | ⟨hr, -⟩
    all_goals
      rw [hq, Stage.holds, hr]
      rfl
  have hclosed : Apart Stage.uploads Stage.opens (Function.update m t (.looking fd flags)) := by
    refine h.closed.update (fun i hi => ?_) (fun i hi => .inr ?_) fun _ => not_opens_of_uploads
    · rcases hrole with ⟨hr, -⟩ | ⟨hr, -⟩ <;> simp [Stage.uploads, hr] at hi
    · obtain rfl : fd.ino = i := of_decide_eq_true (Bool.and_eq_true_iff.mp hi).2
      exact hup
  have hcalm : Apart Stage.downloads Stage.truncates (Function.update m t (.looking fd flags)) := by
    refine h.calm.update (fun i hi => ?_) (fun i hi => .inr ?_) fun _ => not_truncates_of_downloads
    · rcases hrole with ⟨hr, -⟩ | ⟨hr, -⟩ <;> simp [Stage.downloads, hr] at hi
    · rcases hrole with ⟨-, htrunc⟩ | ⟨hr, -⟩
      · obtain rfl : fd.ino = i := of_decide_eq_true (Bool.and_eq_true_iff.mp hi).2
        exact hdown htrunc
      · simp [Stage.truncates, hr] at hi
  have hunsettles : ∀ i, (m t).unsettles i = true → i = fd.ino := by
    intro i hi
    rw [hq] at hi
    exact absurd hi (by simp [Stage.unsettles, Stage.role, Stage.isEmptied])
  rcases hrole with ⟨hr, htrunc⟩ | ⟨-, htrunc⟩
  · obtain ⟨hstub, hdata⟩ := hempty htrunc
    refine h.update hheld hclosed hcalm hview hstore hunsettles (fun _ => hdata)
      (fun u hu hsame hat => ?_)
      fun hpj _ => ?_
    · refine hat.of_here (fun hr => ?_) (fun hr => ?_) (.inl hstub) fun _ => hdata
      · have := hup u
        simp [Stage.uploads, hr, hsame] at this
      · have := hdown htrunc u
        simp [Stage.downloads, hr, hsame] at this
    · simp [Stage.unsettles, hr, Stage.ino] at hpj
  · refine h.update hheld hclosed hcalm hview hstore hunsettles (fun hset => absurd hset htrunc)
      (fun u _ _ hat => ?_) fun _ hbefore => ?_
    · rw [hsame htrunc]
      exact hat
    · rw [hsame htrunc]
      exact hbefore (by rw [hq]; rfl)

/-- A client looks, and sees where the file is. -/
theorem looked {flags : ℕ} {remote : Bool} (h : TierInv w c m) (hq : m t = .looking fd flags)
    (hremote : remote = (view w c fd.ino).stub)
    (hflag : ∀ i, w.isLocked i = true → w'.isLocked i = true)
    (hview : ∀ i, view w' c i = view w c i) (hstore : w'.store = w.store) :
    TierInv w' c (Function.update m t
      (if remote then if flags &&& oTrunc = oTrunc then .clearing fd else .waiting fd
        else .ready fd)) := by
  have hat := h.here_of_eq hq (rfl : (Stage.looking fd flags).ino = fd.ino)
  have hopens : (Stage.looking fd flags).opens fd.ino = true := by
    by_cases htrunc : flags &&& oTrunc = oTrunc
    all_goals simp [Stage.opens, Stage.role, Stage.ino, htrunc]
  cases remote with
  | true =>
    rw [if_pos rfl]
    by_cases htrunc : flags &&& oTrunc = oTrunc
    · rw [if_pos htrunc]
      refine h.quiet ⟨.inr ⟨by rw [hq]; rfl, .inl ?_⟩, fun i => ?_⟩ hflag hview hstore
        (hat htrunc) fun hp _ => ?_
      · rw [hq, Stage.role, Stage.role, if_pos htrunc]
      · rw [hq]
        simp [Stage.holds, Stage.role, htrunc, Role.holds]
      · rw [hq] at hp
        simp [Stage.unsettles, Stage.role, Stage.ino] at hp
    · rw [if_neg htrunc]
      refine h.quiet ⟨.inr ⟨by rw [hq]; rfl, .inl ?_⟩, fun i => ?_⟩ hflag hview hstore trivial
        fun _ hbefore => ?_
      · rw [hq, Stage.role, Stage.role, if_neg htrunc]
      · rw [hq]
        simp [Stage.holds, Stage.role, htrunc, Role.holds]
      · rw [hq] at hbefore
        simp [Stage.unsettles, Stage.role, Stage.ino, Stage.isEmptied, htrunc] at hbefore
  | false =>
    have hhere : (view w c fd.ino).Here := ⟨hremote.symm, h.data_of_opens hq hopens hremote.symm⟩
    refine h.quiet ⟨.inr ⟨by rw [hq]; rfl, ?_⟩, fun i => ?_⟩ hflag hview hstore hhere fun _ _ => ?_
    · rw [hq]
      by_cases htrunc : flags &&& oTrunc = oTrunc
      all_goals simp [Stage.role, htrunc]
    · rw [hq]
      by_cases htrunc : flags &&& oTrunc = oTrunc
      all_goals simp [Stage.holds, Stage.role, htrunc, Role.holds]
    · rw [hq]
      exact hhere.settled

/-- A client that waits looks again. -/
theorem lookedAgain {remote : Bool} (h : TierInv w c m) (hq : m t = .waiting fd)
    (hremote : remote = (view w c fd.ino).stub)
    (hflag : ∀ i, w.isLocked i = true → w'.isLocked i = true)
    (hview : ∀ i, view w' c i = view w c i) (hstore : w'.store = w.store) :
    TierInv w' c (Function.update m t (if remote then .waiting fd else .ready fd)) := by
  have hmoves : ∀ p : Stage, p.role = .opens → p.ino = fd.ino → Moves (m t) p := by
    intro p hr hino
    rw [hq]
    refine ⟨.inr ⟨hino, .inl hr⟩, fun i => ?_⟩
    rw [Stage.holds, hr]
    rfl
  cases remote with
  | true =>
    refine h.quiet (hmoves _ rfl rfl) hflag hview hstore trivial fun _ hbefore => ?_
    rw [hq] at hbefore
    exact absurd hbefore (by simp [Stage.unsettles, Stage.role, Stage.isEmptied])
  | false =>
    have hhere : (view w c fd.ino).Here :=
      ⟨hremote.symm, h.data_of_opens hq (by simp [Stage.opens, Stage.role, Stage.ino]) hremote.symm⟩
    refine h.quiet (hmoves _ rfl rfl) hflag hview hstore hhere fun _ _ => ?_
    rw [hq]
    exact hhere.settled

/-- A step of a client with a file that it has open. -/
theorem client (h : TierInv w c m) (hq : m t = q) (hopens : q.opens j = true) (hmoves : Moves q p)
    (hpino : p.ino = j)
    (hflag : ∀ i, w.isLocked i = true → w'.isLocked i = true)
    (hview : ∀ i, i ≠ j → view w' c' i = view w c i)
    (hstore : w'.store = w.store) (hp : p.At w.store (view w' c' j))
    (hothers : ∀ p' : Stage, p'.role ≠ .uploads → (q.role = .truncates → p'.role ≠ .downloads) →
      p'.At w.store (view w c j) → p'.At w.store (view w' c' j))
    (hsettled : p.unsettles j = false → Settled w.store (view w' c' j)) :
    TierInv w' c' (Function.update m t p) := by
  subst hq
  obtain rfl : (m t).ino = j := of_decide_eq_true (Bool.and_eq_true_iff.mp hopens).2
  refine h.local hmoves hflag hview hstore (by rw [hpino]; exact hp) (fun u _ hsame hat => ?_)
    fun hpj _ => hsettled hpj
  refine hothers _ (not_uploads_of_opens h hopens hsame) (fun hr => ?_) hat
  have htrunc : (m t).truncates (m t).ino = true := by simp [Stage.truncates, hr]
  exact not_downloads_of_truncates h htrunc hsame

/-- The stub attribute is removed by a client that has truncated the file. -/
theorem clearStub (h : TierInv w c m) (hq : m t = .clearing fd)
    (hflag : ∀ i, w.isLocked i = true → w'.isLocked i = true)
    (hview : ∀ i, i ≠ fd.ino → view w' c i = view w c i)
    (hstore : w'.store = w.store)
    (hself : view w' c fd.ino = { view w c fd.ino with stub := false }) :
    TierInv w' c (Function.update m t (.clearingId fd)) := by
  have hdata := h.here_of_eq hq (rfl : (Stage.clearing fd).ino = fd.ino)
  refine h.client (j := fd.ino) hq (decide_eq_true rfl) ⟨.inr ⟨rfl, .inl rfl⟩, fun _ => rfl⟩
    rfl hflag hview hstore ?_
    (fun p' hup hdown hat => ?_) fun hp => ?_
  · rw [hself]
    exact ⟨rfl, hdata⟩
  · rw [hself]
    exact hat.of_here hup (hdown rfl) (.inr rfl) id
  · simp [Stage.unsettles, Stage.role, Stage.ino] at hp

/-- And `object_id`. -/
theorem clearId (h : TierInv w c m) (hq : m t = .clearingId fd)
    (hflag : ∀ i, w.isLocked i = true → w'.isLocked i = true)
    (hview : ∀ i, i ≠ fd.ino → view w' c i = view w c i)
    (hstore : w'.store = w.store) (hself : view w' c fd.ino = { view w c fd.ino with id := none }) :
    TierInv w' c (Function.update m t (.ready fd)) := by
  have hhere : (view w' c fd.ino).Here := by
    rw [hself]
    exact h.here_of_eq hq rfl
  refine h.client (j := fd.ino) hq (decide_eq_true rfl) ⟨.inr ⟨rfl, .inr (.inr ⟨rfl, rfl⟩)⟩,
    fun _ => rfl⟩ rfl hflag
    hview hstore hhere (fun p' hup hdown hat => ?_) fun _ => hhere.settled
  rw [hself]
  exact hat.of_here hup (hdown rfl) (.inl rfl) id

/-- A client writes. -/
theorem clientWrite (h : TierInv w c m) (hq : m t = .ready fd) (pos : ℕ) (bs : Bytes) :
    TierInv (w.write fd.ino pos bs) (Function.update c fd.ino (writeAt (c fd.ino) pos bs))
      (Function.update m t (.ready fd)) := by
  obtain ⟨hstub, hdata⟩ := h.here_of_eq hq (rfl : (Stage.ready fd).ino = fd.ino)
  have hself :
      view (w.write fd.ino pos bs) (Function.update c fd.ino (writeAt (c fd.ino) pos bs)) fd.ino =
      { view w c fd.ino with
        data := writeAt (w.inode fd.ino).data pos bs
        content := writeAt (c fd.ino) pos bs } := by
    rw [World.write, view_update_self, Function.update_self]
    rfl
  have hsame : (w.inode fd.ino).data = c fd.ino →
      writeAt (w.inode fd.ino).data pos bs = writeAt (c fd.ino) pos bs :=
    fun heq => by rw [heq]
  refine h.client (j := fd.ino) hq (decide_eq_true rfl) ⟨.inr ⟨rfl, .inl rfl⟩, fun _ => rfl⟩ rfl
    (fun i => isLocked_setData)
      (fun i hi => view_update_of_ne hi (Function.update_of_ne hi _ _)) rfl ?_
    (fun p' hup _ hat => ?_) fun _ => ?_
  · rw [hself]
    exact ⟨hstub, hsame hdata⟩
  · rw [hself]
    by_cases hdown : p'.role = .downloads
    · exact hat.of_downloads hdown hstub
    · exact hat.of_here hup hdown (.inl rfl) hsame
  · rw [hself]
    exact View.Here.settled ⟨hstub, hsame hdata⟩

end TierInv

/-! ## Answers -/

/-- The file without an attribute. -/
def View.without (v : View) : Xattr → View
  | .stub => { v with stub := false }
  | .objectId => { v with id := none }
  | .locked => v

/-- The removal of an attribute that may not be there. -/
theorem view_of_remove {x : Xattr} {r : Except Errno Unit}
    (he : execOk w ch (.fremovexattr fd x) = some (r, w'))
    (hx : x ≠ .locked) : (∀ i, w.isLocked i = true → w'.isLocked i = true) ∧
      (∀ i, i ≠ fd.ino → view w' c i = view w c i) ∧ w'.store = w.store ∧
      view w' c fd.ino = (view w c fd.ino).without x := by
  rcases execOk_remove he with ⟨-, rfl⟩ | ⟨e, -, rfl, hnone⟩
  · refine ⟨fun i => isLocked_setXattr _ hx, fun i hi => view_update_of_ne hi rfl, rfl, ?_⟩
    cases x with
    | stub => exact view_setStub
    | objectId => exact view_setId
    | locked => exact absurd rfl hx
  · refine ⟨fun _ => id, fun _ _ => rfl, rfl, ?_⟩
    cases x with
    | stub =>
      have hstub : (view w' c fd.ino).stub = false := congrArg Option.isSome hnone
      rw [View.without, ← hstub]
    | objectId =>
      have hid : (view w' c fd.ino).id = none := hnone
      rw [View.without, ← hid]
    | locked => exact absurd rfl hx

/-- A look of the library changes nothing that matters. -/
theorem view_of_look {r : Rep call} (hlook : isLookCall fd call)
    (he : execOk w ch call = some (r, w')) :
    (∀ i, w.isLocked i = true → w'.isLocked i = true) ∧ (∀ i, view w' c i = view w c i) ∧
      w'.store = w.store ∧
      sawRemote call r = (view w c fd.ino).stub := by
  obtain ⟨hch, hexec, hs⟩ := execOk_eq_some he
  refine ⟨fun i hi => (exec_neutral (isNeutral_of_isLookCall hlook) hexec i .locked).trans hi, ?_⟩
  cases call with
  | fsetxattr fd' x v flag =>
    obtain ⟨rfl, rfl, rfl, rfl⟩ := hlook
    rcases exec_fsetxattr_replace hexec with ⟨rfl, hset, rfl⟩ | ⟨e, rfl, rfl, hnone⟩
    · refine ⟨fun i => ?_, rfl, hset.symm⟩
      by_cases hi : i = fd'.ino
      · have hstub : (view w c fd'.ino).stub = (some ([] : Bytes)).isSome := hset
        rw [hi, view_setStub, ← hstub]
      · exact view_update_of_ne hi rfl
    · obtain rfl : ch = .ok := (attempt_carriedOut hexec hch).1
      refine ⟨fun _ => rfl, rfl, ?_⟩
      rw [view, show (w'.inode fd'.ino).stub = none from (hnone rfl).2]
      rfl
  | fgetxattr fd' x k =>
    obtain ⟨rfl, rfl, rfl⟩ := hlook
    obtain ⟨rfl, ⟨v, rfl, hset⟩ | ⟨rfl, hnone⟩⟩ := execOk_check he
    · exact ⟨fun _ => rfl, rfl, hset.symm⟩
    · refine ⟨fun _ => rfl, rfl, ?_⟩
      rw [view, hnone]
      rfl
  | _ => exact hlook.elim

end

end Tiering

end CloudTiering
