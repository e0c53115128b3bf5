import CloudTiering.Foundations.Mutex
import CloudTiering.Tiering.Stages

/-!
# What the stages say about the files

Next to each file stands its *content*: what a plain file system would hold.  The invariant says
where the content is to be found, the local bytes or the object, whatever the threads of the daemon
and the clients are doing with the file.

* `Role`, `Stage.role`, `Stage.ino`: what a thread is doing with which file.
* `View`, `Stage.At`, `Settled`: what a stage says about the file it is concerned with, and what
  holds of a file that is in no one's hands.
* `TierInv`: the invariant.
* `TierInv.local`, `TierInv.quiet`: what has to be checked of a step that changes one file, or none.
-/

namespace CloudTiering

open Foundations App Concurrency

namespace Tiering

/-! ## Roles -/

/-- What a thread is doing with a file. -/
inductive Role
  | idle
  /-- It holds the lock and uploads. -/
  | uploads
  /-- It holds the lock and downloads. -/
  | downloads
  /-- It holds the lock, and the content is in place. -/
  | leaves
  /-- It has emptied the file, and has not cleared its attributes yet. -/
  | truncates
  /-- It has a descriptor. -/
  | opens
  deriving DecidableEq

/-- The role of a thread at a stage. -/
def Stage.role : Stage → Role
  | .checking true _ | .copying _ | .sizing .. | .reading .. | .stored .. | .named _
  | .stubbed _ | .sized ..
  | .emptied .. => .uploads
  | .checking false _ | .asking _ | .known .. | .fetching .. | .loading ..
  | .loaded .. => .downloads
  | .unstubbed _ | .unlocking _ => .leaves
  | .looking _ flags => if flags &&& oTrunc = oTrunc then .truncates else .opens
  | .clearing _ | .clearingId _ => .truncates
  | .waiting _ | .ready _ => .opens
  | _ => .idle

/-- The file that a stage is concerned with; it matters only where the role is not `idle`. -/
def Stage.ino : Stage → ℕ
  | .locking _ fd | .checking _ fd | .copying fd | .sizing fd _ | .reading fd ..
  | .stored fd .. | .named fd
  | .stubbed fd | .sized fd _ | .emptied fd _ | .asking fd | .known fd _ | .fetching fd ..
  | .loading fd ..
  | .loaded fd _ | .unstubbed fd | .unlocking fd | .closing fd | .looking fd _ | .clearing fd
  | .clearingId fd
  | .waiting fd | .ready fd => fd.ino
  | _ => 0

/-- The roles of the threads that hold the lock. -/
def Role.holds : Role → Bool
  | .uploads | .downloads | .leaves => true
  | _ => false

/-- The thread holds the lock of file `i`. -/
def Stage.holds (i : ℕ) (p : Stage) : Bool := p.role.holds && p.ino = i

/-- The thread has file `i` open. -/
def Stage.opens (i : ℕ) (p : Stage) : Bool := (p.role = .opens || p.role = .truncates) && p.ino = i

/-- The thread is about to clear the attributes of file `i`. -/
def Stage.truncates (i : ℕ) (p : Stage) : Bool := p.role = .truncates && p.ino = i

def Stage.uploads (i : ℕ) (p : Stage) : Bool := p.role = .uploads && p.ino = i

def Stage.downloads (i : ℕ) (p : Stage) : Bool := p.role = .downloads && p.ino = i

/-- The file is between its truncation and its extension. -/
def Stage.isEmptied : Stage → Bool
  | .emptied .. => true
  | _ => false

/-- The thread has left file `i` half-way. -/
def Stage.unsettles (i : ℕ) (p : Stage) : Bool := (p.role = .truncates || p.isEmptied) && p.ino = i

/-! ## What a stage says -/

/-- What there is of a file: its bytes, whether the stub attribute is set, the object id, and the
content that it should have. -/
structure View where
  data : Bytes
  stub : Bool
  id : Option Bytes
  content : Bytes

/-- File `i`. -/
def view (w : World) (c : ℕ → Bytes) (i : ℕ) : View :=
  ⟨(w.inode i).data, (w.inode i).stub.isSome, (w.inode i).objectId, c i⟩

/-- The content is here. -/
def View.Here (v : View) : Prop := v.stub = false ∧ v.data = v.content

/-- The content is in the store. -/
def View.There (store : Bytes → Option Bytes) (v : View) :
    Prop := (v.id.bind fun x => store (cString x)) = some v.content

/-- The file is remote, and `key` names its object. -/
def View.Named (v : View) (key : Bytes) : Prop := v.stub = true ∧ ∃ x, v.id = some x ∧
    cString x = key

/-- What a stage says about its file. -/
def Stage.At (store : Bytes → Option Bytes) (v : View) : Stage → Prop
  | .copying _ => v.Here
  | .sizing fd d => d.ino = fd.ino ∧ v.Here
  | .reading fd d n got => d.ino = fd.ino ∧ v.Here ∧ n = v.content.length ∧ got <+: v.content
  | .stored _ _ key => v.Here ∧ store key = some v.content
  | .named _ => v.Here ∧ v.There store
  | .stubbed _ => v.stub = true ∧ v.There store ∧ v.data = v.content
  | .sized _ n => v.stub = true ∧ v.There store ∧ v.data = v.content ∧ n = v.content.length
  | .emptied _ n => v.stub = true ∧ v.There store ∧ n = v.content.length
  | .asking _ => v.stub = true
  | .known _ key => v.Named key
  | .fetching fd d key => d.ino = fd.ino ∧ v.Named key
  | .loading fd d object done => d.ino = fd.ino ∧ v.stub = true ∧ object = v.content ∧
    done <+: object ∧
      ∃ old, v.data = writeAt old 0 done ∧ old.length = v.content.length
  | .loaded _ _ => v.stub = true ∧ v.data = v.content
  | .unstubbed _ => v.stub = false
  | .looking _ flags => flags &&& oTrunc = oTrunc → v.data = v.content
  | .clearing _ => v.data = v.content
  | .clearingId _ | .ready _ => v.Here
  | _ => True

/-- A file that nobody has left half-way. -/
def Settled (store : Bytes → Option Bytes) (v : View) : Prop :=
  (v.stub = false → v.data = v.content) ∧
    (v.stub = true → v.There store ∧ v.data.length = v.content.length)

theorem View.Here.settled {store : Bytes → Option Bytes} {v : View} (h : v.Here) :
    Settled store v := by
  refine ⟨fun _ => h.2, fun hstub => ?_⟩
  rw [h.1] at hstub
  exact absurd hstub Bool.false_ne_true

section

variable {store store' : Bytes → Option Bytes} {v v' : View} {p : Stage}

theorem Stage.At.of_idle (h : p.role = .idle) : p.At store v := by
  cases p with
  | checking up fd => cases up <;> exact absurd h (by simp [Stage.role])
  | looking fd flags =>
    change (if _ then Role.truncates else Role.opens) = _ at h
    split at h <;> exact absurd h (by simp)
  | _ => trivial

/-- Unless a thread is transferring a file, it only knows that the content is here. -/
theorem Stage.At.of_here (h : p.At store v) (hup : p.role ≠ .uploads) (hdown : p.role ≠ .downloads)
    (hstub : v'.stub = v.stub ∨ v'.stub = false)
    (hdata : v.data = v.content → v'.data = v'.content) :
    p.At store' v' := by
  have hlocal : v.stub = false → v'.stub = false := fun hs => hstub.elim (fun he => he.trans hs) id
  cases p with
  | checking up fd => cases up <;> trivial
  | unstubbed fd => exact hlocal h
  | looking fd flags => exact fun htrunc => hdata (h htrunc)
  | clearing fd => exact hdata h
  | clearingId fd => exact ⟨hlocal h.1, hdata h.2⟩
  | ready fd => exact ⟨hlocal h.1, hdata h.2⟩
  | _ => trivial

/-- A thread that is downloading knows that the file is remote. -/
theorem Stage.At.of_downloads (h : p.At store v) (hdown : p.role = .downloads)
    (hstub : v.stub = false) :
    p.At store' v' := by
  have hne : ¬ v.stub = true := by rw [hstub]; exact Bool.false_ne_true
  cases p with
  | checking up fd => cases up <;> trivial
  | asking fd => exact absurd h hne
  | known fd key => exact absurd h.1 hne
  | fetching fd d key => exact absurd h.2.1 hne
  | loading fd d object done => exact absurd h.2.1 hne
  | loaded fd d => exact absurd h.1 hne
  | looking fd flags =>
    change (if _ then Role.truncates else Role.opens) = _ at hdown
    split at hdown <;> exact absurd hdown (by simp)
  | _ => exact absurd hdown (by simp [Stage.role])

/-- A thread that has a descriptor of a remote file waits. -/
theorem Stage.At.of_opens (h : p.At store v) (hopens : p.role = .opens) (hstub : v.stub = true) :
    p.At store' v' := by
  have hne : ¬ v.stub = false := by rw [hstub]; exact Bool.noConfusion
  cases p with
  | checking up fd => cases up <;> exact absurd hopens (by simp [Stage.role])
  | looking fd flags =>
    intro htrunc
    rw [Stage.role, if_pos htrunc] at hopens
    exact absurd hopens (by simp)
  | waiting fd => trivial
  | ready fd => exact absurd h.1 hne
  | _ => exact absurd hopens (by simp [Stage.role])

/-- The store matters for the object of the file and for the key under which it has just been
stored. -/
theorem Stage.At.of_store (h : p.At store v)
    (hid : ∀ x, v.id = some x → store' (cString x) = store (cString x))
    (hkey : ∀ fd d key, p = .stored fd d key → store' key = store key) : p.At store' v := by
  have hthere : v.There store → v.There store' := by
    intro hv
    obtain ⟨x, hx, hobject⟩ := Option.bind_eq_some_iff.mp hv
    rw [View.There, hx]
    exact (hid x hx).trans hobject
  cases p with
  | stored fd d key => exact ⟨h.1, (hkey fd d key rfl).trans h.2⟩
  | named fd => exact ⟨h.1, hthere h.2⟩
  | stubbed fd => exact ⟨h.1, hthere h.2.1, h.2.2⟩
  | sized fd n => exact ⟨h.1, hthere h.2.1, h.2.2⟩
  | emptied fd n => exact ⟨h.1, hthere h.2.1, h.2.2⟩
  | _ => exact h

theorem Settled.of_store (h : Settled store v)
    (hid : ∀ x, v.id = some x → store' (cString x) = store (cString x)) :
    Settled store' v := by
  refine ⟨h.1, fun hstub => ⟨?_, (h.2 hstub).2⟩⟩
  obtain ⟨x, hx, hobject⟩ := Option.bind_eq_some_iff.mp (h.2 hstub).1
  rw [View.There, hx]
  exact (hid x hx).trans hobject

end

/-! ## The invariant -/

/-- Threads of the two kinds are never concerned with the same file. -/
def Apart {T : Type} (a b : ℕ → Stage → Bool) (m : T → Stage) : Prop :=
  ∀ t u i, a i (m t) = true → b i (m u) = false

/-- **The invariant.** -/
structure TierInv {T : Type} (w : World) (c : ℕ → Bytes) (m : T → Stage) : Prop where
  held : HeldAreSet Stage.holds w.isLocked m
  /-- Nobody has a file open that is being uploaded. -/
  closed : Apart Stage.uploads Stage.opens m
  /-- Nobody truncates a file that is being downloaded. -/
  calm : Apart Stage.downloads Stage.truncates m
  here : ∀ t, (m t).At w.store (view w c (m t).ino)
  settled : ∀ i, (∀ t, (m t).unsettles i = false) → Settled w.store (view w c i)

section

variable {T : Type} [DecidableEq T] {a b : ℕ → Stage → Bool} {m : T → Stage} {t : T} {p : Stage}

theorem Apart.update (h : Apart a b m)
    (ha : ∀ i, a i p = true → a i (m t) = true ∨ ∀ u, b i (m u) = false)
    (hb : ∀ i, b i p = true → b i (m t) = true ∨ ∀ u, a i (m u) = false)
    (hab : ∀ i, a i p = true → b i p = false) : Apart a b (Function.update m t p) := by
  intro u u' i hu
  by_cases hut : u = t
  · rw [hut, Function.update_self] at hu
    by_cases hu' : u' = t
    · rw [hu', Function.update_self]
      exact hab i hu
    · rw [Function.update_of_ne hu']
      exact (ha i hu).elim (fun hold => h t u' i hold) fun hnone => hnone u'
  · rw [Function.update_of_ne hut] at hu
    by_cases hu' : u' = t
    · rw [hu', Function.update_self]
      by_contra hne
      rcases hb i (Bool.not_eq_false _ ▸ hne) with hold | hnone
      · exact absurd (h u t i hu) (by rw [hold]; exact Bool.noConfusion)
      · exact absurd (hnone u) (by rw [hu]; exact Bool.noConfusion)
    · rw [Function.update_of_ne hu']
      exact h u u' i hu

theorem not_opens_of_uploads {i : ℕ} (h : p.uploads i = true) : p.opens i = false := by
  have hrole : p.role = .uploads := of_decide_eq_true (Bool.and_eq_true_iff.mp h).1
  rw [Stage.opens, hrole]
  rfl

theorem not_truncates_of_downloads {i : ℕ} (h : p.downloads i = true) : p.truncates i = false := by
  have hrole : p.role = .downloads := of_decide_eq_true (Bool.and_eq_true_iff.mp h).1
  rw [Stage.truncates, hrole]
  rfl

/-- The thread goes on with its file, or leaves it; it takes and releases no lock. -/
structure Moves (q p : Stage) : Prop where
  role : p.role = .idle ∨ p.ino = q.ino ∧
    (p.role = q.role ∨ p.role = .leaves ∨ (q.role = .truncates ∧ p.role = .opens))
  holds : ∀ i, p.holds i = q.holds i

variable {q : Stage} {i : ℕ}

omit [DecidableEq T] in
theorem Moves.uploads (h : Moves q p) (hp : p.uploads i = true) : q.uploads i = true := by
  unfold Stage.uploads at hp ⊢
  rcases h.role with hr | ⟨hino, hr | hr | ⟨-, hr⟩⟩
  · simp [hr] at hp
  · rwa [← hr, ← hino]
  · simp [hr] at hp
  · simp [hr] at hp

theorem Moves.downloads (h : Moves q p) (hp : p.downloads i = true) : q.downloads i = true := by
  unfold Stage.downloads at hp ⊢
  rcases h.role with hr | ⟨hino, hr | hr | ⟨-, hr⟩⟩
  · simp [hr] at hp
  · rwa [← hr, ← hino]
  · simp [hr] at hp
  · simp [hr] at hp

theorem Moves.truncates (h : Moves q p) (hp : p.truncates i = true) : q.truncates i = true := by
  unfold Stage.truncates at hp ⊢
  rcases h.role with hr | ⟨hino, hr | hr | ⟨-, hr⟩⟩
  · simp [hr] at hp
  · rwa [← hr, ← hino]
  · simp [hr] at hp
  · simp [hr] at hp

theorem Moves.opens (h : Moves q p) (hp : p.opens i = true) : q.opens i = true := by
  unfold Stage.opens at hp ⊢
  rcases h.role with hr | ⟨hino, hr | hr | ⟨hq, hr⟩⟩
  · simp [hr] at hp
  · rwa [← hr, ← hino]
  · simp [hr] at hp
  · rw [← hino]
    simpa [hq, hr] using hp

variable {w w' : World} {c c' : ℕ → Bytes} {j : ℕ}

/-- **A step that changes one file.** -/
theorem TierInv.update (h : TierInv w c m)
    (hheld : HeldAreSet Stage.holds w'.isLocked (Function.update m t p))
    (hclosed : Apart Stage.uploads Stage.opens (Function.update m t p))
    (hcalm : Apart Stage.downloads Stage.truncates (Function.update m t p))
    (hview : ∀ i, i ≠ j → view w' c' i = view w c i) (hstore : w'.store = w.store)
    (hj : ∀ i, (m t).unsettles i = true → i = j) (hp : p.At w.store (view w' c' p.ino))
    (hothers : ∀ u, u ≠ t → (m u).ino = j → (m u).At w.store (view w c j) →
      (m u).At w.store (view w' c' j))
    (hsettled : p.unsettles j = false → ((m t).unsettles j = false → Settled w.store (view w c j)) →
      Settled w.store (view w' c' j)) :
    TierInv w' c' (Function.update m t p) := by
  refine ⟨hheld, hclosed, hcalm, fun u => ?_, fun i hi => ?_⟩
  · rw [hstore]
    by_cases hu : u = t
    · rw [hu, Function.update_self]
      exact hp
    · rw [Function.update_of_ne hu]
      have hold := h.here u
      by_cases hino : (m u).ino = j
      · rw [hino] at hold ⊢
        exact hothers u hu hino hold
      · rw [hview _ hino]
        exact hold
  · rw [hstore]
    -- the file is settled already, unless it is the thread of the step that has left it half-way
    have hrest : ∀ u, u ≠ t → (m u).unsettles i = false := by
      intro u hu
      have := hi u
      rwa [Function.update_of_ne hu] at this
    have hbefore : (m t).unsettles i = false → Settled w.store (view w c i) := by
      intro ht
      refine h.settled i fun u => ?_
      by_cases hu : u = t
      · rw [hu]
        exact ht
      · exact hrest u hu
    by_cases hij : i = j
    · subst hij
      have hpi := hi t
      rw [Function.update_self] at hpi
      exact hsettled hpi hbefore
    · rw [hview i hij]
      refine hbefore ?_
      by_contra hne
      exact hij (hj i (by simpa using hne))

omit [DecidableEq T] in
theorem ino_of_unsettles (h : p.unsettles i = true) : p.ino = i :=
  of_decide_eq_true (Bool.and_eq_true_iff.mp h).2

/-- A step that changes the file that the thread is concerned with, and goes on with it. -/
theorem TierInv.local (h : TierInv w c m) (hmoves : Moves (m t) p)
    (hflag : ∀ i, w.isLocked i = true → w'.isLocked i = true)
    (hview : ∀ i, i ≠ (m t).ino → view w' c' i = view w c i) (hstore : w'.store = w.store)
    (hp : p.At w.store (view w' c' p.ino))
    (hothers : ∀ u, u ≠ t → (m u).ino = (m t).ino → (m u).At w.store (view w c (m t).ino) →
      (m u).At w.store (view w' c' (m t).ino))
    (hsettled : p.unsettles (m t).ino = false →
      ((m t).unsettles (m t).ino = false → Settled w.store (view w c (m t).ino)) →
      Settled w.store (view w' c' (m t).ino)) :
    TierInv w' c' (Function.update m t p) :=
  h.update (h.held.stay hflag hmoves.holds)
    (h.closed.update (fun _ hi => .inl (hmoves.uploads hi)) (fun _ hi => .inl (hmoves.opens hi))
      fun _ => not_opens_of_uploads)
    (h.calm.update (fun _ hi => .inl (hmoves.downloads hi)) (fun _ hi => .inl (hmoves.truncates hi))
      fun _ => not_truncates_of_downloads)
    hview hstore (fun _ hi => (ino_of_unsettles hi).symm) hp hothers hsettled

/-- A step that leaves all files as they are. -/
theorem TierInv.quiet (h : TierInv w c m) (hmoves : Moves (m t) p)
    (hflag : ∀ i, w.isLocked i = true → w'.isLocked i = true)
    (hview : ∀ i, view w' c i = view w c i)
    (hstore : w'.store = w.store) (hp : p.At w.store (view w c p.ino))
    (hsettled : p.unsettles (m t).ino = false → (m t).unsettles (m t).ino = true →
      Settled w.store (view w c (m t).ino)) :
    TierInv w' c (Function.update m t p) := by
  refine h.local hmoves hflag (fun i _ => hview i) hstore (by rw [hview]; exact hp)
    (fun u _ _ hu => ?_) ?_
  · rw [hview]
    exact hu
  · intro hpi hbefore
    rw [hview]
    cases hq : (m t).unsettles (m t).ino with
    | false => exact hbefore hq
    | true => exact hsettled hpi hq

end

end Tiering

end CloudTiering
