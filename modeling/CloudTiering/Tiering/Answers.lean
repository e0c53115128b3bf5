import CloudTiering.Tiering.Steps

/-!
# Every call keeps the invariant

One lemma for each kind of thread, and their union.

* `TierInv.answer_uploads`, `TierInv.answer_downloads`, `TierInv.answer_leaves`: the daemon's
  threads.
* `TierInv.answer_idle`, `TierInv.answer_clients`: the clients, and threads outside.
* `TierInv.answer`: the invariant holds after the call, and the plain file system makes the same
  events.
-/

namespace CloudTiering

open Foundations App Concurrency

namespace Tiering

section

variable {T : Type} [DecidableEq T] {w w' : World} {c : ℕ → Bytes} {m : T → Stage}
  {t : T} {q : Stage}
  {ch : Choice} {call : Call} {r : Rep call}

namespace TierInv

/-- An upload. -/
theorem answer_uploads (h : TierInv w c m) (hq : m t = q) (hrole : q.role = .uploads)
    (hpre : q.expects call)
    (he : execOk w ch call = some (r, w'))
    (hput : ∀ fd d n got key, q = .reading fd d n got → call = .putEnd key got →
      KeyUnused w m fd.ino key) :
    q.answered call r ∧ TierInv w' c (Function.update m t (q.next call r)) := by
  obtain ⟨hch, hexec, hs⟩ := execOk_eq_some he
  cases q with
  | checking up fd =>
    cases up with
    | false => exact absurd hrole (by simp [Stage.role])
    | true =>
    obtain rfl : call = _ := hpre
    refine ⟨hs, ?_⟩
    rcases (execOk_check he).2 with ⟨v, rfl, -⟩ | ⟨rfl, hnone⟩
    · exact h.quietCall hq rfl rfl he ⟨.inr ⟨rfl, .inr (.inl rfl)⟩, fun _ => rfl⟩ rfl trivial
    · have hstub : (view w c fd.ino).stub = false := congrArg Option.isSome hnone
      exact h.quietCall (p := .copying fd) hq rfl rfl he ⟨.inr ⟨rfl, .inl rfl⟩, fun _ => rfl⟩ rfl
        ⟨hstub, (h.settled_of_holds hq rfl (.inl rfl) rfl).1 hstub⟩
  | copying fd =>
    obtain rfl : call = _ := hpre
    refine ⟨hs, ?_⟩
    have hhere := h.here_of_eq hq (rfl : (Stage.copying fd).ino = fd.ino)
    rcases exec_dup hexec with ⟨rfl, -⟩ | ⟨e, rfl, -⟩
    · exact h.quietCall (p := .sizing fd _) hq rfl rfl he ⟨.inr ⟨rfl, .inl rfl⟩, fun _ => rfl⟩ rfl
        ⟨rfl, hhere⟩
    · exact absurd hs Bool.false_ne_true
  | sizing fd d =>
    obtain rfl : call = _ := hpre
    refine ⟨hs, ?_⟩
    obtain ⟨hd, hhere⟩ := h.here_of_eq hq (rfl : (Stage.sizing fd d).ino = fd.ino)
    obtain ⟨-, rfl | ⟨e, rfl, -⟩⟩ := exec_fstat hexec
    · refine h.quietCall (p := .reading fd d _ []) hq rfl rfl he
        ⟨.inr ⟨rfl, .inl rfl⟩, fun _ => rfl⟩ rfl
        ⟨hd, hhere, ?_, List.nil_prefix⟩
      rw [hd]
      exact congrArg List.length hhere.2
    · exact absurd hs Bool.false_ne_true
  | reading fd d n got =>
    obtain ⟨hd, hhere, hn, hpre'⟩ := h.here_of_eq hq (rfl : (Stage.reading fd d n got).ino = fd.ino)
    rcases hpre with rfl | rfl | ⟨k, hlt, hk, rfl⟩ | ⟨hle, key, rfl⟩
    · exact ⟨hs, h.quietCall (p := .reading fd d n got) hq rfl rfl he
        ⟨.inr ⟨rfl, .inl rfl⟩, fun _ => rfl⟩ rfl
        ⟨hd, hhere, hn, hpre'⟩⟩
    · exact ⟨hs, h.quietCall (p := .reading fd d n got) hq rfl rfl he
        ⟨.inr ⟨rfl, .inl rfl⟩, fun _ => rfl⟩ rfl
        ⟨hd, hhere, hn, hpre'⟩⟩
    · obtain ⟨-, ⟨-, rfl⟩ | ⟨e, k', rfl, -⟩⟩ := exec_fread hexec
      · have hdata : (w.inode d.ino).data = c fd.ino := by
          rw [hd]
          exact hhere.2
        rw [hdata] at he ⊢
        exact ⟨readAt_ne_nil (hn ▸ hlt) hk,
          h.quietCall (p := .reading fd d n (got ++ _)) hq rfl rfl he
          ⟨.inr ⟨rfl, .inl rfl⟩, fun _ => rfl⟩ rfl ⟨hd, hhere, hn, prefix_append_readAt hpre' k⟩⟩
      · exact absurd hch Bool.false_ne_true
    · rcases exec_putEnd hexec with ⟨-, rfl, rfl⟩ | ⟨-, hne, -⟩
      · exact ⟨hs, h.putObject hq hle (hput fd d n got key rfl rfl)⟩
      · exact absurd (of_decide_eq_true hs) hne
  | stored fd d key =>
    rcases hpre with rfl | ⟨v, hv, rfl⟩
    · exact ⟨hs, h.quietCall (p := .stored fd d key) hq rfl rfl he
        ⟨.inr ⟨rfl, .inl rfl⟩, fun _ => rfl⟩ rfl
        (h.here_of_eq hq rfl)⟩
    · refine ⟨hs, ?_⟩
      rcases execOk_create he with ⟨rfl, -, rfl⟩ | ⟨e, rfl, rfl, -⟩
      · exact h.setId hq hv
      · exact h.skip (p := .unlocking fd) hq ⟨.inr ⟨rfl, .inr (.inl rfl)⟩, fun _ => rfl⟩ rfl trivial
  | named fd =>
    obtain rfl : call = _ := hpre
    obtain ⟨⟨hstub, -⟩, -⟩ := h.here_of_eq hq (rfl : (Stage.named fd).ino = fd.ino)
    rcases execOk_create he with ⟨rfl, -, rfl⟩ | ⟨e, -, -, hset⟩
    · exact ⟨rfl, h.setStub hq []⟩
    · exact absurd (hstub.symm.trans hset) Bool.false_ne_true
  | stubbed fd =>
    obtain rfl : call = _ := hpre
    refine ⟨hs, ?_⟩
    obtain ⟨hstub, hthere, hdata⟩ := h.here_of_eq hq (rfl : (Stage.stubbed fd).ino = fd.ino)
    obtain ⟨-, rfl | ⟨e, rfl, -⟩⟩ := exec_fstat hexec
    · exact h.quietCall (p := .sized fd _) hq rfl rfl he ⟨.inr ⟨rfl, .inl rfl⟩, fun _ => rfl⟩ rfl
        ⟨hstub, hthere, hdata, congrArg List.length hdata⟩
    · exact absurd hs Bool.false_ne_true
  | sized fd n =>
    obtain rfl : call = _ := hpre
    refine ⟨hs, ?_⟩
    rcases exec_ftruncate hexec with ⟨-, rfl⟩ | ⟨e, rfl, -⟩
    · exact h.empty hq
    · exact absurd hs Bool.false_ne_true
  | emptied fd n =>
    obtain rfl : call = _ := hpre
    refine ⟨hs, ?_⟩
    rcases exec_ftruncate hexec with ⟨-, rfl⟩ | ⟨e, rfl, -⟩
    · exact h.extend hq
    · exact absurd hs Bool.false_ne_true
  | looking fd flags =>
    change (if _ then Role.truncates else Role.opens) = _ at hrole
    split at hrole <;> exact absurd hrole (by simp)
  | _ => exact absurd hrole (by simp [Stage.role])

/-- A download. -/
theorem answer_downloads (h : TierInv w c m) (hq : m t = q) (hrole : q.role = .downloads)
    (hpre : q.expects call)
    (he : execOk w ch call = some (r, w')) :
    q.answered call r ∧ TierInv w' c (Function.update m t (q.next call r)) := by
  obtain ⟨hch, hexec, hs⟩ := execOk_eq_some he
  cases q with
  | checking up fd =>
    cases up with
    | true => exact absurd hrole (by simp [Stage.role])
    | false =>
    obtain rfl : call = _ := hpre
    refine ⟨hs, ?_⟩
    rcases (execOk_check he).2 with ⟨v, rfl, hset⟩ | ⟨rfl, -⟩
    · exact h.quietCall (p := .asking fd) hq rfl rfl he
        ⟨.inr ⟨rfl, .inl rfl⟩, fun _ => rfl⟩ rfl hset
    · exact h.quietCall hq rfl rfl he ⟨.inr ⟨rfl, .inr (.inl rfl)⟩, fun _ => rfl⟩ rfl trivial
  | asking fd =>
    obtain ⟨n, hn, rfl⟩ := hpre
    refine ⟨hs, ?_⟩
    have hstub : (view w c fd.ino).stub = true := h.here_of_eq hq rfl
    obtain ⟨-, ⟨x, v, hx, rfl, hv⟩ | ⟨rfl, -⟩ | ⟨e, rfl, hne, -⟩⟩ := exec_fgetxattr hexec
    · exact h.quietCall (p := .known fd (cString v)) hq rfl rfl he
        ⟨.inr ⟨rfl, .inl rfl⟩, fun _ => rfl⟩ rfl
        ⟨hstub, x, hx, congrArg cString (hv hn).symm⟩
    · exact h.quietCall hq rfl rfl he ⟨.inr ⟨rfl, .inr (.inl rfl)⟩, fun _ => rfl⟩ rfl trivial
    · exact absurd (of_decide_eq_true hs) hne
  | known fd key =>
    obtain rfl : call = _ := hpre
    refine ⟨hs, ?_⟩
    have hnamed := h.here_of_eq hq (rfl : (Stage.known fd key).ino = fd.ino)
    rcases exec_dup hexec with ⟨rfl, -⟩ | ⟨e, rfl, -⟩
    · exact h.quietCall (p := .fetching fd _ key) hq rfl rfl he
        ⟨.inr ⟨rfl, .inl rfl⟩, fun _ => rfl⟩ rfl
        ⟨rfl, hnamed⟩
    · exact absurd hs Bool.false_ne_true
  | fetching fd d key =>
    refine ⟨hs, ?_⟩
    obtain ⟨hd, hstub, x, hx, rfl⟩ := h.here_of_eq hq (rfl : (Stage.fetching fd d key).ino = fd.ino)
    rcases hpre with rfl | rfl
    · exact h.quietCall (p := .fetching fd d (cString x)) hq rfl rfl he
        ⟨.inr ⟨rfl, .inl rfl⟩, fun _ => rfl⟩ rfl
        ⟨hd, hstub, x, hx, rfl⟩
    · obtain ⟨hthere, hlen⟩ := (h.settled_of_holds hq rfl (.inr rfl) rfl).2 hstub
      rw [View.There, hx] at hthere
      obtain ⟨-, ⟨object, -, hobject, rfl⟩ | ⟨-, rfl⟩ | ⟨status, -, -, rfl⟩⟩ := exec_getBegin hexec
      · exact h.quietCall (p := .loading fd d object []) hq rfl rfl he
          ⟨.inr ⟨rfl, .inl rfl⟩, fun _ => rfl⟩ rfl
          ⟨hd, hstub, Option.some.inj (hobject.symm.trans hthere), List.nil_prefix, _, rfl, hlen⟩
      · exact absurd hs Bool.false_ne_true
      · exact absurd hs Bool.false_ne_true
  | loading fd d object done =>
    refine ⟨hs, ?_⟩
    have hat := h.here_of_eq hq (rfl : (Stage.loading fd d object done).ino = fd.ino)
    rcases hpre with rfl | ⟨bs, rest, hrest, rfl⟩ | ⟨rfl, rfl⟩
    · exact h.quietCall (p := .loading fd d object done) hq rfl rfl he
        ⟨.inr ⟨rfl, .inl rfl⟩, fun _ => rfl⟩ rfl hat
    · rcases exec_fwrite hexec with ⟨-, -, rfl⟩ | ⟨e, k, rfl, -⟩
      · exact h.writeObject hq hrest
      · exact absurd hch Bool.false_ne_true
    · obtain ⟨-, hstub, hobject, -, old, hdata, hlen⟩ := hat
      have hle : old.length ≤ done.length := by
        rw [hobject]
        exact hlen.le
      exact h.quietCall (p := .loaded fd d) hq rfl rfl he ⟨.inr ⟨rfl, .inl rfl⟩, fun _ => rfl⟩ rfl
        ⟨hstub, hdata.trans ((writeAt_zero_of_le hle).trans hobject)⟩
  | loaded fd d =>
    refine ⟨hs, ?_⟩
    rcases hpre with rfl | rfl
    · exact h.quietCall (p := .loaded fd d) hq rfl rfl he ⟨.inr ⟨rfl, .inl rfl⟩, fun _ => rfl⟩ rfl
        (h.here_of_eq hq rfl)
    · rcases execOk_remove he with ⟨rfl, rfl⟩ | ⟨e, rfl, rfl, -⟩
      · exact h.removeStub hq
      · exact h.skip hq ⟨.inr ⟨rfl, .inr (.inl rfl)⟩, fun _ => rfl⟩ rfl trivial
  | looking fd flags =>
    change (if _ then Role.truncates else Role.opens) = _ at hrole
    split at hrole <;> exact absurd hrole (by simp)
  | _ => exact absurd hrole (by simp [Stage.role])

/-- The end of a transfer. -/
theorem answer_leaves (h : TierInv w c m) (hq : m t = q) (hrole : q.role = .leaves)
    (hpre : q.expects call)
    (he : execOk w ch call = some (r, w')) :
    q.answered call r ∧ TierInv w' c (Function.update m t (q.next call r)) := by
  obtain ⟨-, -, hs⟩ := execOk_eq_some he
  cases q with
  | unstubbed fd =>
    obtain rfl : call = _ := hpre
    refine ⟨hs, ?_⟩
    rcases execOk_remove he with ⟨rfl, rfl⟩ | ⟨e, rfl, rfl, -⟩
    · exact h.removeId hq
    · exact h.skip hq ⟨.inr ⟨rfl, .inl rfl⟩, fun _ => rfl⟩ rfl trivial
  | unlocking fd =>
    obtain rfl : call = _ := hpre
    exact ⟨hs, h.unlock hq he⟩
  | checking up fd => cases up <;> exact absurd hrole (by simp [Stage.role])
  | looking fd flags =>
    change (if _ then Role.truncates else Role.opens) = _ at hrole
    split at hrole <;> exact absurd hrole (by simp)
  | _ => exact absurd hrole (by simp [Stage.role])

/-- The C library opens a file that is there. -/
theorem execOk_libcOpen {self flags : ℕ} {path : Bytes} {r : Except Errno Fd}
    (he : execOk w ch (.libcOpen self path flags) = some (r, w')) :
    ∃ fd names, w.names path = some fd.ino ∧ r = .ok fd ∧ w' = { (if flags &&& oTrunc = oTrunc then
      w.update fd.ino { w.inode fd.ino with data := [] } else w) with names := names } := by
  obtain ⟨hch, hexec, hs⟩ := execOk_eq_some he
  cases ch with
  | size n =>
    obtain ⟨-, hx⟩ := Option.ite_none_right_eq_some.mp hexec
    have hx := Option.some.inj hx
    unfold World.libcOpen at hx
    cases hi : w.names path with
    | none =>
      rw [hi] at hx
      obtain ⟨rfl, -⟩ := Prod.mk.inj hx
      exact absurd hs Bool.false_ne_true
    | some i =>
      rw [hi] at hx
      obtain ⟨rfl, rfl⟩ := Prod.mk.inj hx
      exact ⟨⟨i, n⟩, _, rfl, rfl, rfl⟩
  | fail e => exact absurd hch Bool.false_ne_true
  | _ => exact absurd hexec.symm (Option.some_ne_none _)

/-- A thread that has nothing to do with a file yet, or not any more. -/
theorem answer_idle (h : TierInv w c m) (hq : m t = q) (hrole : q.role = .idle)
    (hpre : q.expects call)
    (he : execOk w ch call = some (r, w'))
    (hlock : ∀ up fd, q = .locking up fd → (w.inode fd.ino).locked = none →
      (up = true → ∀ u, (m u).opens fd.ino = false) ∧
      (up = false → ∀ u, (m u).truncates fd.ino = false))
    (hopen : ∀ self path flags i, q = .entering self path flags → w.names path = some i →
      (∀ u, (m u).uploads i = false) ∧
      (flags &&& oTrunc = oTrunc → ∀ u, (m u).downloads i = false)) :
    q.answered call r ∧ ∃ c', run plainStep c (q.emits call r) = some c' ∧
      TierInv w' c' (Function.update m t (q.next call r)) := by
  obtain ⟨hch, hexec, hs⟩ := execOk_eq_some he
  cases q with
  | outside => exact hpre.elim
  | popping secondary =>
    obtain rfl : call = _ := hpre
    refine ⟨hs, c, rfl, ?_⟩
    rw [next_popping]
    cases Option.or r secondary with
    | none => exact h.quietCall hq rfl rfl he ⟨.inl rfl, fun _ => rfl⟩ rfl trivial
    | some data => exact h.quietCall hq rfl rfl he ⟨.inl rfl, fun _ => rfl⟩ rfl trivial
  | starting up path =>
    obtain rfl : call = _ := hpre
    refine ⟨hs, c, rfl, ?_⟩
    cases r with
    | ok fd => exact h.quietCall hq rfl rfl he ⟨.inl rfl, fun _ => rfl⟩ rfl trivial
    | error e => exact h.quietCall hq rfl rfl he ⟨.inl rfl, fun _ => rfl⟩ rfl trivial
  | locking up fd =>
    obtain rfl : call = _ := hpre
    refine ⟨hs, c, rfl, ?_⟩
    rcases execOk_create he with ⟨rfl, hfree, rfl⟩ | ⟨e, rfl, rfl, -⟩
    · obtain ⟨hup, hdown⟩ := hlock up fd rfl hfree
      exact h.lock hq hfree hup hdown []
    · exact h.skip hq ⟨.inl rfl, fun _ => rfl⟩ rfl trivial
  | closing fd =>
    obtain rfl : call = _ := hpre
    exact ⟨hs, c, rfl, h.quietCall hq rfl rfl he ⟨.inl rfl, fun _ => rfl⟩ rfl trivial⟩
  | entering self path flags =>
    obtain rfl : call = _ := hpre
    refine ⟨hs, ?_⟩
    obtain ⟨fd, names, hi, rfl, rfl⟩ := execOk_libcOpen he
    obtain ⟨hup, hdown⟩ := hopen self path flags fd.ino rfl hi
    by_cases htrunc : flags &&& oTrunc = oTrunc
    · refine ⟨Function.update c fd.ino [], ?_, h.enter hq hup hdown (fun i hi => ?_)
        (fun i hi => ?_) ?_
        (absurd htrunc) fun _ => ?_⟩
      · simp only [Stage.emits, if_pos htrunc]
        rfl
      all_goals rw [if_pos htrunc]
      · exact isLocked_setData hi
      · exact view_update_of_ne hi (Function.update_of_ne hi _ _)
      · rfl
      · simp [view, World.update]
    · refine ⟨c, ?_, h.enter hq hup hdown (fun i hi => ?_) (fun i hi => ?_) ?_ (fun _ => ?_)
        (absurd · htrunc)⟩
      · simp only [Stage.emits, if_neg htrunc]
        rfl
      all_goals rw [if_neg htrunc]
      · exact hi
      all_goals rfl
  | checking up fd => cases up <;> exact absurd hrole (by simp [Stage.role])
  | looking fd flags =>
    change (if _ then Role.truncates else Role.opens) = _ at hrole
    split at hrole <;> exact absurd hrole (by simp)
  | _ => exact absurd hrole (by simp [Stage.role])

/-- A client. -/
theorem answer_clients (h : TierInv w c m) (hq : m t = q)
    (hrole : q.role = .opens ∨ q.role = .truncates)
    (hpre : q.expects call) (he : execOk w ch call = some (r, w')) :
    q.answered call r ∧ ∃ c', run plainStep c (q.emits call r) = some c' ∧
      TierInv w' c' (Function.update m t (q.next call r)) := by
  obtain ⟨hch, hexec, hs⟩ := execOk_eq_some he
  cases q with
  | looking fd flags =>
    obtain ⟨hflag, hview, hstore, hsaw⟩ := view_of_look (c := c) hpre he
    exact ⟨hs, c, rfl, h.looked hq hsaw hflag hview hstore⟩
  | clearing fd =>
    obtain rfl : call = _ := hpre
    obtain ⟨hflag, hview, hstore, hself⟩ := view_of_remove (c := c) he (by simp)
    exact ⟨hs, c, rfl, h.clearStub hq hflag hview hstore hself⟩
  | clearingId fd =>
    obtain rfl : call = _ := hpre
    obtain ⟨hflag, hview, hstore, hself⟩ := view_of_remove (c := c) he (by simp)
    exact ⟨hs, c, rfl, h.clearId hq hflag hview hstore hself⟩
  | waiting fd =>
    refine ⟨hs, c, rfl, ?_⟩
    rcases hpre with hlook | ⟨pid, hsetup⟩ | ⟨data, rfl⟩
    · obtain ⟨hflag, hview, hstore, hsaw⟩ := view_of_look (c := c) hlook he
      exact h.lookedAgain hq hsaw hflag hview hstore
    · have hstay : (Stage.waiting fd).next call r = .waiting fd := by
        cases call <;> first | rfl | exact absurd hsetup Bool.false_ne_true
      rw [hstay]
      refine h.quietCall hq ?_ ?_ he ⟨.inr ⟨rfl, .inl rfl⟩, fun _ => rfl⟩ rfl trivial
      all_goals cases call <;> first | rfl | exact absurd hsetup Bool.false_ne_true
    · exact h.quietCall hq rfl rfl he ⟨.inr ⟨rfl, .inl rfl⟩, fun _ => rfl⟩ rfl trivial
  | ready fd =>
    refine ⟨hs, ?_⟩
    obtain ⟨hstub, hdata⟩ := h.here_of_eq hq (rfl : (Stage.ready fd).ino = fd.ino)
    rcases hpre with ⟨pos, n, rfl⟩ | ⟨pos, bs, rfl⟩ | rfl
    · obtain ⟨-, ⟨-, rfl⟩ | ⟨e, k, rfl, -⟩⟩ := exec_fread hexec
      · have hread : readAt (w.inode fd.ino).data pos n = readAt (c fd.ino) pos n :=
          congrArg (readAt · pos n) hdata
        refine ⟨c, ?_, h.quietCall hq rfl rfl he ⟨.inr ⟨rfl, .inl rfl⟩, fun _ => rfl⟩ rfl
          ⟨hstub, hdata⟩⟩
        rw [Stage.emits, run_cons, plainStep, if_pos hread]
        rfl
      · exact absurd hch Bool.false_ne_true
    · rcases exec_fwrite hexec with ⟨-, rfl, rfl⟩ | ⟨e, k, rfl, -⟩
      · refine ⟨_, ?_, h.clientWrite hq pos bs⟩
        rw [Stage.emits, List.take_length]
        rfl
      · exact absurd hch Bool.false_ne_true
    · exact ⟨c, rfl, h.quietCall hq rfl rfl he ⟨.inl rfl, fun _ => rfl⟩ rfl trivial⟩
  | checking up fd => cases up <;> exact absurd hrole (by simp [Stage.role])
  | _ => exact absurd hrole (by simp [Stage.role])

theorem emits_eq_nil (hidle : q.role ≠ .idle) (hopens : q.role ≠ .opens) : q.emits call r = [] := by
  cases q with
  | entering self path flags => exact absurd rfl hidle
  | ready fd => exact absurd rfl hopens
  | _ => rfl

/-- **One call of one thread.** -/
theorem answer (h : TierInv w c m) (hpre : (m t).expects call)
    (he : execOk w ch call = some (r, w'))
    (hlock : ∀ up fd, m t = .locking up fd → (w.inode fd.ino).locked = none →
      (up = true → ∀ u, (m u).opens fd.ino = false) ∧
      (up = false → ∀ u, (m u).truncates fd.ino = false))
    (hopen : ∀ self path flags i, m t = .entering self path flags → w.names path = some i →
      (∀ u, (m u).uploads i = false) ∧ (flags &&& oTrunc = oTrunc → ∀ u, (m u).downloads i = false))
    (hput : ∀ fd d n got key, m t = .reading fd d n got → call = .putEnd key got →
      KeyUnused w m fd.ino key) :
    (m t).answered call r ∧ ∃ c', run plainStep c ((m t).emits call r) = some c' ∧
      TierInv w' c' (Function.update m t ((m t).next call r)) := by
  have hquiet : (m t).role ≠ .idle → (m t).role ≠ .opens →
      run plainStep c ((m t).emits call r) = some c :=
    fun hidle hopens => by rw [emits_eq_nil hidle hopens]; rfl
  cases hrole : (m t).role with
  | idle => exact h.answer_idle rfl hrole hpre he hlock hopen
  | opens => exact h.answer_clients rfl (.inl hrole) hpre he
  | truncates => exact h.answer_clients rfl (.inr hrole) hpre he
  | uploads =>
    obtain ⟨hans, hinv⟩ := h.answer_uploads rfl hrole hpre he hput
    exact ⟨hans, c, hquiet (by simp [hrole]) (by simp [hrole]), hinv⟩
  | downloads =>
    obtain ⟨hans, hinv⟩ := h.answer_downloads rfl hrole hpre he
    exact ⟨hans, c, hquiet (by simp [hrole]) (by simp [hrole]), hinv⟩
  | leaves =>
    obtain ⟨hans, hinv⟩ := h.answer_leaves rfl hrole hpre he
    exact ⟨hans, c, hquiet (by simp [hrole]) (by simp [hrole]), hinv⟩

end TierInv

end

end Tiering

end CloudTiering
