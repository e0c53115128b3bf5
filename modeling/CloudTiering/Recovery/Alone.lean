import CloudTiering.App.ObjectId
import CloudTiering.App.S3Outline
import CloudTiering.Recovery.Content

/-!
# An invocation that has the system to itself

What `upload_file` and `download_file` do when no call fails and nothing else runs: the exact state
they leave.  The sizes of the buffers and chunks are whatever the other side chooses.

* `Sizes`, `answerAlone`: the run of an invocation alone.
* `carriedOutCalls`: the reading of the calls under which nothing fails, with an invariant to be
  kept; `runWith_of_wp` says that an invocation that is checked returns.
* `At`: one file and the store are as given, everything else is as at the beginning; with a triple
  for each call.
* `aloneUploadLocal`, `aloneUploadRemote`, `aloneDownloadRemote`, `aloneDownloadLocal`: the four
  specifications, each with its outline.
-/

namespace CloudTiering

open Foundations App

namespace Recovery

/-! ## Running alone -/

/-- The sizes of the buffers and chunks of the store's requests, one after the other. -/
structure Sizes where
  size : ℕ → ℕ
  pos : ∀ k, 0 < size k
  lt : ∀ k, size k < 2 ^ 31

/-- The sizes after the first one. -/
def Sizes.tail (z : Sizes) : Sizes := ⟨fun k => z.size (k + 1), fun _ => z.pos _, fun _ => z.lt _⟩

/-- The calls whose answer is a size that the other side chooses. -/
def takesSize : Call → Bool
  | .putBuffer => true
  | .getChunk => true
  | _ => false

/-- The calls that an invocation makes. -/
def isDaemonCall : Call → Bool
  | .openFile _ => true
  | .closeFile _ => true
  | .fsetxattr .. => true
  | .fgetxattr .. => true
  | .fremovexattr .. => true
  | .fstat _ => true
  | .ftruncate .. => true
  | .dup _ => true
  | .fdopen _ => true
  | .fclose _ => true
  | .fread .. => true
  | .fwrite .. => true
  | .putBuffer => true
  | .putEnd .. => true
  | .getBegin _ => true
  | .getChunk => true
  | .getEnd => true
  | _ => false

/-- Every call is carried out. -/
def answerAlone (s : World × Sizes) (c : Call) : Option (Rep c × (World × Sizes)) :=
  (exec s.1 (if takesSize c then .size (s.2.size 0) else .ok) c).map fun a =>
    (a.1, (a.2, s.2.tail))

/-- The reading of the calls under which nothing fails.  A call may be made only where `I` holds: so
an invocation that is checked keeps `I` from its first call to its last. -/
def carriedOutCalls (I : World → Prop) : Calls Call Rep World where
  pre w c := isDaemonCall c = true ∧ I w
  post w c r w' := ∃ ch, CarriedOut ch = true ∧ exec w ch c = some (r, w')

theorem answerAlone_of_isDaemonCall {s : World × Sizes} {c : Call} (hc : isDaemonCall c = true) :
    ∃ r t, answerAlone s c = some (r, t) ∧
      ∃ ch, CarriedOut ch = true ∧ exec s.1 ch c = some (r, t.1) := by
  have hch : CarriedOut (if takesSize c then .size (s.2.size 0) else .ok) = true := by
    split <;> rfl
  have hsome : ∃ a, exec s.1 (if takesSize c then .size (s.2.size 0) else .ok) c = some a := by
    cases c with
    | putBuffer => exact ⟨_, if_pos ⟨s.2.pos 0, s.2.lt 0⟩⟩
    | getChunk => exact ⟨_, if_pos ⟨s.2.pos 0, s.2.lt 0⟩⟩
    | getBegin key =>
      simp only [exec, takesSize]
      cases s.1.store key <;> exact ⟨_, rfl⟩
    | openFile _ | closeFile _ | fsetxattr _ _ _ _ | fgetxattr _ _ _ | fremovexattr _ _ | fstat _
      | ftruncate _ _ | dup _ | fdopen _ | fclose _ | fread _ _ _ | fwrite _ _ _ | putEnd _ _
      | getEnd => exact ⟨_, rfl⟩
    | _ => exact absurd hc (by simp [isDaemonCall])
  obtain ⟨⟨r, w⟩, ha⟩ := hsome
  exact ⟨r, (w, s.2.tail), by rw [answerAlone, ha]; rfl, _, hch, ha⟩

/-- An invocation that is checked returns, and its postcondition holds. -/
theorem runWith_of_wp {α : Type} {p : Sys α} {I : World → Prop} {Q : α → World → Prop}
    {s : World × Sizes} (h : p.wp (carriedOutCalls I) Q s.1) :
    ∃ a t, p.runWith answerAlone s = some (a, t) ∧ Q a t.1 :=
  Prog.wp_runWith (K := carriedOutCalls I) Prod.fst
    (fun _ _ hc => answerAlone_of_isDaemonCall hc.1) h

/-- The triple of a call, given what it does when it is carried out. -/
theorem triple_carriedOut {I P : World → Prop} {c : Call} {Q : Rep c → World → Prop}
    (hc : isDaemonCall c = true) (hI : ∀ w, P w → I w)
    (h : ∀ w, P w → ∀ ch r w', CarriedOut ch = true → exec w ch c = some (r, w') → Q r w') :
    Prog.Triple (carriedOutCalls I) P c Q :=
  fun w hw => ⟨⟨hc, hI w hw⟩, fun r w' ⟨ch, hch, he⟩ => h w hw ch r w' hch he⟩

/-! ## One file and the store -/

/-- File `i` is `n` and the store is `st`; the other files and the names are as in `w₀`. -/
structure At (w₀ : World) (i : ℕ) (n : Inode) (st : Bytes → Option Bytes) (w : World) : Prop where
  inode : w.inode = Function.update w₀.inode i n
  names : w.names = w₀.names
  store : w.store = st

section

variable {w₀ w : World} {i : ℕ} {n : Inode} {st : Bytes → Option Bytes} {fd : Fd}

theorem At.inode_self (h : At w₀ i n st w) : w.inode i = n := by
  rw [h.inode, Function.update_self]

theorem At.inode_of_ne (h : At w₀ i n st w) {j : ℕ} (hj : j ≠ i) : w.inode j = w₀.inode j := by
  rw [h.inode, Function.update_of_ne hj]

theorem At.refl (w : World) (i : ℕ) : At w i (w.inode i) w.store w :=
  ⟨(Function.update_eq_self i w.inode).symm, rfl, rfl⟩

theorem At.update (h : At w₀ i n st w) (n' : Inode) : At w₀ i n' st (w.update i n') := by
  refine ⟨?_, h.names, h.store⟩
  rw [World.update, h.inode, Function.update_idem]

theorem At.put (h : At w₀ i n st w) (key obj : Bytes) :
    At w₀ i n (Function.update st key (some obj)) (w.put key obj) :=
  ⟨h.inode, h.names, by rw [World.put, h.store]⟩

variable {I : World → Prop}

/-- The invariant that says nothing. -/
theorem anywhere {P : World → Prop} : ∀ w, P w → True := fun _ _ => trivial

section

variable (hI : ∀ w, At w₀ i n st w → I w)

include hI

theorem at_openFile {path : Bytes} {bad : World → Prop} (hn : w₀.names path = some i) :
    Prog.Triple (carriedOutCalls I) (At w₀ i n st) (.openFile path)
      (outcome (fun fd w => fd.ino = i ∧ At w₀ i n st w) bad) := by
  refine triple_carriedOut rfl hI fun w hw ch r w' hch he => ?_
  obtain ⟨-, hx⟩ := attempt_carriedOut he hch
  rw [World.openFile, hw.names, hn] at hx
  obtain ⟨rfl, rfl⟩ := Prod.mk.inj hx
  exact ⟨rfl, hw.inode, rfl, hw.store⟩

theorem at_fsetxattr {x : Xattr} {v : Bytes} {good bad : World → Prop} (hfd : fd.ino = i)
    (hx : n.xattr x = none) (h : ∀ w, At w₀ i (n.setXattr (some v) x) st w → good w) :
    Prog.Triple (carriedOutCalls I) (At w₀ i n st) (.fsetxattr fd x v .create)
      (outcome (fun _ => good) bad) := by
  refine triple_carriedOut rfl hI fun w hw ch r w' hch he => ?_
  subst hfd
  rcases exec_fsetxattr_create he with ⟨rfl, -, rfl⟩ | ⟨e, rfl, rfl, hsome⟩
  · rw [hw.inode_self]
    exact h _ (hw.update _)
  · have := hsome (attempt_carriedOut he hch).1
    rw [hw.inode_self, hx] at this
    exact absurd this (by simp)

theorem at_fremovexattr {x : Xattr} {u : Bytes} {good bad : World → Prop} (hfd : fd.ino = i)
    (hx : n.xattr x = some u) (h : ∀ w, At w₀ i (n.setXattr none x) st w → good w) :
    Prog.Triple (carriedOutCalls I) (At w₀ i n st) (.fremovexattr fd x)
      (outcome (fun _ => good) bad) := by
  refine triple_carriedOut rfl hI fun w hw ch r w' hch he => ?_
  subst hfd
  rcases exec_fremovexattr he with ⟨rfl, -, rfl⟩ | ⟨e, rfl, rfl, hnone⟩
  · rw [hw.inode_self]
    exact h _ (hw.update _)
  · have := (hnone (attempt_carriedOut he hch).1).2
    rw [hw.inode_self, hx] at this
    exact absurd this (by simp)

/-- The last unlocking, whose result is not looked at. -/
theorem at_unlock {u : Bytes} {good : World → Prop} (hfd : fd.ino = i) (hx : n.locked = some u)
    (h : ∀ w, At w₀ i { n with locked := none } st w → good w) :
    Prog.Triple (carriedOutCalls I) (At w₀ i n st) (.fremovexattr fd .locked) fun _ => good := by
  have hcall : Prog.Triple (carriedOutCalls I) (At w₀ i n st) (.fremovexattr fd .locked)
      (outcome (fun _ => good) fun _ => False) := at_fremovexattr hI hfd hx h
  refine hcall.mono fun r _ ht => ?_
  cases r with
  | ok u => exact ht
  | error e => exact ht.elim

theorem at_fgetxattr {x : Xattr} {size : ℕ} {v : Bytes} {good : Bytes → World → Prop}
    {bad : World → Prop} (hfd : fd.ino = i) (hx : n.xattr x = some v) (hsize : v.length ≤ size)
    (hpos : size ≠ 0) (h : ∀ w, At w₀ i n st w → good v w) :
    Prog.Triple (carriedOutCalls I) (At w₀ i n st) (.fgetxattr fd x size) (outcome good bad) := by
  refine triple_carriedOut rfl hI fun w hw ch r w' hch he => ?_
  subst hfd
  have hok := (attempt_carriedOut he hch).1
  obtain ⟨rfl, ⟨u, v', hu, rfl, hv⟩ | ⟨rfl, hnone⟩ | ⟨e, rfl, -, hlt⟩⟩ := exec_fgetxattr he
  · rw [hw.inode_self, hx] at hu
    rw [hv hpos, ← Option.some.inj hu]
    exact h w' hw
  · have := hnone hok
    rw [hw.inode_self, hx] at this
    exact absurd this (by simp)
  · obtain ⟨-, u, hu, hlen⟩ := hlt hok
    rw [hw.inode_self, hx] at hu
    obtain rfl := Option.some.inj hu
    omega

theorem at_check_remote {u : Bytes} {pr mi un : World → Prop} (hfd : fd.ino = i)
    (hx : n.stub = some u) (h : ∀ w, At w₀ i n st w → pr w) :
    Prog.Triple (carriedOutCalls I) (At w₀ i n st) (.fgetxattr fd .stub 0) (location pr mi un) := by
  refine triple_carriedOut rfl hI fun w hw ch r w' hch he => ?_
  subst hfd
  have hok := (attempt_carriedOut he hch).1
  obtain ⟨rfl, ⟨u', v', hu, rfl, hv⟩ | ⟨rfl, hnone⟩ | ⟨e, rfl, -, hlt⟩⟩ := exec_fgetxattr he
  · exact h w' hw
  · have := hnone hok
    rw [hw.inode_self] at this
    exact absurd (hx.symm.trans this) (by simp)
  · exact absurd rfl (hlt hok).1

theorem at_check_local {pr mi un : World → Prop} (hfd : fd.ino = i) (hx : n.stub = none)
    (h : ∀ w, At w₀ i n st w → mi w) :
    Prog.Triple (carriedOutCalls I) (At w₀ i n st) (.fgetxattr fd .stub 0) (location pr mi un) := by
  refine triple_carriedOut rfl hI fun w hw ch r w' hch he => ?_
  subst hfd
  have hok := (attempt_carriedOut he hch).1
  obtain ⟨rfl, ⟨u', v', hu, rfl, hv⟩ | ⟨rfl, hnone⟩ | ⟨e, rfl, -, hlt⟩⟩ := exec_fgetxattr he
  · rw [hw.inode_self] at hu
    exact absurd (hx.symm.trans hu) (by simp)
  · exact h w' hw
  · exact absurd rfl (hlt hok).1

theorem at_fstat {good : ℕ → World → Prop} {bad : World → Prop} (hfd : fd.ino = i)
    (h : ∀ w, At w₀ i n st w → good n.data.length w) :
    Prog.Triple (carriedOutCalls I) (At w₀ i n st) (.fstat fd) (outcome good bad) := by
  refine triple_carriedOut rfl hI fun w hw ch r w' hch he => ?_
  subst hfd
  obtain ⟨rfl, rfl | ⟨e, -, rfl⟩⟩ := exec_fstat he
  · rw [hw.inode_self]
    exact h w' hw
  · exact (not_carriedOut_fail hch).elim

theorem at_ftruncate {len : ℕ} {good bad : World → Prop} (hfd : fd.ino = i)
    (h : ∀ w, At w₀ i { n with data := resize n.data len } st w → good w) :
    Prog.Triple (carriedOutCalls I) (At w₀ i n st) (.ftruncate fd len)
      (outcome (fun _ => good) bad) := by
  refine triple_carriedOut rfl hI fun w hw ch r w' hch he => ?_
  subst hfd
  rcases exec_ftruncate he with ⟨rfl, rfl⟩ | ⟨e, -, rfl, -⟩
  · rw [World.ftruncate, hw.inode_self]
    exact h _ (hw.update _)
  · exact (not_carriedOut_fail hch).elim

theorem at_closeFile : Prog.Triple (carriedOutCalls I) (At w₀ i n st) (.closeFile fd)
    fun _ => At w₀ i n st := by
  refine triple_carriedOut rfl hI fun w hw ch r w' hch he => ?_
  obtain ⟨-, hx⟩ := attempt_carriedOut he hch
  obtain ⟨rfl, rfl⟩ := Prod.mk.inj hx
  exact ⟨hw.inode, hw.names, hw.store⟩

theorem at_dup {bad : World → Prop} (hfd : fd.ino = i) :
    Prog.Triple (carriedOutCalls I) (At w₀ i n st) (.dup fd)
      (outcome (fun d w => d.ino = i ∧ At w₀ i n st w) bad) := by
  refine triple_carriedOut rfl hI fun w hw ch r w' hch he => ?_
  rcases exec_dup he with ⟨rfl, rfl⟩ | ⟨e, -, rfl, -⟩
  · exact ⟨hfd, hw.inode, hw.names, hw.store⟩
  · exact (not_carriedOut_fail hch).elim

theorem at_fdopen {good bad : World → Prop} (h : ∀ w, At w₀ i n st w → good w) :
    Prog.Triple (carriedOutCalls I) (At w₀ i n st) (.fdopen fd) (outcome (fun _ => good) bad) := by
  refine triple_carriedOut rfl hI fun w hw ch r w' hch he => ?_
  obtain ⟨rfl, rfl | ⟨e, -, rfl⟩⟩ := exec_fdopen he
  · exact h w' hw
  · exact (not_carriedOut_fail hch).elim

theorem at_fclose {good bad : World → Prop} (h : ∀ w, At w₀ i n st w → good w) :
    Prog.Triple (carriedOutCalls I) (At w₀ i n st) (.fclose fd) (outcome (fun _ => good) bad) := by
  refine triple_carriedOut rfl hI fun w hw ch r w' hch he => ?_
  obtain ⟨rfl, rfl | ⟨e, -, rfl⟩⟩ := exec_fclose he
  · exact h _ ⟨hw.inode, hw.names, hw.store⟩
  · exact (not_carriedOut_fail hch).elim

end

/-! ## The transfers -/

/-- `s3_upload` stores the bytes of the file. -/
def aloneS3Upload (w₀ : World) (i : ℕ) (n : Inode) (st : Bytes → Option Bytes) (fd : Fd)
    (key : Bytes) (hfd : fd.ino = i) (hI : ∀ st' w, At w₀ i n st' w → I w) :
    S3UploadOutline (carriedOutCalls I) fd key fun r w =>
      r = 0 ∧ At w₀ i n (Function.update st key (some n.data)) w where
  start := At w₀ i n st
  duplicated d w := d.ino = i ∧ At w₀ i n st w
  sized d k w := d.ino = i ∧ k = n.data.length ∧ At w₀ i n st w
  reading d k got w := d.ino = i ∧ k = n.data.length ∧ got <+: n.data ∧ At w₀ i n st w
  finished _ r w := r = 0 ∧ At w₀ i n (Function.update st key (some n.data)) w
  dup := at_dup (hI st) hfd
  fstat d := .lift fun hd => at_fstat (hI st) hd fun _ hw => ⟨hd, rfl, hw⟩
  fdopen d k := .lift fun hd => .lift fun hk =>
    at_fdopen (hI st) fun _ hw => ⟨hd, hk, List.nil_prefix, hw⟩
  putBuffer d k got _ := triple_carriedOut rfl (fun w h => hI st w h.2.2.2)
    fun w hw ch r w' hch he => by
      obtain ⟨rfl, ⟨size, -, rfl, hpos, hlt⟩ | ⟨status, rfl, -⟩⟩ := exec_putBuffer he
      · exact ⟨size_mod_pos hpos hlt, hw⟩
      · exact Bool.noConfusion hch
  fread d k got size hlt hsize := triple_carriedOut rfl (fun w h => hI st w h.2.2.2)
    fun w ⟨hd, hk, hgot, hw⟩ ch r w' hch he => by
      subst hd
      obtain ⟨rfl, ⟨-, rfl⟩ | ⟨e, m, rfl, -⟩⟩ := exec_fread he
      · rw [hw.inode_self]
        exact ⟨readAt_ne_nil (hk ▸ hlt) (toRead_pos hsize (Nat.sub_pos_of_lt hlt)), rfl, hk,
          prefix_append_readAt hgot _, hw⟩
      · exact Bool.noConfusion hch
  putEnd d k got hle := triple_carriedOut rfl (fun w h => hI st w h.2.2.2)
    fun w ⟨hd, hk, hgot, hw⟩ ch r w' hch he => by
      rcases exec_putEnd he with ⟨-, rfl, rfl⟩ | ⟨rfl, -⟩
      · have hall : got = n.data := hgot.eq_of_length_le (hk ▸ hle)
        rw [hall]
        exact ⟨rfl, rfl, hw.put key n.data⟩
      · exact Bool.noConfusion hch
  fclose d r := .lift fun hr => at_fclose (hI _) fun _ hw => ⟨hr, hw⟩

/-- `s3_download` writes the object over the bytes of the file. -/
def aloneS3Download (w₀ : World) (i : ℕ) (n : Inode) (st : Bytes → Option Bytes) (fd : Fd)
    (key obj : Bytes) (hfd : fd.ino = i) (hobj : st key = some obj)
    (hI : ∀ written, written <+: obj →
      ∀ w, At w₀ i { n with data := writeAt n.data 0 written } st w → I w) :
    S3DownloadOutline (carriedOutCalls I) fd key fun r w =>
      r = 0 ∧ At w₀ i { n with data := writeAt n.data 0 obj } st w where
  start := At w₀ i n st
  duplicated d w := d.ino = i ∧ At w₀ i n st w
  ready d w := d.ino = i ∧ At w₀ i n st w
  loading d written rest w := d.ino = i ∧ written ++ rest = obj ∧
    At w₀ i { n with data := writeAt n.data 0 written } st w
  finished _ r w := r = 0 ∧ At w₀ i { n with data := writeAt n.data 0 obj } st w
  dup := at_dup (hI [] List.nil_prefix) hfd
  fdopen d := .lift fun hd => at_fdopen (hI [] List.nil_prefix) fun _ hw => ⟨hd, hw⟩
  getBegin d := triple_carriedOut rfl (fun w h => hI [] List.nil_prefix w h.2)
    fun w ⟨hd, hw⟩ ch r w' hch he => by
      have hst : w.store key = some obj := by rw [hw.store, hobj]
      obtain ⟨rfl, ⟨obj', -, hobj', rfl⟩ | ⟨hnone, -⟩ | ⟨status, rfl, -⟩⟩ := exec_getBegin he
      · obtain rfl : obj = obj' := Option.some.inj (hst.symm.trans hobj')
        exact ⟨hd, rfl, hw⟩
      · exact absurd (hst.symm.trans hnone) (by simp)
      · exact Bool.noConfusion hch
  getChunk d written rest _ := triple_carriedOut rfl (fun w h => hI written ⟨rest, h.2.1⟩ w h.2.2)
    fun w hw ch r w' hch he => by
      obtain ⟨rfl, ⟨k, -, rfl, hpos, -⟩ | ⟨status, rfl, -⟩⟩ := exec_getChunk he
      · exact ⟨hpos, hw⟩
      · exact Bool.noConfusion hch
  fwrite d written rest k _ _ := triple_carriedOut rfl (fun w h => hI written ⟨rest, h.2.1⟩ w h.2.2)
    fun w ⟨hd, hobj, hw⟩ ch r w' hch he => by
      subst hd
      rcases exec_fwrite he with ⟨-, rfl, rfl⟩ | ⟨e, m, rfl, -⟩
      · rw [if_neg (Nat.lt_irrefl _)]
        refine ⟨rfl, rfl, by rw [List.append_assoc, List.take_append_drop, hobj], ?_⟩
        rw [← writeAt_append, World.write, hw.inode_self]
        exact hw.update _
      · exact Bool.noConfusion hch
  getEnd d written := triple_carriedOut rfl (fun w h => hI written ⟨[], h.2.1⟩ w h.2.2)
    fun w ⟨hd, hobj, hw⟩ ch r w' hch he => by
      rw [List.append_nil] at hobj
      subst hobj
      obtain ⟨rfl, ⟨-, rfl⟩ | ⟨rfl, -⟩⟩ := exec_getEnd he
      · exact ⟨rfl, rfl, hw⟩
      · exact Bool.noConfusion hch
  fclose d r := .lift fun hr => at_fclose (hI obj List.prefix_rfl) fun _ hw => ⟨hr, hw⟩

end

/-! ## The four specifications -/

/-- A file that has been evicted: a hole of the old length, and the id of the object. -/
def evictedInode (len : ℕ) (v : Bytes) : Inode :=
  { data := List.replicate len 0, stub := some [], objectId := some v }

/-- The attribute that an upload sets. -/
def objectIdOf (path buf : Bytes) : Bytes :=
  (s3GetObjectIdXattrValue path buf).take s3GetObjectIdXattrSize

/-- The key under which an upload stores. -/
def keyOf (path buf : Bytes) : Bytes := cString (s3GetObjectIdXattrValue path buf)

theorem cString_objectIdOf (path buf : Bytes) : cString (objectIdOf path buf) = keyOf path buf :=
  cString_take_s3GetObjectIdXattrValue path buf

section

variable (w₀ : World) (i : ℕ) (retries : Int) (path buf : Bytes)

/-- Uploading a local file. -/
def aloneUploadLocal (d : Bytes) (hn : w₀.names path = some i) :
    UploadOutline (carriedOutCalls fun _ => True) (s3Ops retries) path buf fun r b w =>
      r = 0 ∧ b = s3GetObjectIdXattrValue path buf ∧
        At w₀ i (evictedInode d.length (objectIdOf path buf))
          (Function.update w₀.store (keyOf path buf) (some d)) w where
  start := At w₀ i { data := d } w₀.store
  opened fd w := fd.ino = i ∧ At w₀ i { data := d } w₀.store w
  locked fd w := fd.ino = i ∧ At w₀ i { data := d, locked := some [] } w₀.store w
  isLocal fd w := fd.ino = i ∧ At w₀ i { data := d, locked := some [] } w₀.store w
  stored fd w := fd.ino = i ∧ At w₀ i { data := d, locked := some [] }
    (Function.update w₀.store (keyOf path buf) (some d)) w
  named fd w := fd.ino = i ∧ At w₀ i
    { data := d, locked := some [], objectId := some (objectIdOf path buf) }
    (Function.update w₀.store (keyOf path buf) (some d)) w
  stubbed fd w := fd.ino = i ∧ At w₀ i
    { data := d, stub := some [], locked := some [], objectId := some (objectIdOf path buf) }
    (Function.update w₀.store (keyOf path buf) (some d)) w
  sized fd k w := fd.ino = i ∧ k = d.length ∧ At w₀ i
    { data := d, stub := some [], locked := some [], objectId := some (objectIdOf path buf) }
    (Function.update w₀.store (keyOf path buf) (some d)) w
  emptied fd k w := fd.ino = i ∧ k = d.length ∧ At w₀ i
    { data := [], stub := some [], locked := some [], objectId := some (objectIdOf path buf) }
    (Function.update w₀.store (keyOf path buf) (some d)) w
  undo _ _ := False
  undoStub _ _ := False
  undoId _ _ := False
  leaving fd b r w := fd.ino = i ∧ r = 0 ∧ b = s3GetObjectIdXattrValue path buf ∧ At w₀ i
    { evictedInode d.length (objectIdOf path buf) with locked := some [] }
    (Function.update w₀.store (keyOf path buf) (some d)) w
  closing _ b r w := r = 0 ∧ b = s3GetObjectIdXattrValue path buf ∧ At w₀ i
    (evictedInode d.length (objectIdOf path buf))
    (Function.update w₀.store (keyOf path buf) (some d)) w
  openFile := at_openFile anywhere hn
  lock fd := .lift fun hfd => at_fsetxattr anywhere hfd rfl fun _ hw => ⟨hfd, hw⟩
  check fd := .lift fun hfd => at_check_local anywhere hfd rfl fun _ hw => ⟨hfd, hw⟩
  upload fd w := fun ⟨hfd, hw⟩ =>
    Prog.wp_mono ((aloneS3Upload w₀ i _ _ fd (keyOf path buf) hfd fun _ => anywhere).sound hw)
      fun r t ⟨hr, ht⟩ => by
      subst hr
      exact ⟨hfd, ht⟩
  setId fd := .lift fun hfd => at_fsetxattr anywhere hfd rfl fun _ hw => ⟨hfd, hw⟩
  setStub fd := .lift fun hfd => at_fsetxattr anywhere hfd rfl fun _ hw => ⟨hfd, hw⟩
  fstat fd := .lift fun hfd => at_fstat anywhere hfd fun _ hw => ⟨hfd, rfl, hw⟩
  empty fd k := .lift fun hfd => .lift fun hk =>
    at_ftruncate anywhere hfd fun _ hw => ⟨hfd, hk, by rwa [resize_zero] at hw⟩
  extend fd k := .lift fun hfd => .lift fun hk =>
    at_ftruncate anywhere hfd fun _ hw => ⟨hfd, rfl, rfl, by rwa [hk, resize_nil] at hw⟩
  removeIdUndo _ := fun _ h => h.elim
  removeStub _ := fun _ h => h.elim
  removeId _ := fun _ h => h.elim
  unlock fd b r := .lift fun hfd => .lift fun hr => .lift fun hb =>
    at_unlock anywhere hfd rfl fun _ hw => ⟨hr, hb, hw⟩
  close fd b r := .lift fun hr => .lift fun hb => (at_closeFile anywhere).mono fun _ _ hw =>
    ⟨hr, hb, hw⟩

/-- Uploading a file that is remote already does nothing. -/
def aloneUploadRemote (n : Inode) (hn : w₀.names path = some i) {u : Bytes}
    (hstub : n.stub = some u) (hlocked : n.locked = none) :
    UploadOutline (carriedOutCalls fun _ => True) (s3Ops retries) path buf fun r b w =>
      r = 0 ∧ b = buf ∧ At w₀ i n w₀.store w where
  start := At w₀ i n w₀.store
  opened fd w := fd.ino = i ∧ At w₀ i n w₀.store w
  locked fd w := fd.ino = i ∧ At w₀ i { n with locked := some [] } w₀.store w
  isLocal _ _ := False
  stored _ _ := False
  named _ _ := False
  stubbed _ _ := False
  sized _ _ _ := False
  emptied _ _ _ := False
  undo _ _ := False
  undoStub _ _ := False
  undoId _ _ := False
  leaving fd b r w := fd.ino = i ∧ r = 0 ∧ b = buf ∧
    At w₀ i { n with locked := some [] } w₀.store w
  closing _ b r w := r = 0 ∧ b = buf ∧ At w₀ i n w₀.store w
  openFile := at_openFile anywhere hn
  lock fd := .lift fun hfd => at_fsetxattr anywhere hfd hlocked fun _ hw => ⟨hfd, hw⟩
  check fd := .lift fun hfd => at_check_remote anywhere hfd hstub fun _ hw =>
    ⟨hfd, rfl, rfl, hw⟩
  upload _ _ h := h.elim
  setId _ := fun _ h => h.elim
  setStub _ := fun _ h => h.elim
  fstat _ := fun _ h => h.elim
  empty _ _ := fun _ h => h.elim
  extend _ _ := fun _ h => h.elim
  removeIdUndo _ := fun _ h => h.elim
  removeStub _ := fun _ h => h.elim
  removeId _ := fun _ h => h.elim
  unlock fd b r := .lift fun hfd => .lift fun hr => .lift fun hb =>
    at_unlock anywhere hfd rfl fun _ hw => ⟨hr, hb, by rwa [← hlocked] at hw⟩
  close fd b r := .lift fun hr => .lift fun hb => (at_closeFile anywhere).mono fun _ _ hw =>
    ⟨hr, hb, hw⟩

/-- Downloading a remote file. -/
def aloneDownloadRemote (d u v obj : Bytes) (hn : w₀.names path = some i)
    (hv : v.length ≤ s3GetObjectIdXattrSize) (hobj : w₀.store (cString v) = some obj)
    (hd : d.length ≤ obj.length) :
    DownloadOutline (carriedOutCalls fun _ => True) (s3Ops retries) path fun r w =>
      r = 0 ∧ At w₀ i { data := obj } w₀.store w where
  start := At w₀ i { data := d, stub := some u, objectId := some v } w₀.store
  opened fd w := fd.ino = i ∧ At w₀ i { data := d, stub := some u, objectId := some v } w₀.store w
  locked fd w := fd.ino = i ∧
    At w₀ i { data := d, stub := some u, locked := some [], objectId := some v } w₀.store w
  remote fd w := fd.ino = i ∧
    At w₀ i { data := d, stub := some u, locked := some [], objectId := some v } w₀.store w
  known fd id w := fd.ino = i ∧ id = v ∧
    At w₀ i { data := d, stub := some u, locked := some [], objectId := some v } w₀.store w
  loaded fd w := fd.ino = i ∧
    At w₀ i { data := obj, stub := some u, locked := some [], objectId := some v } w₀.store w
  unstubbed fd w := fd.ino = i ∧
    At w₀ i { data := obj, locked := some [], objectId := some v } w₀.store w
  leaving fd r w := fd.ino = i ∧ r = 0 ∧ At w₀ i { data := obj, locked := some [] } w₀.store w
  closing _ r w := r = 0 ∧ At w₀ i { data := obj } w₀.store w
  openFile := at_openFile anywhere hn
  lock fd := .lift fun hfd => at_fsetxattr anywhere hfd rfl fun _ hw => ⟨hfd, hw⟩
  check fd := .lift fun hfd => at_check_remote anywhere hfd rfl fun _ hw => ⟨hfd, hw⟩
  getId fd := .lift fun hfd =>
    at_fgetxattr anywhere hfd rfl hv s3GetObjectIdXattrSize_ne_zero fun _ hw => ⟨hfd, rfl, hw⟩
  download fd id w := fun ⟨hfd, hid, hw⟩ => by
    subst hid
    refine Prog.wp_mono ((aloneS3Download w₀ i _ w₀.store fd (cString id) obj hfd hobj
      fun _ _ => anywhere).sound hw) ?_
    rintro r t ⟨rfl, ht⟩
    rw [writeAt_zero_of_le hd] at ht
    exact ⟨hfd, ht⟩
  removeStub fd := .lift fun hfd => at_fremovexattr anywhere hfd rfl fun _ hw => ⟨hfd, hw⟩
  removeId fd := .lift fun hfd => at_fremovexattr anywhere hfd rfl fun _ hw => ⟨hfd, rfl, hw⟩
  unlock fd r := .lift fun hfd => .lift fun hr => at_unlock anywhere hfd rfl fun _ hw => ⟨hr, hw⟩
  close fd r := .lift fun hr => (at_closeFile anywhere).mono fun _ _ hw => ⟨hr, hw⟩

/-- Downloading a file that is local already does nothing. -/
def aloneDownloadLocal (n : Inode) (hn : w₀.names path = some i) (hstub : n.stub = none)
    (hlocked : n.locked = none) :
    DownloadOutline (carriedOutCalls fun _ => True) (s3Ops retries) path fun r w => r = 0 ∧
      At w₀ i n w₀.store w where
  start := At w₀ i n w₀.store
  opened fd w := fd.ino = i ∧ At w₀ i n w₀.store w
  locked fd w := fd.ino = i ∧ At w₀ i { n with locked := some [] } w₀.store w
  remote _ _ := False
  known _ _ _ := False
  loaded _ _ := False
  unstubbed _ _ := False
  leaving fd r w := fd.ino = i ∧ r = 0 ∧ At w₀ i { n with locked := some [] } w₀.store w
  closing _ r w := r = 0 ∧ At w₀ i n w₀.store w
  openFile := at_openFile anywhere hn
  lock fd := .lift fun hfd => at_fsetxattr anywhere hfd hlocked fun _ hw => ⟨hfd, hw⟩
  check fd := .lift fun hfd => at_check_local anywhere hfd hstub fun _ hw => ⟨hfd, rfl, hw⟩
  getId _ := fun _ h => h.elim
  download _ _ _ h := h.elim
  removeStub _ := fun _ h => h.elim
  removeId _ := fun _ h => h.elim
  unlock fd r := .lift fun hfd => .lift fun hr =>
    at_unlock anywhere hfd rfl fun _ hw => ⟨hr, by rwa [← hlocked] at hw⟩
  close fd r := .lift fun hr => (at_closeFile anywhere).mono fun _ _ hw => ⟨hr, hw⟩

end

end Recovery

end CloudTiering
