import CloudTiering.App.Ops
import CloudTiering.System.Answers

/-!
# The content of a file across uploads and downloads

What it means that a file has not been lost, and what keeps it.

* `ContentKept`: the original content of a file is recoverable.
* `ContentInv`: the invariant between two invocations; a stub is never longer than the content.
* `Op`, `Op.code`: an invocation of `upload_file` or `download_file`.
-/

namespace CloudTiering

open Foundations App

namespace Recovery

/-- The original content `orig` of file `i` is recoverable: the stub attribute is absent and the
local bytes are the original content, or both attributes are there and the object named by
`object_id` is the original content. -/
def ContentKept (orig : Bytes) (i : ℕ) (w : World) : Prop :=
  ((w.inode i).stub = none ∧ (w.inode i).data = orig) ∨
    ((w.inode i).stub.isSome ∧ ∃ v, (w.inode i).objectId = some v ∧
      w.store (cString v) = some orig)

instance (orig : Bytes) (i : ℕ) (w : World) : Decidable (ContentKept orig i w) :=
  match h : (w.inode i).objectId with
  | some v => decidable_of_iff
      (((w.inode i).stub = none ∧ (w.inode i).data = orig) ∨
        ((w.inode i).stub.isSome ∧ w.store (cString v) = some orig))
      (by simp [ContentKept, h])
  | none => decidable_of_iff ((w.inode i).stub = none ∧ (w.inode i).data = orig)
      (by simp [ContentKept, h])

/-! ## Invocations -/

/-- One invocation. -/
inductive Op
  | upload (path buf : Bytes)
  | download (path : Bytes)

/-- The path of an invocation. -/
def Op.path : Op → Bytes
  | .upload path _ => path
  | .download path => path

/-- The program of an invocation, for a store protocol. -/
def Op.code (ops : Ops) : Op → Sys Int
  | .upload path buf => do return (← uploadFile ops path buf).1
  | .download path => downloadFile ops path

/-! ## What holds between two invocations -/

section

variable (orig : Bytes) (i : ℕ) (w : World)

/-- The file is local and its bytes are the content. -/
def LocalCopy : Prop := (w.inode i).stub = none ∧ (w.inode i).data = orig

/-- The attribute `object_id` names an object that is the content. -/
def RemoteCopy : Prop :=
  ∃ v, (w.inode i).objectId = some v ∧ w.store (cString v) = some orig

/-- The file is marked as remote, and the content is in the store. -/
def Evicted : Prop := (w.inode i).stub.isSome ∧ RemoteCopy orig i w

/-- What is known of the file between two invocations. -/
def ContentInv : Prop :=
  LocalCopy orig i w ∨ ((w.inode i).data.length ≤ orig.length ∧ Evicted orig i w)

end

variable {orig : Bytes} {i : ℕ} {w w' : World}

theorem LocalCopy.setObjectId (h : LocalCopy orig i w) (v : Option Bytes) :
    LocalCopy orig i (w.update i ((w.inode i).setXattr v .objectId)) := by
  rw [LocalCopy, World.inode_update_self]
  exact h

theorem RemoteCopy.setStub (h : RemoteCopy orig i w) (v : Option Bytes) :
    RemoteCopy orig i (w.update i ((w.inode i).setXattr v .stub)) := by
  rw [RemoteCopy, World.inode_update_self]
  exact h

theorem Evicted.setData (h : Evicted orig i w) (d : Bytes) :
    Evicted orig i (w.update i { w.inode i with data := d }) := by
  rw [Evicted, RemoteCopy, World.inode_update_self]
  exact h

theorem ContentInv.contentKept (h : ContentInv orig i w) : ContentKept orig i w := by
  rcases h with h | ⟨-, hs, hv⟩
  · exact .inl h
  · exact .inr ⟨hs, hv⟩

/-- Only the bytes, the two attributes and the store matter. -/
theorem ContentInv.sameContent (h : ContentInv orig i w) (hw : SameContent w w') :
    ContentInv orig i w' := by
  rw [ContentInv, LocalCopy, Evicted, RemoteCopy, hw.data, hw.stub, hw.objectId, hw.store]
  exact h

theorem ContentInv.local_of_stub_none (h : ContentInv orig i w) (hs : (w.inode i).stub = none) :
    LocalCopy orig i w := by
  rcases h with h | ⟨-, hr, -⟩
  · exact h
  · rw [hs] at hr
    exact absurd hr (by simp)

theorem ContentInv.evicted_of_stub_some {u : Bytes} (h : ContentInv orig i w)
    (hs : (w.inode i).stub = some u) :
    (w.inode i).data.length ≤ orig.length ∧ Evicted orig i w := by
  rcases h with ⟨hn, -⟩ | h
  · rw [hs] at hn
    exact absurd hn (by simp)
  · exact h

/-- The object id of an evicted file, where it can be read, names the content. -/
theorem Evicted.fgetxattr_objectId {ch : Choice} {fd : Fd} {size : ℕ} {r : Except Errno Bytes}
    (h : Evicted orig fd.ino w) (hsize : size ≠ 0)
    (he : exec w ch (.fgetxattr fd .objectId size) = some (r, w')) :
    w' = w ∧ ∀ v, r = .ok v → w.store (cString v) = some orig := by
  obtain ⟨rfl, ⟨u, v, hu, rfl, hv⟩ | ⟨rfl, -⟩ | ⟨e, rfl, -, -⟩⟩ := exec_fgetxattr he
  · obtain rfl := hv hsize
    obtain ⟨-, v', hv', hst⟩ := h
    obtain rfl : v' = v := Option.some.inj (hv'.symm.trans hu)
    refine ⟨rfl, fun v hr => ?_⟩
    obtain rfl := Except.ok.inj hr
    exact hst
  · exact ⟨rfl, fun v hr => absurd hr (by simp)⟩
  · exact ⟨rfl, fun v hr => absurd hr (by simp)⟩

/-- The world with a file of one byte under the name `a`. -/
def oneByteFile : World where
  inode _ := { data := [7] }
  names path := if path = ascii "a" then some 0 else none
  store _ := none

end Recovery

end CloudTiering
