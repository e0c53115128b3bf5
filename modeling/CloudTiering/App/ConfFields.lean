import CloudTiering.App.Conf
import CloudTiering.Foundations.WriteLog
import Mathlib.Data.Int.ModEq

/-!
# `conf.c`: every option and its field

`conf_t` is one block of memory in which the arrays for strings lie side by side, and the callbacks
copy strings of any length.  What is in a field in the end is therefore what the last write that
reaches it has left there, whichever field that write was for.

* `Field.size`, `OptionValue`: the sizes of the fields, and the values of the options.
* `handle`: the option lines handled one after the other.
* `SetsOwnFields`: every field holds the value of the last line for it, or what it held before.
* `Undisturbed`: the last values fit their types, and no later line reaches into a field with
  another byte.
* `setsOwnFields_iff`: every option sets its own field and nothing else exactly in this case.
-/

namespace CloudTiering

open Foundations

namespace App

/-! ## The values -/

/-- `sizeof` of the fields. -/
def Field.size : Field → ℕ
  | .fsMountPoint => 4096
  | .remoteStoreProtocol => 64
  | .transferProtocol => 16
  | .s3DefaultHostname => 256
  | .s3Bucket => 64
  | .s3AccessKeyId => 33
  | .s3SecretAccessKey => 128
  | .s3OperationRetries => 4
  | _ => 8

/-- `cmd->data`: a string, a `long`, or the bits of a `double`. -/
inductive OptionValue
  | str (value : CStr)
  | value (value : ℤ)
  | dvalue (bits : ℕ)

/-- The value of a line, as its field is meant to hold it: `path_max` includes the `'\0'`. -/
def OptionLine.value : OptionLine → OptionValue
  | .fsMountPoint value | .loggingFramework value | .remoteStoreProtocol value | .hostname value
  | .bucket value | .accessKeyId value | .secretAccessKey value
  | .transferProtocol value => .str value
  | .pathMax value => .value (value + 1)
  | .scanfsIterTimeoutSec value | .primaryDownloadQueueMaxSize value
  | .secondaryDownloadQueueMaxSize value
  | .primaryUploadQueueMaxSize value | .secondaryUploadQueueMaxSize value
  | .operationRetries value => .value value
  | .moveOutStartRate bits | .moveOutStopRate bits => .dvalue bits

/-- The bytes of a field. -/
def Field.bytes (f : Field) (mem : ℕ → UInt8) : Bytes := peek addressMod mem f.offset f.size

/-- The field holds the value: `strcmp` finds the string, and the number is read back as a
`long`. -/
def Field.Holds (f : Field) (mem : ℕ → UInt8) : OptionValue → Prop
  | .str value => peek addressMod mem f.offset (value.1.length + 1) = value.withNul
  | .value n => Int.bmod (decodeLE (f.bytes mem)) (256 ^ f.size) = Int.bmod n (2 ^ 64)
  | .dvalue bits => decodeLE (f.bytes mem) = bits % 256 ^ f.size

instance (f : Field) (mem : ℕ → UInt8) (v : OptionValue) : Decidable (f.Holds mem v) :=
  match v with
  | .str _ => inferInstanceAs (Decidable (_ = _))
  | .value _ => inferInstanceAs (Decidable (_ = _))
  | .dvalue _ => inferInstanceAs (Decidable (_ = _))

/-- The option lines, handled one after the other. -/
def handle (lines : List OptionLine) (s : ConfState) : ConfState :=
  lines.foldl (fun s line => (callback line s).2) s

/-! ## The property and the condition -/

/-- A field that a line names holds the value of the last line naming it, and a field that no line
names is unchanged. -/
structure OwnFields (lines : List OptionLine) (mem mem' : ℕ → UInt8) : Prop where
  named : ∀ (f : Field) (earlier : List OptionLine) (line : OptionLine) (later : List OptionLine),
    lines = earlier ++ line :: later → line.field = some f → (∀ l ∈ later, l.field ≠ some f) →
      f.Holds mem' line.value
  unnamed : ∀ f : Field, (∀ l ∈ lines, l.field ≠ some f) → f.bytes mem' = f.bytes mem

/-- **Each option sets its own field and nothing else**, from the variables `s` to `s'`. -/
def SetsOwnFields (lines : List OptionLine) (s s' : ConfState) : Prop :=
  ∀ c, s.conf = some c → ∃ c', s'.conf = some c' ∧ OwnFields lines c.mem c'.mem

/-- The value can be held by a field of `width` bytes: a string ends within the address space, and a
`long` fits. -/
def OptionValue.Fits (width : ℕ) : OptionValue → Prop
  | .str v => v.1.length < addressMod
  | .value n => -(256 ^ width : ℤ) ≤ 2 * Int.bmod n (2 ^ 64) ∧ 2 * Int.bmod n (2 ^ 64) < 256 ^ width
  | .dvalue _ => True

/-- The bytes of the value in a field of `width` bytes. -/
def OptionValue.stored (width : ℕ) : OptionValue → Bytes
  | .str v => v.withNul
  | .value n => encodeLE width (n % 2 ^ 64).toNat
  | .dvalue bits => encodeLE width bits

/-- Where an accepted line writes, and what. -/
def OptionLine.write (line : OptionLine) : Option (ℕ × Bytes) :=
  line.field.map fun f => (f.offset, line.value.stored f.size)

/-- The last value for a field fits it, and where a later line (for a field that no line names, any
line) reaches into its bytes, the last one that does leaves the byte that is there. -/
structure Undisturbed (lines : List OptionLine) (mem : ℕ → UInt8) : Prop where
  named : ∀ (f : Field) (earlier : List OptionLine) (line : OptionLine) (later : List OptionLine),
    lines = earlier ++ line :: later → line.field = some f → (∀ l ∈ later, l.field ≠ some f) →
      line.value.Fits f.size ∧
        Spared addressMod (later.filterMap OptionLine.write) f.offset (line.value.stored f.size)
  unnamed : ∀ f : Field, (∀ l ∈ lines, l.field ≠ some f) →
    Spared addressMod (lines.filterMap OptionLine.write) f.offset (f.bytes mem)

/-! ## The lines as writes -/

/-- From `s` to `s'` the bytes of `conf_t` change by the write of the line. -/
def Writes (line : OptionLine) (s s' : ConfState) : Prop :=
  ∀ c, s.conf = some c → ∃ c', s'.conf = some c' ∧ c'.mem = pokes addressMod c.mem line.write.toList

section

variable {f : Field} {line : OptionLine} {s : ConfState} {c : Conf}

theorem writes_assign {bytes : Bytes} (hw : line.write = some (f.offset, bytes)) :
    Writes line s (s.assign f bytes) := by
  intro c hc
  have hnew : (s.assign f bytes).conf = some
      { mem := poke addressMod c.mem f.offset bytes,
          assigned := Function.update c.assigned f true } := by
    show s.conf.map _ = _
    rw [hc]
    rfl
  rw [hw]
  exact ⟨_, hnew, rfl⟩

theorem writes_none (hw : line.write = none) : Writes line s s := by
  intro c hc
  rw [hw]
  exact ⟨c, hc, rfl⟩

/-- **Every callback.** -/
theorem callback_writes (line : OptionLine) (s : ConfState) :
    Writes line s (callback line s).2 := by
  cases line with
  | loggingFramework value =>
    show Writes _ s (loggerCb value s).2
    unfold loggerCb
    cases loggerOf value with
    | none => exact writes_none rfl
    | some l => exact fun c hc => ⟨c, hc, rfl⟩
  | remoteStoreProtocol value =>
    show Writes _ s (remoteStoreProtocolCb value s).2
    unfold remoteStoreProtocolCb
    by_cases hname : value.1 = protocolS3
    · have hw : (OptionLine.remoteStoreProtocol value).write =
          some (Field.offset .remoteStoreProtocol, value.withNul) := by
        rw [OptionLine.write, OptionLine.field, if_pos hname]
        rfl
      rw [if_pos hname]
      exact writes_assign (s := { s with ops := .s3Ops }) hw
    · rw [if_neg hname]
      refine writes_none ?_
      rw [OptionLine.write, OptionLine.field, if_neg hname]
      rfl
  | _ => exact writes_assign rfl

/-- **All lines.** -/
theorem handle_writes (lines : List OptionLine) (hc : s.conf = some c) :
    ∃ c', (handle lines s).conf = some c' ∧
      c'.mem = pokes addressMod c.mem (lines.filterMap OptionLine.write) := by
  induction lines generalizing s c with
  | nil => exact ⟨c, hc, rfl⟩
  | cons line lines ih =>
    obtain ⟨c₁, hc₁, hmem₁⟩ := callback_writes line s c hc
    obtain ⟨c', hc', hmem'⟩ := ih hc₁
    refine ⟨c', hc', ?_⟩
    rw [hmem', hmem₁]
    cases hw : line.write with
    | none =>
      rw [List.filterMap_cons_none hw]
      rfl
    | some w =>
      rw [List.filterMap_cons_some hw]
      rfl

end

/-! ## The values as bytes -/

/-- A number of `width` bytes in two's complement is read back exactly if it fits. -/
theorem bmod_decodeLE_iff {width : ℕ} (hw : width ≤ 8) (n : ℤ) {bs : Bytes}
    (hlen : bs.length = width) :
    Int.bmod (decodeLE bs) (256 ^ width) = Int.bmod n (2 ^ 64) ↔
      OptionValue.Fits width (.value n) ∧ bs = OptionValue.stored width (.value n) := by
  have hpos : 0 < 256 ^ width := Nat.pow_pos (by decide)
  have hlt : decodeLE bs < 256 ^ width := hlen ▸ decodeLE_lt bs
  have hdvd : ((256 ^ width : ℕ) : ℤ) ∣ ((2 ^ 64 : ℕ) : ℤ) := by
    refine Int.natCast_dvd_natCast.mpr ?_
    rw [show (2 ^ 64 : ℕ) = 256 ^ 8 from by decide]
    exact Nat.pow_dvd_pow _ hw
  -- modulo the size of the field, the value is what is stored
  have hvalue : Int.bmod n (2 ^ 64) ≡ ((n % 2 ^ 64).toNat : ℤ) [ZMOD (256 ^ width : ℕ)] := by
    refine Int.ModEq.of_dvd hdvd ?_
    rw [Int.toNat_of_nonneg (Int.emod_nonneg _ (by decide))]
    exact (Int.bmod_emod).trans (Int.emod_emod_of_dvd n (dvd_refl _)).symm
  have hstored : bs = OptionValue.stored width (.value n) ↔
      ((256 ^ width : ℕ) : ℤ) ∣ Int.bmod n (2 ^ 64) - decodeLE bs := by
    have hbytes : bs = encodeLE width (n % 2 ^ 64).toNat ↔
        decodeLE bs = (n % 2 ^ 64).toNat % 256 ^ width := by
      rw [← decodeLE_encodeLE]
      exact ⟨congrArg decodeLE, decodeLE_inj (by rw [hlen, length_encodeLE])⟩
    rw [OptionValue.stored, hbytes, ← Int.modEq_iff_dvd]
    constructor
    · intro h
      rw [h]
      exact (Int.natCast_modEq_iff.mpr (Nat.mod_modEq _ _)).trans hvalue.symm
    · intro h
      have hnat := Int.natCast_modEq_iff.mp (h.trans hvalue)
      rw [← hnat, Nat.mod_eq_of_lt hlt]
  rw [Int.bmod_eq_iff hpos, hstored, OptionValue.Fits, ← and_assoc]
  refine and_congr_left' ?_
  push_cast
  omega

/-- A string longer than the address space is not read back. -/
theorem length_lt_of_peek {mem : ℕ → UInt8} {a : ℕ} {v : CStr}
    (h : peek addressMod mem a (v.1.length + 1) = v.withNul) : v.1.length < addressMod := by
  by_contra hlong
  have hle : addressMod ≤ v.1.length := Nat.le_of_not_lt hlong
  have hpos : 0 < addressMod := by decide
  -- the cell of the `'\0'` is also that of an earlier byte
  have hsame : (a + (v.1.length - addressMod)) % addressMod = (a + v.1.length) % addressMod := by
    rw [← Nat.add_mod_right, Nat.add_assoc, Nat.sub_add_cancel hle]
  have hlast : (peek addressMod mem a (v.1.length + 1))[v.1.length]? =
      some (mem ((a + v.1.length) % addressMod)) := getElem?_peek (Nat.lt_succ_self _)
  have hearly : (peek addressMod mem a (v.1.length + 1))[v.1.length - addressMod]? =
      some (mem ((a + (v.1.length - addressMod)) % addressMod)) := getElem?_peek (by omega)
  rw [h, CStr.withNul, List.getElem?_concat_length] at hlast
  rw [h, CStr.withNul, List.getElem?_append_left (by omega), hsame, ← hlast] at hearly
  exact v.2 (List.mem_of_getElem? hearly)

/-- The field holds a value exactly if the value fits and its bytes are there. -/
theorem holds_iff {f : Field} {mem : ℕ → UInt8} {v : OptionValue}
    (hv : ∀ n, v = .value n → f.size ≤ 8) :
    f.Holds mem v ↔
      v.Fits f.size ∧ peek addressMod mem f.offset (v.stored f.size).length = v.stored f.size := by
  cases v with
  | str v =>
    have hlen : (OptionValue.stored f.size (.str v)).length = v.1.length + 1 := List.length_append
    rw [hlen]
    exact ⟨fun h => ⟨length_lt_of_peek h, h⟩, And.right⟩
  | value n =>
    have hlen : (OptionValue.stored f.size (.value n)).length = f.size := length_encodeLE _ _
    rw [hlen]
    exact bmod_decodeLE_iff (hv n rfl) n length_peek
  | dvalue bits =>
    have hlen : (OptionValue.stored f.size (.dvalue bits)).length = f.size := length_encodeLE _ _
    rw [hlen]
    show decodeLE (f.bytes mem) = bits % 256 ^ f.size ↔ True ∧ f.bytes mem = encodeLE f.size bits
    rw [true_and, ← decodeLE_encodeLE]
    exact ⟨decodeLE_inj (by rw [Field.bytes, length_peek, length_encodeLE]), congrArg decodeLE⟩

/-- The fields for numbers. -/
theorem size_le_of_value {line : OptionLine} {f : Field} {n : ℤ} (hf : line.field = some f)
    (hn : line.value = .value n) : f.size ≤ 8 := by
  cases line with
  | remoteStoreProtocol value => exact OptionValue.noConfusion hn
  | loggingFramework value => exact absurd hf.symm (Option.some_ne_none f)
  | _ =>
    obtain rfl := Option.some.inj hf
    first
      | exact OptionValue.noConfusion hn
      | decide

/-- A value that fits does not come round the address space. -/
theorem length_stored_le {f : Field} {v : OptionValue} (h : v.Fits f.size) :
    (v.stored f.size).length ≤ addressMod := by
  have hsize : f.size ≤ addressMod := by
    cases f <;> decide
  cases v with
  | str v =>
    rw [OptionValue.stored, CStr.withNul, List.length_append, List.length_singleton]
    exact h
  | value n => rwa [OptionValue.stored, length_encodeLE]
  | dvalue bits => rwa [OptionValue.stored, length_encodeLE]

/-! ## The result -/

section

variable {f : Field} {line : OptionLine} {earlier later lines : List OptionLine} {mem : ℕ → UInt8}

/-- A field that a line names, after the lines behind it. -/
theorem holds_named_iff (hf : line.field = some f) :
    f.Holds (pokes addressMod mem ((earlier ++ line :: later).filterMap OptionLine.write))
      line.value ↔
      line.value.Fits f.size ∧
        Spared addressMod (later.filterMap OptionLine.write) f.offset
          (line.value.stored f.size) := by
  have hw : line.write = some (f.offset, line.value.stored f.size) := by
    rw [OptionLine.write, hf]
    rfl
  rw [holds_iff fun n hn => size_le_of_value hf hn]
  refine and_congr_right fun hfits => ?_
  rw [List.filterMap_append, List.filterMap_cons_some hw, pokes_append, pokes]
  exact peek_pokes_iff (peek_poke_self (length_stored_le hfits))

/-- A field that no line names. -/
theorem bytes_unnamed_iff :
    f.bytes (pokes addressMod mem (lines.filterMap OptionLine.write)) = f.bytes mem ↔
      Spared addressMod (lines.filterMap OptionLine.write) f.offset (f.bytes mem) := by
  have hlen : (f.bytes mem).length = f.size := length_peek
  have hback : peek addressMod mem f.offset (f.bytes mem).length = f.bytes mem := by
    rw [hlen]
    rfl
  rw [← peek_pokes_iff hback, hlen]
  rfl

/-- **When every option sets its own field and nothing else.**  After the lines, every field holds
the value of the last line naming it, and what no line names is unchanged, exactly if the last
values fit and the fields are undisturbed by other lines. -/
theorem setsOwnFields_iff (lines : List OptionLine) (s : ConfState) :
    SetsOwnFields lines s (handle lines s) ↔ ∀ c, s.conf = some c → Undisturbed lines c.mem := by
  refine forall_congr' fun c => forall_congr' fun hc => ?_
  obtain ⟨c', hc', hmem⟩ := handle_writes lines hc
  constructor
  · rintro ⟨c'', hc'', hown⟩
    obtain rfl := Option.some.inj (hc'.symm.trans hc'')
    rw [hmem] at hown
    refine ⟨?_, fun f hf => bytes_unnamed_iff.mp (hown.unnamed f hf)⟩
    rintro f earlier line later rfl hf hlast
    exact (holds_named_iff hf).mp (hown.named f earlier line later rfl hf hlast)
  · intro h
    refine ⟨c', hc', ?_⟩
    rw [hmem]
    refine ⟨?_, fun f hf => bytes_unnamed_iff.mpr (h.unnamed f hf)⟩
    rintro f earlier line later rfl hf hlast
    exact (holds_named_iff hf).mpr (h.named f earlier line later rfl hf hlast)

/-- Different fields have no byte in common. -/
theorem apart_fields {f g : Field} (h : f ≠ g) :
    Apart addressMod f.offset f.size g.offset g.size := by
  have hfit : ∀ f : Field, f.offset + f.size ≤ addressMod := by
    intro f
    cases f <;> decide
  have hsep : f.offset + f.size ≤ g.offset ∨ g.offset + g.size ≤ f.offset := by
    cases f <;> cases g <;> first | decide | exact absurd rfl h
  intro j hj k hk heq
  have hf := hfit f
  have hg := hfit g
  rw [Nat.mod_eq_of_lt (by omega), Nat.mod_eq_of_lt (by omega)] at heq
  omega

/-- Lines whose values keep to their fields disturb nothing. -/
theorem undisturbed_of_short
    (h : ∀ line ∈ lines, ∀ f, line.field = some f →
      line.value.Fits f.size ∧ (line.value.stored f.size).length ≤ f.size) :
        Undisturbed lines mem := by
  have hspared : ∀ {f : Field} {later : List OptionLine} {bs : Bytes}, (∀ l ∈ later, l ∈ lines) →
      (∀ l ∈ later, l.field ≠ some f) → bs.length ≤ f.size →
      Spared addressMod (later.filterMap OptionLine.write) f.offset bs := by
    intro f later bs hsub hother hbs
    refine spared_of_apart fun w hw => ?_
    obtain ⟨l, hl, hw⟩ := List.mem_filterMap.mp hw
    obtain ⟨g, hg, rfl⟩ := Option.map_eq_some_iff.mp hw
    have hfg : f ≠ g := fun heq => hother l hl (heq ▸ hg)
    have hsize : (l.value.stored g.size).length ≤ g.size := (h l (hsub l hl) g hg).2
    intro j hj k hk
    exact apart_fields hfg j (Nat.lt_of_lt_of_le hj hbs) k (Nat.lt_of_lt_of_le hk hsize)
  refine ⟨?_, fun f hf => ?_⟩
  · rintro f earlier line later rfl hf hlast
    have hline := h line (List.mem_append_right _ List.mem_cons_self) f hf
    exact ⟨hline.1, hspared (fun l hl => List.mem_append_right _ (List.mem_cons_of_mem _ hl))
      hlast hline.2⟩
  · exact hspared (fun _ hl => hl) hf (Nat.le_of_eq length_peek)

end

/-- A bucket's name of 70 characters. -/
def longBucket : CStr := ⟨List.replicate 70 98, by decide⟩

/-- **A long name reaches into the next field**: the access key is gone. -/
theorem not_setsOwnFields_longBucket :
    ¬ ∀ (lines : List OptionLine) (s : ConfState), SetsOwnFields lines s (handle lines s) := by
  intro h
  obtain ⟨c', hc', hown⟩ := h [.accessKeyId ⟨[97], by decide⟩, .bucket longBucket]
    (allocatedState fun _ => 0xaa) _ rfl
  obtain rfl := Option.some.inj hc'
  have hkey := hown.named .s3AccessKeyId [] _ [.bucket longBucket] rfl rfl (by decide)
  exact absurd hkey (by decide)

end App

end CloudTiering
