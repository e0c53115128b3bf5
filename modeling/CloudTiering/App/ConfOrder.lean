import CloudTiering.App.ConfFields

/-!
# `conf.c`: the order of the options

The callbacks write into one block of memory and set one variable each, and the loop ends at the
first error that counts.  Still the order of the options says nothing: what `read_conf` makes of a
file depends only on the lines of each option by itself.

* `OptionLine.name`, `Reordered`: the options by their names, and files that differ in the order of
  the options.
* `OptionLine.error`, `Short`: the error of a line, and the lines that keep to their fields.
* `commandLoop_eq`: the loop as all lines one after the other, with one look for an error.
* `handle_reordered`: in another order, the lines leave the same variables.
* `readConf_reordered`: files that differ in the order of the options are the same configuration.
-/

namespace CloudTiering

open Foundations

namespace App

/-! ## Names -/

/-- The name of the option, as in the table `options`. -/
def OptionLine.name : OptionLine → String
  | .fsMountPoint _ => "FsMountPoint"
  | .loggingFramework _ => "LoggingFramework"
  | .remoteStoreProtocol _ => "RemoteStoreProtocol"
  | .pathMax _ => "PathMax"
  | .scanfsIterTimeoutSec _ => "ScanfsIterTimeoutSec"
  | .moveOutStartRate _ => "MoveOutStartRate"
  | .moveOutStopRate _ => "MoveOutStopRate"
  | .primaryDownloadQueueMaxSize _ => "PrimaryDownloadQueueMaxSize"
  | .secondaryDownloadQueueMaxSize _ => "SecondaryDownloadQueueMaxSize"
  | .primaryUploadQueueMaxSize _ => "PrimaryUploadQueueMaxSize"
  | .secondaryUploadQueueMaxSize _ => "SecondaryUploadQueueMaxSize"
  | .hostname _ => "Hostname"
  | .bucket _ => "Bucket"
  | .accessKeyId _ => "AccessKeyId"
  | .secretAccessKey _ => "SecretAccessKey"
  | .transferProtocol _ => "TransferProtocol"
  | .operationRetries _ => "OperationRetries"

/-- The name of the option for a field. -/
def Field.name : Field → String
  | .fsMountPoint => "FsMountPoint"
  | .scanfsIterTmSec => "ScanfsIterTimeoutSec"
  | .moveOutStartRate => "MoveOutStartRate"
  | .moveOutStopRate => "MoveOutStopRate"
  | .primaryDownloadQueueMaxSize => "PrimaryDownloadQueueMaxSize"
  | .secondaryDownloadQueueMaxSize => "SecondaryDownloadQueueMaxSize"
  | .primaryUploadQueueMaxSize => "PrimaryUploadQueueMaxSize"
  | .secondaryUploadQueueMaxSize => "SecondaryUploadQueueMaxSize"
  | .pathMax => "PathMax"
  | .remoteStoreProtocol => "RemoteStoreProtocol"
  | .transferProtocol => "TransferProtocol"
  | .s3DefaultHostname => "Hostname"
  | .s3Bucket => "Bucket"
  | .s3AccessKeyId => "AccessKeyId"
  | .s3SecretAccessKey => "SecretAccessKey"
  | .s3OperationRetries => "OperationRetries"

/-- The lines with an option of this name, in their order. -/
def named (name : String) (lines : List OptionLine) : List OptionLine :=
  lines.filter fun l => l.name = name

/-- The same lines, where only lines of different options have changed their order. -/
def Reordered (lines lines' : List OptionLine) :
    Prop := ∀ name, named name lines = named name lines'

/-- The value of the line keeps to the field that the line sets. -/
def OptionLine.Short (line : OptionLine) : Prop :=
  ∀ f, line.field = some f → (line.value.stored f.size).length ≤ f.size

instance (line : OptionLine) : Decidable line.Short :=
  decidable_of_iff (line.field.all fun f => (line.value.stored f.size).length ≤ f.size) <| by
    rw [OptionLine.Short]
    cases line.field with
    | none => exact iff_of_true rfl fun f h => absurd h.symm (Option.some_ne_none f)
    | some g => simp

/-- The error of the callback of a line, whatever the variables are. -/
def OptionLine.error : OptionLine → Option String
  | .loggingFramework value =>
      if (loggerOf value).isSome then none else some "unsupported logging framework"
  | .remoteStoreProtocol value =>
      if value.1 = protocolS3 then none else some "unsupported remote store protocol"
  | _ => none

/-- The line ends the loop. -/
def OptionLine.Ends (warned : String → Bool) (line : OptionLine) : Prop :=
  line.error.any warned = true

instance (warned : String → Bool) (line : OptionLine) : Decidable (line.Ends warned) :=
  inferInstanceAs (Decidable (_ = true))

section

variable {line : OptionLine} {lines lines' : List OptionLine} {f : Field} {name : String}

theorem name_of_field (h : line.field = some f) : line.name = f.name := by
  cases line with
  | loggingFramework value => exact absurd h.symm (Option.some_ne_none f)
  | remoteStoreProtocol value =>
    rw [OptionLine.field] at h
    split at h
    · obtain rfl := Option.some.inj h
      rfl
    · exact absurd h.symm (Option.some_ne_none f)
  | _ =>
    obtain rfl := Option.some.inj h
    rfl

theorem name_of_logger {l : Logger} (h : line.logger = some l) :
    line.name = "LoggingFramework" := by
  cases line with
  | loggingFramework value => rfl
  | _ => exact absurd h.symm (Option.some_ne_none l)

theorem mem_named : line ∈ named name lines ↔ line ∈ lines ∧ line.name = name := by
  rw [named, List.mem_filter, decide_eq_true_iff]

theorem Reordered.symm (h : Reordered lines lines') : Reordered lines' lines :=
  fun name => (h name).symm

/-- In another order, the lines are the same. -/
theorem Reordered.mem_iff (h : Reordered lines lines') : line ∈ lines ↔ line ∈ lines' := by
  have hmem : line ∈ named line.name lines ↔ line ∈ named line.name lines' := by rw [h line.name]
  rwa [mem_named, mem_named, and_iff_left rfl, and_iff_left rfl] at hmem

/-- Where no option is named twice, the lines may come in any order. -/
theorem reordered_of_perm (h : lines.Perm lines') (honce : (lines.map OptionLine.name).Nodup) :
    Reordered lines lines' := by
  intro name
  have hperm : (named name lines).Perm (named name lines') := h.filter _
  have hshort : (named name lines).length ≤ 1 := by
    have hcount : (named name lines).length = (lines.map OptionLine.name).count name := by
      rw [named, ← List.countP_eq_length_filter, List.count, List.countP_map]
      rfl
    rw [hcount]
    exact List.nodup_iff_count.mp honce name
  match hlines : named name lines, hshort with
  | [], _ =>
    rw [hlines] at hperm
    exact hperm.nil_eq
  | [l], _ =>
    rw [hlines] at hperm
    exact (List.perm_singleton.mp hperm.symm).symm

/-- What only lines of one option give is given by these lines. -/
theorem filterMap_named {α : Type} {g : OptionLine → Option α}
    (hg : ∀ l a, g l = some a → l.name = name) :
    (named name lines).filterMap g = lines.filterMap g := by
  rw [named, List.filterMap_filter]
  refine List.filterMap_congr fun l _ => ?_
  split
  · rfl
  next hname =>
    cases hl : g l with
    | none => rfl
    | some a => exact absurd (decide_eq_true (hg l a hl)) hname

end

/-! ## The loop -/

section

variable {warned : String → Bool} {line : OptionLine} {lines : List OptionLine}
  {s : ConfState} {f : Field}

theorem callback_error (line : OptionLine) (s : ConfState) : (callback line s).1 = line.error := by
  cases line with
  | loggingFramework value =>
    show (loggerCb value s).1 = OptionLine.error (.loggingFramework value)
    rw [loggerCb, OptionLine.error]
    cases loggerOf value with
    | none => rfl
    | some l => rfl
  | remoteStoreProtocol value =>
    show (remoteStoreProtocolCb value s).1 = OptionLine.error (.remoteStoreProtocol value)
    rw [remoteStoreProtocolCb, OptionLine.error]
    split
    · rfl
    · rfl
  | _ => rfl

/-- One line in front. -/
theorem commandLoop_cons : commandLoop warned (line :: lines) s =
    if line.Ends warned then (0, (callback line s).2) else commandLoop warned lines
      (callback line s).2 := by
  have hends : line.Ends warned ↔ (callback line s).1.any warned = true := by
    rw [callback_error]
    rfl
  rw [commandLoop, if_congr hends rfl rfl]
  generalize callback line s = r
  obtain ⟨error, t⟩ := r
  cases error with
  | none => rfl
  | some error => rfl

/-- **The loop with an error that counts.** -/
theorem commandLoop_fst_of_ends (h : ∃ line ∈ lines, line.Ends warned) :
    (commandLoop warned lines s).1 = 0 := by
  induction lines generalizing s with
  | nil =>
    obtain ⟨line, hline, -⟩ := h
    exact absurd hline List.not_mem_nil
  | cons line lines ih =>
    rw [commandLoop_cons]
    split
    · rfl
    next hgo =>
      obtain ⟨l, hl, hends⟩ := h
      rcases List.mem_cons.mp hl with rfl | hl
      · exact absurd hends hgo
      · exact ih ⟨l, hl, hends⟩

/-- **The loop without one.** -/
theorem commandLoop_eq_handle (h : ∀ line ∈ lines, ¬ line.Ends warned) :
    commandLoop warned lines s = (1, handle lines s) := by
  induction lines generalizing s with
  | nil => rfl
  | cons line lines ih =>
    rw [commandLoop_cons, if_neg (h line List.mem_cons_self), ih fun l hl =>
      h l (List.mem_cons_of_mem _ hl)]
    rfl

end

/-! ## The variables -/

section

variable {line : OptionLine} {lines lines' : List OptionLine} {s : ConfState} {c c' : Conf}
  {f g : Field} {x : ℕ}

theorem handle_log : (handle lines s).log =
    ((lines.filterMap OptionLine.logger).getLast?.map LogPtr.logger).getD s.log := by
  induction lines generalizing s with
  | nil => rfl
  | cons line lines ih =>
    show (handle lines (callback line s).2).log = _
    rw [ih, (callback_effect line s).log]
    cases hl : line.logger with
    | none => rw [List.filterMap_cons_none hl, Option.map_none, Option.getD_none]
    | some l =>
      rw [List.filterMap_cons_some hl, List.getLast?_cons, Option.map_some, Option.getD_some,
        Option.map_some, Option.getD_some]
      cases (lines.filterMap OptionLine.logger).getLast? with
      | none => rfl
      | some l' => rfl

theorem handle_ops : (handle lines s).ops =
    if ∃ line ∈ lines, line.field = some .remoteStoreProtocol then .s3Ops else s.ops := by
  induction lines generalizing s with
  | nil =>
    rw [if_neg fun ⟨_, h, _⟩ => absurd h List.not_mem_nil]
    rfl
  | cons line lines ih =>
    show (handle lines (callback line s).2).ops = _
    rw [ih, (callback_effect line s).ops, if_congr (List.exists_mem_cons_iff _ _ _) rfl rfl]
    by_cases hrest : ∃ l ∈ lines, l.field = some .remoteStoreProtocol
    · rw [if_pos hrest, if_pos (.inr hrest)]
    · rw [if_neg hrest, if_congr (or_iff_left hrest) rfl rfl]

theorem handle_assigned (hc : s.conf = some c) (hc' : (handle lines s).conf = some c') :
    c'.assigned f = true ↔ c.assigned f = true ∨ ∃ line ∈ lines, line.field = some f := by
  induction lines generalizing s c with
  | nil =>
    obtain rfl := Option.some.inj (hc.symm.trans hc')
    exact (or_iff_left fun ⟨_, h, _⟩ => absurd h List.not_mem_nil).symm
  | cons line lines ih =>
    have heff := callback_effect line s
    have hsome : s.conf.isSome = true := by
      rw [hc]
      rfl
    obtain ⟨c₁, hc₁⟩ := Option.isSome_iff_exists.mp (heff.kept.trans hsome)
    have hfirst := heff.assigned hsome f
    have hiff : ∀ {t : ConfState} {d : Conf}, t.conf = some d →
        (t.Assigned f ↔ d.assigned f = true) := by
      intro t d ht
      constructor
      · rintro ⟨e, he, hf⟩
        obtain rfl := Option.some.inj (ht.symm.trans he)
        exact hf
      · exact fun hf => ⟨d, ht, hf⟩
    rw [hiff hc₁, hiff hc] at hfirst
    rw [ih hc₁ hc', hfirst, List.exists_mem_cons_iff, or_assoc]

/-- A line that reaches an address sets a field there. -/
theorem field_of_written (hshort : line.Short) {w : ℕ × Bytes} (hw : line.write = some w)
    (hx : written addressMod w.1 w.2 x ≠ none) :
    ∃ f, line.field = some f ∧ ∃ k < f.size, (f.offset + k) % addressMod = x := by
  obtain ⟨f, hf, rfl⟩ := Option.map_eq_some_iff.mp hw
  refine ⟨f, hf, ?_⟩
  by_contra hfar
  refine hx (written_eq_none fun k hk heq => hfar ⟨k, ?_, heq⟩)
  exact Nat.lt_of_lt_of_le hk (hshort f hf)

/-- An address is in one field only. -/
theorem field_eq_of_mod_eq {j k : ℕ} (hj : j < f.size) (hk : k < g.size)
    (h : (f.offset + j) % addressMod = (g.offset + k) % addressMod) : f = g := by
  by_contra hfg
  exact apart_fields hfg j hj k hk h

/-- What is at an address in the end is due to the lines of one option. -/
theorem lastWritten_named (hshort : ∀ line ∈ lines, line.Short) (x : ℕ) :
    ∃ name, ∀ lines' : List OptionLine, (∀ l ∈ lines', l ∈ lines) →
      lastWritten addressMod (lines'.filterMap OptionLine.write) x =
        lastWritten addressMod ((named name lines').filterMap OptionLine.write) x := by
  by_cases hx : ∃ l ∈ lines, ∃ w, l.write = some w ∧ written addressMod w.1 w.2 x ≠ none
  · obtain ⟨l₀, hl₀, w₀, hw₀, hx₀⟩ := hx
    obtain ⟨f, hf, k, hk, hfx⟩ := field_of_written (hshort l₀ hl₀) hw₀ hx₀
    refine ⟨f.name, fun lines' hsub => (lastWritten_filter fun l hl hname w hw => ?_).symm⟩
    -- a line that reaches the address sets the same field
    by_contra hreach
    obtain ⟨g, hg, j, hj, hgx⟩ := field_of_written (hshort l (hsub l hl)) hw hreach
    obtain rfl := field_eq_of_mod_eq hk hj (hfx.trans hgx.symm)
    exact of_decide_eq_false hname (name_of_field hg)
  · refine ⟨"", fun lines' hsub => (lastWritten_filter fun l hl _ w hw => ?_).symm⟩
    by_contra hreach
    exact hx ⟨l, hsub l hl, w, hw, hreach⟩

/-- **The lines in another order** leave the same variables. -/
theorem handle_reordered (h : Reordered lines lines') (hshort : ∀ line ∈ lines, line.Short)
    (hc : s.conf = some c) : handle lines s = handle lines' s := by
  obtain ⟨c₁, hc₁, hmem₁⟩ := handle_writes lines hc
  obtain ⟨c₂, hc₂, hmem₂⟩ := handle_writes lines' hc
  have hfield : ∀ f, (∃ l ∈ lines, l.field = some f) ↔ ∃ l ∈ lines', l.field = some f := fun f =>
    exists_congr fun l => and_congr_left' h.mem_iff
  have hmem : c₁.mem = c₂.mem := by
    rw [hmem₁, hmem₂]
    funext x
    obtain ⟨name, hname⟩ := lastWritten_named hshort x
    rw [pokes_apply, pokes_apply, hname lines fun _ hl => hl, hname lines' fun _ hl =>
      h.mem_iff.mpr hl, h name]
  have hassigned : c₁.assigned = c₂.assigned := by
    funext f
    rw [Bool.eq_iff_iff, handle_assigned hc hc₁, handle_assigned hc hc₂, hfield f]
  have hlog : (handle lines s).log = (handle lines' s).log := by
    rw [handle_log, handle_log, ← filterMap_named fun _ _ => name_of_logger, h,
      filterMap_named fun _ _ => name_of_logger]
  have hops : (handle lines s).ops = (handle lines' s).ops := by
    rw [handle_ops, handle_ops, if_congr (hfield _) rfl rfl]
  have hconf : (handle lines s).conf = (handle lines' s).conf := by
    obtain ⟨mem₁, assigned₁⟩ := c₁
    obtain ⟨mem₂, assigned₂⟩ := c₂
    rw [hc₁, hc₂, show mem₁ = mem₂ from hmem, show assigned₁ = assigned₂ from hassigned]
  generalize handle lines s = t₁ at hconf hlog hops
  generalize handle lines' s = t₂ at hconf hlog hops
  obtain ⟨conf₁, log₁, ops₁⟩ := t₁
  obtain ⟨conf₂, log₂, ops₂⟩ := t₂
  obtain rfl : conf₁ = conf₂ := hconf
  obtain rfl : log₁ = log₂ := hlog
  obtain rfl : ops₁ = ops₂ := hops
  rfl

end

/-! ## The result -/

section

variable {env : ConfEnv} {lines lines' : List OptionLine} {s : ConfState}

/-- The loop in another order: the same value, and if it gets through, the same variables. -/
theorem commandLoop_reordered {warned : String → Bool} {c : Conf} (h : Reordered lines lines')
    (hshort : ∀ line ∈ lines, line.Short) (hc : s.conf = some c) :
    ((commandLoop warned lines s).1 = 0 ∧ (commandLoop warned lines' s).1 = 0) ∨
      commandLoop warned lines s = (1, handle lines s) ∧
        commandLoop warned lines' s = (1, handle lines s) := by
  by_cases hends : ∃ line ∈ lines, line.Ends warned
  · obtain ⟨line, hline, hends⟩ := hends
    exact .inl ⟨commandLoop_fst_of_ends ⟨line, hline, hends⟩,
      commandLoop_fst_of_ends ⟨line, h.mem_iff.mp hline, hends⟩⟩
  · have hgo : ∀ line ∈ lines, ¬ line.Ends warned := fun line hline hline' =>
      hends ⟨line, hline, hline'⟩
    refine .inr ⟨commandLoop_eq_handle hgo, ?_⟩
    rw [handle_reordered h hshort hc]
    exact commandLoop_eq_handle fun line hline => hgo line (h.mem_iff.mpr hline)

/-- **The order of the options says nothing.**  If two files differ in the order of lines with
different options only, and every value keeps to its field, `read_conf` returns the same for both,
and where it returns `0` it leaves the same configuration, logger and operations. -/
theorem readConf_reordered (env : ConfEnv) (s : ConfState) (h : Reordered lines lines')
    (hshort : ∀ line ∈ lines, line.Short) :
    (readConf env lines s).1 = (readConf env lines' s).1 ∧
      ((readConf env lines s).1 = 0 → readConf env lines s = readConf env lines' s) := by
  unfold readConf
  split
  · exact ⟨rfl, fun _ => rfl⟩
  · split
    · exact ⟨rfl, fun _ => rfl⟩
    next halloc =>
      split
      · exact ⟨rfl, fun _ => rfl⟩
      · rw [allocate_eq halloc]
        rcases commandLoop_reordered h hshort (s := allocatedState env.junk) rfl with hloop | hloop
        · dsimp only
          rw [if_pos hloop.1, if_pos hloop.2]
          exact ⟨rfl, fun hret => absurd (show (-1 : Int) = 0 from hret) (by decide)⟩
        · rw [hloop.1, hloop.2]
          exact ⟨rfl, fun _ => rfl⟩

end

/-- A file with every option. -/
def everyOption : List OptionLine := .pathMax 127 :: withoutPathMax

theorem readConf_reordered_reverse :
    (readConf confEnv everyOption unreadConf).1 = 0 ∧
      readConf confEnv everyOption unreadConf =
        readConf confEnv everyOption.reverse unreadConf := by
  have hreordered : Reordered everyOption everyOption.reverse :=
    reordered_of_perm (List.reverse_perm _).symm (by decide +kernel)
  have hshort : ∀ line ∈ everyOption, line.Short := by decide +kernel
  exact ⟨rfl, (readConf_reordered confEnv unreadConf hreordered hshort).2 rfl⟩

/-- A name that runs into the next field does depend on the order. -/
example : (readConf confEnv [.bucket longBucket, .accessKeyId ⟨[97], by decide⟩]
    unreadConf).2.conf.map
      (fun c => c.mem (Field.offset .s3AccessKeyId)) ≠
    (readConf confEnv [.accessKeyId ⟨[97], by decide⟩, .bucket longBucket] unreadConf).2.conf.map
      (fun c => c.mem (Field.offset .s3AccessKeyId)) := by decide

end App

end CloudTiering
