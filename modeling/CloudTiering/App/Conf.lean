import CloudTiering.Foundations.LittleEndian
import CloudTiering.Foundations.SlotMemory
import CloudTiering.System.World

/-!
# `conf.c`: the configuration

`read_conf` allocates the three tables and has `dotconf` call a callback for every option line.
What no callback sets is what `malloc` has left there.

* `Field`, `Conf`: `conf_t` as its bytes, with a record of the fields that a callback has set.
* `OptionLine`, `callback`: the option lines and the callbacks of the table `options`.
* `commandLoop`, `readConf`: the loop of `dotconf` over the lines, and `read_conf`.
* `ConfState.Complete`: every field has been set, and both tables are known ones.
* `complete_iff`: an accepted configuration is complete exactly if it names every field and a
  logger.
-/

namespace CloudTiering

open Foundations

namespace App

/-! ## The data -/

/-- The fields of `conf_t`, in the order of their declaration. -/
inductive Field
  | fsMountPoint | scanfsIterTmSec | moveOutStartRate | moveOutStopRate
  | primaryDownloadQueueMaxSize | secondaryDownloadQueueMaxSize
  | primaryUploadQueueMaxSize | secondaryUploadQueueMaxSize
  | pathMax | remoteStoreProtocol | transferProtocol | s3DefaultHostname | s3Bucket
  | s3AccessKeyId | s3SecretAccessKey | s3OperationRetries
  deriving DecidableEq

/-- `offsetof` of the fields. -/
def Field.offset : Field → ℕ
  | .fsMountPoint => 0
  | .scanfsIterTmSec => 4096
  | .moveOutStartRate => 4104
  | .moveOutStopRate => 4112
  | .primaryDownloadQueueMaxSize => 4120
  | .secondaryDownloadQueueMaxSize => 4128
  | .primaryUploadQueueMaxSize => 4136
  | .secondaryUploadQueueMaxSize => 4144
  | .pathMax => 4152
  | .remoteStoreProtocol => 4160
  | .transferProtocol => 4224
  | .s3DefaultHostname => 4240
  | .s3Bucket => 4496
  | .s3AccessKeyId => 4560
  | .s3SecretAccessKey => 4593
  | .s3OperationRetries => 4724

/-- `conf_t`: its bytes, and which fields a callback has set. -/
structure Conf where
  mem : ℕ → UInt8
  assigned : Field → Bool

/-- The supported logging frameworks. -/
inductive Logger
  | syslog | simple
  deriving DecidableEq

/-- `log_str`. -/
def Logger.str : Logger → Bytes
  | .syslog => ascii "syslog"
  | .simple => ascii "simple"

/-- The variable `log`: `NULL`, memory from `malloc`, or one of the known tables. -/
inductive LogPtr
  | null | allocated
  | logger (l : Logger)
  deriving DecidableEq

/-- The variable `ops`, likewise. -/
inductive OpsPtr
  | null | allocated | s3Ops
  deriving DecidableEq

/-- The variables of `conf.c`. -/
structure ConfState where
  conf : Option Conf
  log : LogPtr
  ops : OpsPtr

/-- An address in `conf_t`, modulo the size of the address space. -/
def addressMod : ℕ := 2 ^ 64

/-- `conf->field = ..`, or `strcpy` into it: the bytes go to the field's place. -/
def ConfState.assign (s : ConfState) (f : Field) (bytes : Bytes) : ConfState :=
  { s with conf := s.conf.map fun c =>
      { mem := poke addressMod c.mem f.offset bytes,
        assigned := Function.update c.assigned f true } }

/-! ## The callbacks -/

/-- What a callback returns, the text of an error or `NULL`, and the variables then. -/
abbrev CbResult := Option String × ConfState

/-- `strcpy(conf->field, cmd->data.str)`. -/
def strcpyCb (f : Field) (value : CStr) (s : ConfState) :
    CbResult := (none, s.assign f value.withNul)

/-- `conf->field = cmd->data.value`, for a field of `width` bytes. -/
def valueCb (f : Field) (width : ℕ) (value : ℤ) (s : ConfState) : CbResult :=
  (none, s.assign f (encodeLE width (value % 2 ^ 64).toNat))

/-- `conf->field = cmd->data.dvalue`; `bits` are those of the number. -/
def dvalueCb (f : Field) (bits : ℕ) (s : ConfState) :
    CbResult := (none, s.assign f (encodeLE 8 bits))

def fsMountPointCb (value : CStr) (s : ConfState) : CbResult := strcpyCb .fsMountPoint value s
def scanfsIterTmSecCb (value : ℤ) (s : ConfState) : CbResult := valueCb .scanfsIterTmSec 8 value s
def moveOutStartRateCb (bits : ℕ) (s : ConfState) : CbResult := dvalueCb .moveOutStartRate bits s
def moveOutStopRateCb (bits : ℕ) (s : ConfState) : CbResult := dvalueCb .moveOutStopRate bits s
def primaryDownloadQueueMaxSizeCb (value : ℤ) (s : ConfState) : CbResult :=
  valueCb .primaryDownloadQueueMaxSize 8 value s
def secondaryDownloadQueueMaxSizeCb (value : ℤ) (s : ConfState) : CbResult :=
  valueCb .secondaryDownloadQueueMaxSize 8 value s
def primaryUploadQueueMaxSizeCb (value : ℤ) (s : ConfState) : CbResult :=
  valueCb .primaryUploadQueueMaxSize 8 value s
def secondaryUploadQueueMaxSizeCb (value : ℤ) (s : ConfState) : CbResult :=
  valueCb .secondaryUploadQueueMaxSize 8 value s
def transferProtocolCb (value : CStr) (s : ConfState) :
    CbResult := strcpyCb .transferProtocol value s
def hostnameCb (value : CStr) (s : ConfState) : CbResult := strcpyCb .s3DefaultHostname value s
def bucketCb (value : CStr) (s : ConfState) : CbResult := strcpyCb .s3Bucket value s
def accessKeyIdCb (value : CStr) (s : ConfState) : CbResult := strcpyCb .s3AccessKeyId value s
def secretAccessKeyCb (value : CStr) (s : ConfState) : CbResult :=
  strcpyCb .s3SecretAccessKey value s
def operationRetriesCb (value : ℤ) (s : ConfState) : CbResult :=
  valueCb .s3OperationRetries 4 value s

/-- The field includes the `'\0'`. -/
def pathMaxCb (value : ℤ) (s : ConfState) : CbResult := valueCb .pathMax 8 (value + 1) s

/-- The logging framework with this name. -/
def loggerOf (value : CStr) : Option Logger := [Logger.syslog, .simple].find? fun l =>
    value.1 = l.str

def loggerCb (value : CStr) (s : ConfState) : CbResult :=
  match loggerOf value with
  | some l => (none, { s with log := .logger l })
  | none => (some "unsupported logging framework", s)

/-- `protocol_str[e_s3]`. -/
def protocolS3 : Bytes := ascii "s3"

def remoteStoreProtocolCb (value : CStr) (s : ConfState) : CbResult :=
  if value.1 = protocolS3 then
    strcpyCb .remoteStoreProtocol value { s with ops := .s3Ops }
  else (some "unsupported remote store protocol", s)

/-- The lines with an option of the table `options`, in its section. -/
inductive OptionLine
  | fsMountPoint (value : CStr)
  | loggingFramework (value : CStr)
  | remoteStoreProtocol (value : CStr)
  | pathMax (value : ℤ)
  | scanfsIterTimeoutSec (value : ℤ)
  | moveOutStartRate (bits : ℕ)
  | moveOutStopRate (bits : ℕ)
  | primaryDownloadQueueMaxSize (value : ℤ)
  | secondaryDownloadQueueMaxSize (value : ℤ)
  | primaryUploadQueueMaxSize (value : ℤ)
  | secondaryUploadQueueMaxSize (value : ℤ)
  | hostname (value : CStr)
  | bucket (value : CStr)
  | accessKeyId (value : CStr)
  | secretAccessKey (value : CStr)
  | transferProtocol (value : CStr)
  | operationRetries (value : ℤ)

/-- The table `options`. -/
def callback : OptionLine → ConfState → CbResult
  | .fsMountPoint value => fsMountPointCb value
  | .loggingFramework value => loggerCb value
  | .remoteStoreProtocol value => remoteStoreProtocolCb value
  | .pathMax value => pathMaxCb value
  | .scanfsIterTimeoutSec value => scanfsIterTmSecCb value
  | .moveOutStartRate bits => moveOutStartRateCb bits
  | .moveOutStopRate bits => moveOutStopRateCb bits
  | .primaryDownloadQueueMaxSize value => primaryDownloadQueueMaxSizeCb value
  | .secondaryDownloadQueueMaxSize value => secondaryDownloadQueueMaxSizeCb value
  | .primaryUploadQueueMaxSize value => primaryUploadQueueMaxSizeCb value
  | .secondaryUploadQueueMaxSize value => secondaryUploadQueueMaxSizeCb value
  | .hostname value => hostnameCb value
  | .bucket value => bucketCb value
  | .accessKeyId value => accessKeyIdCb value
  | .secretAccessKey value => secretAccessKeyCb value
  | .transferProtocol value => transferProtocolCb value
  | .operationRetries value => operationRetriesCb value

/-! ## `read_conf` -/

/-- `dotconf_command_loop`: the callback of every line is called in turn, and no option is required.
`warned` tells whether an error ends the loop; then `0` is returned. -/
def commandLoop (warned : String → Bool) : List OptionLine → ConfState → Int × ConfState
  | [], s => (1, s)
  | line :: lines, s =>
      match callback line s with
      | (some error, s) => if warned error then (0, s) else commandLoop warned lines s
      | (none, s) => commandLoop warned lines s

/-- What `read_conf` finds: whether the three allocations and `dotconf_create` succeed, what the
allocated `conf_t` contains, and which errors end the loop. -/
structure ConfEnv where
  mallocConf : Bool
  mallocLog : Bool
  mallocOps : Bool
  junk : ℕ → UInt8
  created : Bool
  warned : String → Bool

/-- The three calls of `malloc`. -/
def ConfEnv.allocate (env : ConfEnv) : ConfState :=
  { conf := if env.mallocConf then some { mem := env.junk, assigned := fun _ => false } else none
    log := if env.mallocLog then .allocated else .null
    ops := if env.mallocOps then .allocated else .null }

/-- `read_conf` on a file with these option lines.  Freed pointers keep their values. -/
def readConf (env : ConfEnv) (lines : List OptionLine) (s : ConfState) : Int × ConfState :=
  if s.conf.isSome ∨ s.log ≠ .null ∨ s.ops ≠ .null then (-1, s)
  else if env.allocate.conf = none ∨ env.allocate.log = .null ∨ env.allocate.ops = .null then
    (-1, env.allocate)
  else if env.created = false then (-1, env.allocate)
  else
    let (ret, s) := commandLoop env.warned lines env.allocate
    if ret = 0 then (-1, s) else (0, s)

/-! ## Complete configurations -/

/-- Every field has been set by a callback, and `get_log()` and `get_ops()` are known tables. -/
def ConfState.Complete (s : ConfState) : Prop :=
  (∃ c, s.conf = some c ∧ ∀ f, c.assigned f = true) ∧ (∃ l, s.log = .logger l) ∧ s.ops = .s3Ops

/-- The field that a line sets, if it is accepted. -/
def OptionLine.field : OptionLine → Option Field
  | .fsMountPoint _ => some .fsMountPoint
  | .loggingFramework _ => none
  | .remoteStoreProtocol value => if value.1 = protocolS3 then some .remoteStoreProtocol else none
  | .pathMax _ => some .pathMax
  | .scanfsIterTimeoutSec _ => some .scanfsIterTmSec
  | .moveOutStartRate _ => some .moveOutStartRate
  | .moveOutStopRate _ => some .moveOutStopRate
  | .primaryDownloadQueueMaxSize _ => some .primaryDownloadQueueMaxSize
  | .secondaryDownloadQueueMaxSize _ => some .secondaryDownloadQueueMaxSize
  | .primaryUploadQueueMaxSize _ => some .primaryUploadQueueMaxSize
  | .secondaryUploadQueueMaxSize _ => some .secondaryUploadQueueMaxSize
  | .hostname _ => some .s3DefaultHostname
  | .bucket _ => some .s3Bucket
  | .accessKeyId _ => some .s3AccessKeyId
  | .secretAccessKey _ => some .s3SecretAccessKey
  | .transferProtocol _ => some .transferProtocol
  | .operationRetries _ => some .s3OperationRetries

/-- The line names a known logging framework. -/
def OptionLine.logger : OptionLine → Option Logger
  | .loggingFramework value => loggerOf value
  | _ => none

/-- The file names every field, the protocol among them with the name of a known one, and a known
logging framework. -/
def NamesAll (lines : List OptionLine) : Prop :=
  (∀ f, ∃ line ∈ lines, line.field = some f) ∧ ∃ line ∈ lines, line.logger.isSome = true

/-! ## What the callbacks do -/

/-- A callback has set the field. -/
def ConfState.Assigned (s : ConfState) (f : Field) :
    Prop := ∃ c, s.conf = some c ∧ c.assigned f = true

section

variable {s s' : ConfState} {f g : Field} {bytes : Bytes} {line : OptionLine}

theorem isSome_assign : (s.assign g bytes).conf.isSome = s.conf.isSome := Option.isSome_map

/-- Setting a field. -/
theorem assigned_assign (hs : s.conf.isSome = true) :
    (s.assign g bytes).Assigned f ↔ s.Assigned f ∨ g = f := by
  obtain ⟨c, hc⟩ := Option.isSome_iff_exists.mp hs
  have hnew : (s.assign g bytes).conf = some
      { mem := poke addressMod c.mem g.offset bytes,
          assigned := Function.update c.assigned g true } := by
    show s.conf.map _ = _
    rw [hc]
    rfl
  have hiff : Function.update c.assigned g true f = true ↔ c.assigned f = true ∨ g = f := by
    by_cases hfg : f = g
    · subst hfg
      rw [Function.update_self]
      exact iff_of_true rfl (.inr rfl)
    · rw [Function.update_of_ne hfg]
      exact ⟨.inl, fun h => h.resolve_right fun h => hfg h.symm⟩
  rw [ConfState.Assigned, ConfState.Assigned, hnew, hc]
  constructor
  · rintro ⟨_, hsome, hf⟩
    obtain rfl := Option.some.inj hsome
    exact (hiff.mp hf).imp_left fun h => ⟨c, rfl, h⟩
  · intro h
    refine ⟨_, rfl, hiff.mpr (h.imp_left ?_)⟩
    rintro ⟨_, hsome, hf⟩
    obtain rfl := Option.some.inj hsome
    exact hf

/-- What one line does to the variables. -/
structure LineEffect (line : OptionLine) (s s' : ConfState) : Prop where
  kept : s'.conf.isSome = s.conf.isSome
  assigned : s.conf.isSome = true → ∀ f, s'.Assigned f ↔ s.Assigned f ∨ line.field = some f
  log : s'.log = (line.logger.map LogPtr.logger).getD s.log
  ops : s'.ops = if line.field = some .remoteStoreProtocol then .s3Ops else s.ops

/-- A line whose callback sets its field and nothing else. -/
theorem lineEffect_assign (hfield : line.field = some g) (hlogger : line.logger = none)
    (hg : g ≠ .remoteStoreProtocol) : LineEffect line s (s.assign g bytes) := by
  refine ⟨isSome_assign, fun hs f => ?_, ?_, ?_⟩
  · rw [assigned_assign hs, hfield, Option.some_inj]
  · rw [hlogger]
    rfl
  · rw [hfield, if_neg fun h => hg (Option.some.inj h)]
    rfl

/-- **Every callback.** -/
theorem callback_effect (line : OptionLine) (s : ConfState) :
    LineEffect line s (callback line s).2 := by
  cases line with
  | loggingFramework value =>
    show LineEffect _ s (loggerCb value s).2
    unfold loggerCb
    cases hlogger : loggerOf value with
    | none =>
      exact ⟨rfl, fun _ f =>
        ⟨.inl, fun h => h.resolve_right fun h => absurd h.symm (Option.some_ne_none f)⟩,
        by rw [OptionLine.logger, hlogger]; rfl, rfl⟩
    | some l =>
      exact ⟨rfl, fun _ f =>
        ⟨.inl, fun h => h.resolve_right fun h => absurd h.symm (Option.some_ne_none f)⟩,
        by rw [OptionLine.logger, hlogger]; rfl, rfl⟩
  | remoteStoreProtocol value =>
    show LineEffect _ s (remoteStoreProtocolCb value s).2
    unfold remoteStoreProtocolCb
    by_cases hname : value.1 = protocolS3
    · rw [if_pos hname]
      have hfield : (OptionLine.remoteStoreProtocol value).field = some .remoteStoreProtocol :=
        if_pos hname
      refine ⟨isSome_assign, fun hs f => ?_, rfl, by rw [hfield, if_pos rfl]; rfl⟩
      rw [hfield, Option.some_inj]
      exact assigned_assign (s := { s with ops := .s3Ops }) hs
    · rw [if_neg hname]
      have hfield : (OptionLine.remoteStoreProtocol value).field = none := if_neg hname
      refine ⟨rfl, fun hs f => ?_, rfl, by rw [hfield, if_neg (Option.some_ne_none _).symm]⟩
      rw [hfield]
      exact ⟨.inl, fun h => h.resolve_right fun h => absurd h.symm (Option.some_ne_none f)⟩
  | _ => exact lineEffect_assign rfl rfl (by decide)

/-- **The whole loop**, where it gets through. -/
theorem commandLoop_effect {warned : String → Bool} {lines : List OptionLine} {ret : Int}
    (h : commandLoop warned lines s = (ret, s')) (hret : ret ≠ 0) (hs : s.conf.isSome = true) :
    s'.conf.isSome = true ∧
      (∀ f, s'.Assigned f ↔ s.Assigned f ∨ ∃ line ∈ lines, line.field = some f) ∧
      ((∃ l, s'.log = .logger l) ↔ (∃ l, s.log = .logger l) ∨ ∃ line ∈ lines,
        line.logger.isSome = true) ∧
      (s'.ops = .s3Ops ↔
        s.ops = .s3Ops ∨ ∃ line ∈ lines, line.field = some .remoteStoreProtocol) := by
  induction lines generalizing s with
  | nil =>
    obtain ⟨-, rfl⟩ := Prod.mk.inj h
    exact ⟨hs, fun f => by simp, by simp, by simp⟩
  | cons line lines ih =>
    have heff := callback_effect line s
    have hrest : commandLoop warned lines (callback line s).2 = (ret, s') := by
      rw [commandLoop] at h
      generalize callback line s = r at h
      obtain ⟨error, t⟩ := r
      cases error with
      | none => exact h
      | some error =>
        by_cases hw : warned error = true
        · simp only [if_pos hw] at h
          exact absurd (Prod.mk.inj h).1.symm hret
        · simp only [if_neg hw] at h
          exact h
    obtain ⟨hsome, hassigned, hlog, hops⟩ := ih hrest (heff.kept.trans hs)
    refine ⟨hsome, fun f => ?_, ?_, ?_⟩
    · rw [hassigned f, heff.assigned hs f, List.exists_mem_cons_iff, or_assoc]
    · rw [hlog, List.exists_mem_cons_iff, ← or_assoc]
      refine or_congr_left ?_
      rw [heff.log]
      cases line.logger with
      | none => simp
      | some l => simp
    · rw [hops, List.exists_mem_cons_iff, ← or_assoc]
      refine or_congr_left ?_
      rw [heff.ops]
      by_cases hfield : line.field = some .remoteStoreProtocol
      · simp [hfield]
      · simp [hfield]

end

/-! ## The result -/

/-- What has been allocated when the loop begins. -/
def allocatedState (junk : ℕ → UInt8) : ConfState :=
  { conf := some { mem := junk, assigned := fun _ => false }, log := .allocated, ops := .allocated }

theorem allocate_eq {env : ConfEnv}
    (h : ¬ (env.allocate.conf = none ∨ env.allocate.log = .null ∨ env.allocate.ops = .null)) :
    env.allocate = allocatedState env.junk := by
  obtain ⟨mallocConf, mallocLog, mallocOps, junk, created, warned⟩ := env
  cases mallocConf with
  | false => exact absurd (.inl rfl) h
  | true =>
    cases mallocLog with
    | false => exact absurd (.inr (.inl rfl)) h
    | true =>
      cases mallocOps with
      | false => exact absurd (.inr (.inr rfl)) h
      | true => rfl

/-- A call of `read_conf` that returns `0` has run the whole loop. -/
theorem readConf_accepted {env : ConfEnv} {lines : List OptionLine} {s s' : ConfState}
    (h : readConf env lines s = (0, s')) :
    ∃ ret, ret ≠ 0 ∧ commandLoop env.warned lines (allocatedState env.junk) = (ret, s') := by
  have hfailed : ∀ {t : ConfState}, ((-1 : Int), t) = (0, s') → False := fun heq =>
    absurd (Prod.mk.inj heq).1 (by decide)
  unfold readConf at h
  split at h
  · exact (hfailed h).elim
  · split at h
    · exact (hfailed h).elim
    next halloc =>
      split at h
      · exact (hfailed h).elim
      · rw [allocate_eq halloc] at h
        generalize hloop : commandLoop env.warned lines (allocatedState env.junk) = r at h
        obtain ⟨ret, t⟩ := r
        dsimp only at h
        split at h
        · exact (hfailed h).elim
        next hret =>
          obtain ⟨-, rfl⟩ := Prod.mk.inj h
          exact ⟨ret, hret, rfl⟩

/-- **When an accepted configuration is complete.**  Where `read_conf` returns `0`, every field has
been set and both tables are known ones exactly if the file names every field and a known logging
framework. -/
theorem complete_iff {env : ConfEnv} {lines : List OptionLine} {s s' : ConfState}
    (h : readConf env lines s = (0, s')) : s'.Complete ↔ NamesAll lines := by
  obtain ⟨ret, hret, hloop⟩ := readConf_accepted h
  obtain ⟨hsome, hassigned, hlog, hops⟩ := commandLoop_effect hloop hret rfl
  obtain ⟨c, hc⟩ := Option.isSome_iff_exists.mp hsome
  have hfields : ∀ f, c.assigned f = true ↔ ∃ line ∈ lines, line.field = some f := by
    intro f
    have hf := hassigned f
    rw [ConfState.Assigned, hc] at hf
    constructor
    · intro hcf
      refine (hf.mp ⟨c, rfl, hcf⟩).resolve_left ?_
      rintro ⟨c₀, hc₀, hcf₀⟩
      obtain rfl := Option.some.inj hc₀
      exact Bool.false_ne_true hcf₀
    · intro hline
      obtain ⟨c', hc', hcf⟩ := hf.mpr (.inr hline)
      obtain rfl := Option.some.inj hc'
      exact hcf
  have hlogger : (∃ l, s'.log = .logger l) ↔ ∃ line ∈ lines, line.logger.isSome = true :=
    hlog.trans (or_iff_right fun h => LogPtr.noConfusion h.choose_spec)
  have hprotocol : s'.ops = .s3Ops ↔ ∃ line ∈ lines, line.field = some .remoteStoreProtocol :=
    hops.trans (or_iff_right fun h => OpsPtr.noConfusion h)
  constructor
  · rintro ⟨⟨c', hc', hall⟩, hl, -⟩
    obtain rfl := Option.some.inj (hc.symm.trans hc')
    exact ⟨fun f => (hfields f).mp (hall f), hlogger.mp hl⟩
  · rintro ⟨hall, hl⟩
    exact ⟨⟨c, hc, fun f => (hfields f).mpr (hall f)⟩, hlogger.mpr hl, hprotocol.mpr (hall _)⟩

/-- A file with every option but `PathMax`. -/
def withoutPathMax : List OptionLine :=
  [.fsMountPoint ⟨[47], by decide⟩, .loggingFramework ⟨ascii "simple", by decide +kernel⟩,
    .remoteStoreProtocol ⟨ascii "s3", by decide +kernel⟩, .scanfsIterTimeoutSec 100,
    .moveOutStartRate 0, .moveOutStopRate 0, .primaryDownloadQueueMaxSize 111,
    .secondaryDownloadQueueMaxSize 222, .primaryUploadQueueMaxSize 333,
    .secondaryUploadQueueMaxSize 444, .hostname ⟨[104], by decide⟩, .bucket ⟨[98], by decide⟩,
    .accessKeyId ⟨[97], by decide⟩, .secretAccessKey ⟨[107], by decide⟩,
    .transferProtocol ⟨[116], by decide⟩, .operationRetries 5]

/-- Nothing fails. -/
def confEnv : ConfEnv where
  mallocConf := true
  mallocLog := true
  mallocOps := true
  junk _ := 0xaa
  created := true
  warned _ := false

/-- The variables before the first call of `read_conf`. -/
def unreadConf : ConfState := { conf := none, log := .null, ops := .null }

theorem complete_pathMax :
    ∃ s', readConf confEnv (.pathMax 127 :: withoutPathMax) unreadConf = (0, s') ∧
      (s'.Complete ↔ NamesAll (.pathMax 127 :: withoutPathMax)) := by
  have hrun : ∃ s', readConf confEnv (.pathMax 127 :: withoutPathMax) unreadConf = (0, s') :=
    ⟨_, rfl⟩
  obtain ⟨s', hrun⟩ := hrun
  exact ⟨s', hrun, complete_iff hrun⟩

/-- **An incomplete configuration is accepted.** -/
theorem not_complete_withoutPathMax :
    ¬ ∀ (env : ConfEnv) (lines : List OptionLine) (s' : ConfState),
      readConf env lines unreadConf = (0, s') → s'.Complete := by
  intro h
  obtain ⟨⟨c, hc, hall⟩, -⟩ := h confEnv withoutPathMax _ rfl
  obtain rfl := Option.some.inj hc
  exact Bool.false_ne_true (hall .pathMax)

end App

end CloudTiering
