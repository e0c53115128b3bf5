import CloudTiering.App.ConfFields

/-!
# `conf.c`: a failed `read_conf`

The three variables of `conf.c` are set before anything has been read, and whether they are `NULL`
also tells whether the configuration has been read already.  `read_conf` never sets one of them
back.

* `loopTo`, `readConfTo`: the command loop up to any point of the file, and `read_conf` with it.
* `NoTrace`: the three getters return `NULL`, and the configuration can be read after all.
* `noTrace_iff`: a failed `read_conf` leaves no trace exactly if all three allocations have failed.
-/

namespace CloudTiering

namespace App

/-! ## The code -/

/-- `get_conf()`. -/
def getConf (s : ConfState) : Option Conf := s.conf

/-- `get_log()`. -/
def getLog (s : ConfState) : LogPtr := s.log

/-- `get_ops()`. -/
def getOps (s : ConfState) : OpsPtr := s.ops

/-- `dotconf_command_loop`, which gives up after `stop` callbacks or gets to the end of the file. -/
def loopTo (lines : List OptionLine) (stop : Option ℕ) (s : ConfState) : Int × ConfState :=
  match stop with
  | some n => (0, handle (lines.take n) s)
  | none => (1, handle lines s)

/-- `read_conf` with a command loop. -/
def readConfWith (loop : ConfState → Int × ConfState) (env : ConfEnv) (s : ConfState) :
    Int × ConfState :=
  if s.conf.isSome ∨ s.log ≠ .null ∨ s.ops ≠ .null then (-1, s)
  else if env.allocate.conf = none ∨ env.allocate.log = .null ∨ env.allocate.ops = .null then
    (-1, env.allocate)
  else if env.created = false then (-1, env.allocate)
  else
    let (ret, s) := loop env.allocate
    if ret = 0 then (-1, s) else (0, s)

/-- `read_conf` on a file with these option lines, of which the loop handles those before `stop`. -/
def readConfTo (env : ConfEnv) (lines : List OptionLine) (stop : Option ℕ) (s : ConfState) :
    Int × ConfState :=
  readConfWith (loopTo lines stop) env s

/-- No allocation fails, and the file can be opened. -/
structure ConfEnv.Succeeds (env : ConfEnv) : Prop where
  mallocConf : env.mallocConf = true
  mallocLog : env.mallocLog = true
  mallocOps : env.mallocOps = true
  created : env.created = true

/-- **No trace of a failed call**: the getters return `NULL`, and a call of `read_conf` that gets
through a file returns `0`. -/
structure NoTrace (s : ConfState) : Prop where
  conf : getConf s = none
  log : getLog s = .null
  ops : getOps s = .null
  again : ∀ (env : ConfEnv) (lines : List OptionLine), env.Succeeds →
    (readConfTo env lines none s).1 = 0

/-! ## The result -/

section

variable {env : ConfEnv} {lines : List OptionLine} {stop : Option ℕ} {s' : ConfState}

theorem isSome_handle (lines : List OptionLine) (s : ConfState) :
    (handle lines s).conf.isSome = s.conf.isSome := by
  induction lines generalizing s with
  | nil => rfl
  | cons line lines ih => exact (ih _).trans (callback_effect line s).kept

/-- Whatever fails, what has been allocated stays behind. -/
theorem readConfTo_failed (h : readConfTo env lines stop unreadConf = (-1, s')) :
    s' = env.allocate ∨ (s'.conf.isSome = true ∧ env.allocate.conf.isSome = true) := by
  unfold readConfTo readConfWith at h
  rw [if_neg (by decide)] at h
  split at h
  · exact .inl (Prod.mk.inj h).2.symm
  next halloc =>
    split at h
    · exact .inl (Prod.mk.inj h).2.symm
    · refine .inr ?_
      rw [allocate_eq halloc] at h
      have hloop : ∃ ret ls, loopTo lines stop (allocatedState env.junk) =
          (ret, handle ls (allocatedState env.junk)) := by
        cases stop with
        | some n => exact ⟨0, _, rfl⟩
        | none => exact ⟨1, _, rfl⟩
      obtain ⟨ret, ls, hloop⟩ := hloop
      rw [hloop] at h
      have hs' : handle ls (allocatedState env.junk) = s' := by
        dsimp only at h
        split at h
        · exact (Prod.mk.inj h).2
        · exact (Prod.mk.inj h).2
      rw [← hs', isSome_handle, allocate_eq halloc]
      exact ⟨rfl, rfl⟩

/-- The variables are as before the first call exactly if all three allocations have failed. -/
theorem allocate_eq_unreadConf_iff :
    env.allocate = unreadConf ↔ env.mallocConf = false ∧ env.mallocLog = false ∧
      env.mallocOps = false := by
  obtain ⟨mallocConf, mallocLog, mallocOps, junk, created, warned⟩ := env
  constructor
  · intro h
    obtain ⟨hconf, hlog, hops⟩ := ConfState.mk.inj h
    refine ⟨?_, ?_, ?_⟩
    · cases mallocConf with
      | false => rfl
      | true => exact absurd hconf (Option.some_ne_none _)
    · cases mallocLog with
      | false => rfl
      | true => exact LogPtr.noConfusion hlog
    · cases mallocOps with
      | false => rfl
      | true => exact OpsPtr.noConfusion hops
  · rintro ⟨hconf, hlog, hops⟩
    subst hconf hlog hops
    rfl

/-- From the variables before the first call a file can be read. -/
theorem readConfTo_again (henv : env.Succeeds) : (readConfTo env lines none unreadConf).1 = 0 := by
  obtain ⟨mallocConf, mallocLog, mallocOps, junk, created, warned⟩ := env
  obtain ⟨hconf, hlog, hops, hcreated⟩ := henv
  subst hconf hlog hops hcreated
  rfl

/-- There is no trace exactly if the variables are as before the first call. -/
theorem noTrace_iff_eq {s : ConfState} : NoTrace s ↔ s = unreadConf := by
  constructor
  · intro h
    obtain ⟨conf, log, ops⟩ := s
    obtain ⟨hconf, hlog, hops, -⟩ := h
    obtain rfl : conf = none := hconf
    obtain rfl : log = .null := hlog
    obtain rfl : ops = .null := hops
    rfl
  · rintro rfl
    exact ⟨rfl, rfl, rfl, fun _ _ henv => readConfTo_again henv⟩

/-- **When a failed `read_conf` leaves no trace.**  After it has returned `-1`, the getters return
`NULL` and a further call can succeed exactly if all three allocations have failed. -/
theorem noTrace_iff (h : readConfTo env lines stop unreadConf = (-1, s')) :
    NoTrace s' ↔ env.mallocConf = false ∧ env.mallocLog = false ∧ env.mallocOps = false := by
  rw [noTrace_iff_eq, ← allocate_eq_unreadConf_iff]
  rcases readConfTo_failed h with hs' | ⟨hsome, hallocated⟩
  · rw [hs']
  · constructor
    · intro hs'
      rw [hs'] at hsome
      exact absurd hsome Bool.false_ne_true
    · intro halloc
      rw [halloc] at hallocated
      exact absurd hallocated Bool.false_ne_true

end

/-- Without memory. -/
def noMemory :
    ConfEnv := { confEnv with mallocConf := false, mallocLog := false, mallocOps := false }

/-- The configuration file cannot be opened. -/
def noFile : ConfEnv := { confEnv with created := false }

theorem noTrace_noMemory :
    ∃ s', readConfTo noMemory withoutPathMax none unreadConf = (-1, s') ∧
      (NoTrace s' ↔
        noMemory.mallocConf = false ∧ noMemory.mallocLog = false ∧ noMemory.mallocOps = false) := by
  have hrun : ∃ s', readConfTo noMemory withoutPathMax none unreadConf = (-1, s') := ⟨_, rfl⟩
  obtain ⟨s', hrun⟩ := hrun
  exact ⟨s', hrun, noTrace_iff hrun⟩

/-- **A missing file leaves a trace**: memory that nobody has filled passes for a configuration. -/
theorem not_noTrace_noFile :
    ¬ ∀ (env : ConfEnv) (lines : List OptionLine) (stop : Option ℕ) (s' : ConfState),
      readConfTo env lines stop unreadConf = (-1, s') → NoTrace s' := by
  intro h
  have hconf := (h noFile [] none _ rfl).conf
  exact absurd hconf (Option.some_ne_none _)

end App

end CloudTiering
