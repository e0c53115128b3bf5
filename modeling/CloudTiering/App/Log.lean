import CloudTiering.Foundations.AtomicObject
import CloudTiering.Foundations.Mutex
import CloudTiering.System.World

/-!
# `log.c`: the log in a file

`simple_log` writes a record in four steps under `simple_mutex`; any number of threads call it.  If
the log has not been opened it opens it first, and `simple_open_log` initializes the mutex, whoever
may hold it.

* `Stream`, `Logger`: the global variables, the streams and the threads.
* `simpleOpenLogStep`, `simpleLogStep`, `Logger.step`: the code, one step from one operation on the
  mutex or a stream to the next.
* `OpenedFirst`: `simple_open_log` is called once, before `simple_log`.
* `simpleLog_linearizable`: then a call of `simple_log` adds one record, whole and numbered, at one
  moment.
* `not_linearizable_unopened`: otherwise a record can lose its beginning.
-/

namespace CloudTiering

open Foundations

namespace App
namespace Logging

/-! ## The records -/

/-- The arguments of `simple_log`; `msg` is what `vfprintf` makes of the format and its
arguments. -/
structure LogCall where
  level : ℤ
  msg : Bytes
  deriving DecidableEq

/-- `simple_ERROR` and `simple_INFO`. -/
def simpleError : ℤ := 0

def simpleInfo : ℤ := 3

/-- The prefix for a logging level. -/
def levelPrefix (level : ℤ) : Bytes :=
  ascii (if level = simpleError then "ERROR" else if level = simpleInfo then "INFO" else "DEBUG")

/-- What `"%lu %s [%s]: "` prints. -/
def recordHeader (seqCnt : ℕ) (level : ℤ) (processName : Bytes) : Bytes :=
  ascii (toString seqCnt) ++ [32] ++ levelPrefix level ++ [32, 91] ++ processName ++ [93, 58, 32]

/-- A whole record. -/
def recordText (processName : Bytes) (seqCnt : ℕ) (a : LogCall) : Bytes :=
  recordHeader seqCnt a.level processName ++ a.msg ++ [10]

/-- The number of values of an `unsigned long`. -/
def unsignedLongMod : ℕ := 2 ^ 64

/-- The default of `simple_process_name`. -/
def unknownProcess : Bytes := ascii "unknown"

/-- The name of the log file. -/
def logFilename (processName : Bytes) : Bytes := processName ++ ascii ".log"

/-- The record about a file that cannot be opened. -/
def openFailure (filename : Bytes) : LogCall where
  level := simpleError
  msg := ascii "unable to open file " ++ filename ++
    ascii " in append mode for logging; log to stdout instead"

/-! ## The state -/

/-- Where a stream writes to. -/
inductive Sink
  | stdout
  | file (name : Bytes)
  deriving DecidableEq

/-- A stream.  Each `fopen` makes a new one, also for the same file. -/
structure Stream where
  sink : Sink
  id : ℕ
  deriving DecidableEq

/-- The stream `stdout`. -/
def stdoutStream : Stream := ⟨.stdout, 0⟩

/-- The positions in `simple_open_log`. -/
inductive OpenAt
  /-- About to initialize the mutex. -/
  | init
  | lock
  /-- About to set the process name. -/
  | name
  | fopen (filename : Bytes)
  /-- The stream has been set: about to release the mutex, and to return or to log the failure. -/
  | unlock
  | unlockFailed (filename : Bytes)

/-- The positions in `simple_log`. -/
inductive LogAt
  /-- About to test whether there is a stream. -/
  | start
  | lock
  /-- About to print the beginning, the message and the end of the line, and to flush the stream. -/
  | header
  | message
  | newline
  | flush
  | unlock

/-- The position of a thread.  `stack` holds the calls of `simple_log` that wait until the log has
been opened, the innermost first. -/
inductive LogPc
  | outside
  | openLog (name : Option Bytes) (at' : OpenAt) (stack : List LogCall)
  | log (a : LogCall) (at' : LogAt) (stack : List LogCall)

/-- The thread holds `simple_mutex`. -/
def LogPc.holds : LogPc → Bool
  | .openLog _ .name _ | .openLog _ (.fopen _) _ | .openLog _ .unlock _
  | .openLog _ (.unlockFailed _) _ => true
  | .log _ .header _ | .log _ .message _ | .log _ .newline _ | .log _ .flush _
  | .log _ .unlock _ => true
  | _ => false

/-- Where a thread goes on after a return. -/
def LogPc.resume : List LogCall → LogPc
  | [] => .outside
  | a :: stack => .log a .lock stack

/-- The global variables, the streams and the threads. -/
structure Logger (T : Type) where
  simpleMutex : Option T
  simpleSeqCnt : ℕ
  simpleStream : Option Stream
  simpleProcessName : Bytes
  /-- The number of calls of `fopen`. -/
  fopens : ℕ
  /-- What has been printed to a stream and is still in its buffer. -/
  buffer : Stream → Bytes
  content : Sink → Bytes
  pc : T → LogPc

/-- The state at the start of the process; `content` is what the files hold then. -/
def Logger.initial (T : Type) (content : Sink → Bytes) : Logger T where
  simpleMutex := none
  simpleSeqCnt := 0
  simpleStream := none
  simpleProcessName := unknownProcess
  fopens := 0
  buffer _ := []
  content := content
  pc _ := .outside

/-! ## The code -/

section

variable {T : Type} [DecidableEq T]

/-- Thread `t` at another position. -/
def Logger.goto (s : Logger T) (t : T) (pc : LogPc) :
    Logger T := { s with pc := Function.update s.pc t pc }

omit [DecidableEq T] in
/-- `fprintf` to a stream. -/
def Logger.print (s : Logger T) (f : Stream) (text : Bytes) : Logger T :=
  { s with buffer := Function.update s.buffer f (s.buffer f ++ text) }

omit [DecidableEq T] in
/-- The first `n` bytes in the buffer of a stream are written to the file. -/
def Logger.write (s : Logger T) (f : Stream) (n : ℕ) : Logger T :=
  { s with
    content := Function.update s.content f.sink (s.content f.sink ++ (s.buffer f).take n)
    buffer := Function.update s.buffer f ((s.buffer f).drop n) }

omit [DecidableEq T] in
/-- `fflush`. -/
def Logger.fflush (s : Logger T) (f : Stream) : Logger T := s.write f (s.buffer f).length

/-- A step in `simple_open_log`; `fopened` says whether `fopen` succeeds. -/
def simpleOpenLogStep (s : Logger T) (t : T) (fopened : Bool) (name : Option Bytes)
    (stack : List LogCall) :
    OpenAt → Option (Logger T)
  | .init => some ({ s with simpleMutex := none }.goto t (.openLog name .lock stack))
  | .lock =>
      if s.simpleMutex = none then
        some ({ s with simpleMutex := some t }.goto t (.openLog name .name stack))
      else none
  | .name =>
      let processName := name.getD unknownProcess
      some ({ s with simpleProcessName := processName }.goto t
        (.openLog name (.fopen (logFilename processName)) stack))
  | .fopen filename =>
      if fopened then
        some ({ s with simpleStream := some ⟨.file filename, s.fopens⟩, fopens :=
          s.fopens + 1 }.goto t
          (.openLog name .unlock stack))
      else
        some ({ s with simpleStream := some stdoutStream }.goto t
          (.openLog name (.unlockFailed filename) stack))
  | .unlock => some ({ s with simpleMutex := none }.goto t (.resume stack))
  | .unlockFailed filename =>
      some ({ s with simpleMutex := none }.goto t (.log (openFailure filename) .start stack))

/-- A step in `simple_log`. -/
def simpleLogStep (s : Logger T) (t : T) (a : LogCall) (stack : List LogCall) :
    LogAt → Option (Logger T)
  | .start =>
      match s.simpleStream with
      | none => some (s.goto t (.openLog none .init (a :: stack)))
      | some _ => some (s.goto t (.log a .lock stack))
  | .lock =>
      if s.simpleMutex = none then
        some ({ s with simpleMutex := some t }.goto t (.log a .header stack))
      else none
  | .header => s.simpleStream.map fun f =>
      { s.print f (recordHeader s.simpleSeqCnt a.level s.simpleProcessName) with
        simpleSeqCnt := (s.simpleSeqCnt + 1) % unsignedLongMod }.goto t (.log a .message stack)
  | .message => s.simpleStream.map fun f => (s.print f a.msg).goto t (.log a .newline stack)
  | .newline => s.simpleStream.map fun f => (s.print f [10]).goto t (.log a .flush stack)
  | .flush => s.simpleStream.map fun f => (s.fflush f).goto t (.log a .unlock stack)
  | .unlock => some ({ s with simpleMutex := none }.goto t (.resume stack))

/-- The labels of the steps. -/
inductive LogLabel (T : Type)
  /-- Thread `t` calls `simple_open_log`. -/
  | openLog (t : T) (name : Option Bytes)
  /-- Thread `t` calls `simple_log`. -/
  | log (t : T) (a : LogCall)
  | go (t : T) (fopened : Bool)
  /-- `stdio` writes a part of a buffer to the file. -/
  | write (f : Stream) (n : ℕ)

/-- One step. -/
def Logger.step (s : Logger T) : LogLabel T → Option (Logger T)
  | .openLog t name => match s.pc t with
    | .outside => some (s.goto t (.openLog name .init []))
    | _ => none
  | .log t a => match s.pc t with
    | .outside => some (s.goto t (.log a .start []))
    | _ => none
  | .go t fopened => match s.pc t with
    | .outside => none
    | .openLog name at' stack => simpleOpenLogStep s t fopened name stack at'
    | .log a at' stack => simpleLogStep s t a stack at'
  | .write f n => some (s.write f n)

end

/-! ## What users see -/

/-- The log with the records of the calls `v`. -/
def logText (processName : Bytes) (v : List LogCall) : Bytes :=
  (v.mapIdx fun k a => recordText processName (k % unsignedLongMod) a).flatten

/-- The atomic log. -/
def addRecord (v : List LogCall) (a : LogCall) : Option (Unit × List LogCall) := some ((), v ++ [a])

section

variable {T : Type}

/-- The calls and returns of `simple_log`. -/
def logEvents (s : Logger T) (l : LogLabel T) (_ : Logger T) : List (Event T LogCall Unit) :=
  match l with
  | .log t a => [.call t a]
  | .go t _ => match s.pc t with
    | .openLog _ (.unlockFailed filename) _ => [.call t (openFailure filename)]
    | .log _ .unlock _ => [.ret t ()]
    | _ => []
  | _ => []

/-- `simple_open_log` is called while nobody is inside and the log has not been opened, and
`simple_log` only afterwards. -/
def OpenedFirst (s : Logger T) : LogLabel T → Prop
  | .openLog _ _ => s.simpleStream = none ∧ ∀ t, s.pc t = .outside
  | .log _ _ => s.simpleStream ≠ none
  | _ => True

/-- The records of the calls `v` are in the log, behind what was in the file before; while nobody
holds the mutex there is nothing else, and no other file has changed. -/
structure Logged (content : Sink → Bytes) (s : Logger T) (v : List LogCall) : Prop where
  others : ∀ k, (∀ f, s.simpleStream = some f → f.sink ≠ k) → s.content k = content k
  records : ∀ f, s.simpleStream = some f → content f.sink ++ logText s.simpleProcessName v <+:
    s.content f.sink
  free : ∀ f, s.simpleStream = some f → s.simpleMutex = none →
    s.content f.sink = content f.sink ++ logText s.simpleProcessName v

/-! ## The invariant -/

/-- Whether the call of a thread has taken effect: it does when the stream is flushed. -/
def LogPc.status : LogPc → Status LogCall Unit
  | .outside | .openLog .. => .idle
  | .log _ .unlock _ => .done ()
  | .log a _ _ => .called a

def Logger.status (s : Logger T) (t : T) : Status LogCall Unit := (s.pc t).status

/-- What the holder of the mutex has printed of its record, whose number is `n`. -/
def LogPc.printed (processName : Bytes) (n : ℕ) : LogPc → Bytes
  | .log a .message _ => recordHeader n a.level processName
  | .log a .newline _ => recordHeader n a.level processName ++ a.msg
  | .log a .flush _ => recordText processName n a
  | _ => []

/-- The number of the record has been taken. -/
def LogPc.counted : LogPc → ℕ
  | .log _ .message _ | .log _ .newline _ | .log _ .flush _ => 1
  | _ => 0

/-- The position of the holder of the mutex. -/
def Logger.current (s : Logger T) : LogPc :=
  match s.simpleMutex with
  | some t => s.pc t
  | none => .outside

/-- The positions of the opener before the stream is set. -/
def LogPc.Opening : LogPc → Prop
  | .outside => True
  | .openLog _ .unlock _ | .openLog _ (.unlockFailed _) _ => False
  | .openLog _ _ stack => stack = []
  | .log .. => False

/-- The positions afterwards. -/
def LogPc.Opened : LogPc → Prop
  | .outside => True
  | .openLog _ .unlock stack | .openLog _ (.unlockFailed _) stack => stack = []
  | .openLog .. => False
  | .log _ _ stack => stack = []

/-- Before the stream is set, at most one thread is inside. -/
structure Opening (content : Sink → Bytes) (s : Logger T) (v : List LogCall) : Prop where
  stream : s.simpleStream = none
  owned : Owned s.simpleMutex LogPc.holds s.pc
  opener : ∀ t, s.pc t ≠ .outside → (s.pc t).Opening ∧ ∀ u, u ≠ t → s.pc u = .outside
  seqCnt : s.simpleSeqCnt = 0
  content_eq : s.content = content
  buffer : ∀ f, s.buffer f = []
  records : v = []

/-- Afterwards, the file and the buffer hold the records and what the holder of the mutex has
printed. -/
structure Opened (content : Sink → Bytes) (f : Stream) (s : Logger T) (v : List LogCall) :
    Prop where
  stream : s.simpleStream = some f
  owned : Owned s.simpleMutex LogPc.holds s.pc
  opened : ∀ t, (s.pc t).Opened
  seqCnt : s.simpleSeqCnt = (v.length + s.current.counted) % unsignedLongMod
  text : s.content f.sink ++ s.buffer f = content f.sink ++ logText s.simpleProcessName v ++
    s.current.printed s.simpleProcessName (v.length % unsignedLongMod)
  records : content f.sink ++ logText s.simpleProcessName v <+: s.content f.sink
  others : ∀ k, k ≠ f.sink → s.content k = content k
  buffers : ∀ g, g ≠ f → s.buffer g = []

/-- The invariant. -/
def LogInv (content : Sink → Bytes) (s : Logger T) (v : List LogCall) : Prop :=
  Opening content s v ∨ ∃ f, Opened content f s v

end

section

variable {T : Type} [DecidableEq T] {content : Sink → Bytes} {f g : Stream} {s : Logger T}
  {v : List LogCall} {t : T}
  {p : LogPc} {a : LogCall}

theorem logText_concat (processName : Bytes) (v : List LogCall) (a : LogCall) :
    logText processName (v ++ [a]) =
      logText processName v ++ recordText processName (v.length % unsignedLongMod) a := by
  rw [logText, List.mapIdx_concat, List.flatten_concat]
  rfl

theorem goto_pc (s : Logger T) (t : T) (p : LogPc) :
    (s.goto t p).pc = Function.update s.pc t p := rfl

theorem status_goto (s : Logger T) (t : T) (p : LogPc) :
    (s.goto t p).status = Function.update s.status t p.status := by
  funext u
  by_cases hu : u = t
  · subst hu
    rw [Function.update_self]
    exact congrArg LogPc.status (Function.update_self _ _ _)
  · rw [Function.update_of_ne hu]
    exact congrArg LogPc.status (Function.update_of_ne hu _ _)

omit [DecidableEq T] in
/-- The position of the holder. -/
theorem current_of_holds (h : Owned s.simpleMutex LogPc.holds s.pc) (ht : (s.pc t).holds = true) :
    s.current = s.pc t := by
  rw [Logger.current, (h t).mpr ht]

/-- A step of the holder. -/
theorem current_goto_self (h : s.simpleMutex = some t) : (s.goto t p).current = p := by
  unfold Logger.current
  show (match s.simpleMutex with | some u => Function.update s.pc t p u | none => .outside) = _
  rw [h]
  exact Function.update_self _ _ _

/-- A step of somebody else. -/
theorem current_goto (h : Owned s.simpleMutex LogPc.holds s.pc) (ht : (s.pc t).holds = false) :
    (s.goto t p).current = s.current := by
  have hne : s.simpleMutex ≠ some t := fun heq => Bool.false_ne_true (ht.symm.trans ((h t).mp heq))
  unfold Logger.current
  show (match s.simpleMutex with | some u => Function.update s.pc t p u | none => .outside) = _
  cases hm : s.simpleMutex with
  | none => rfl
  | some u =>
    refine Function.update_of_ne ?_ _ _
    rintro rfl
    exact hne hm

theorem opened_goto (h : ∀ t, (s.pc t).Opened) (hp : p.Opened) : ∀ u, ((s.goto t p).pc u).Opened :=
  (Function.forall_update_iff _ fun _ pc => LogPc.Opened pc).mpr ⟨hp, fun u _ => h u⟩

/-- A step of a thread that neither has the mutex nor takes it. -/
theorem Opened.stay (h : Opened content f s v) (ht : (s.pc t).holds = false) (hp : p.holds = false)
    (hopened : p.Opened) : Opened content f (s.goto t p) v where
  stream := h.stream
  owned := h.owned.stay (hp.trans ht.symm)
  opened := opened_goto h.opened hopened
  seqCnt := by
    rw [current_goto h.owned ht]
    exact h.seqCnt
  text := by
    rw [current_goto h.owned ht]
    exact h.text
  records := h.records
  others := h.others
  buffers := h.buffers

/-- A thread takes the mutex. -/
theorem Opened.lock (h : Opened content f s v) (hfree : s.simpleMutex = none) (hp : p.holds = true)
    (hopened : p.Opened) (hcounted : p.counted = 0) (hprinted : ∀ name n, p.printed name n = []) :
    Opened content f ({ s with simpleMutex := some t }.goto t p) v := by
  have hbefore : s.current = .outside := by rw [Logger.current, hfree]
  have hafter : ({ s with simpleMutex := some t }.goto t p).current = p := current_goto_self rfl
  have howned := h.owned
  rw [hfree] at howned
  refine ⟨h.stream, howned.lock hp, opened_goto h.opened hopened, ?_, ?_, h.records,
    h.others, h.buffers⟩
  · rw [hafter, hcounted]
    have hseq := h.seqCnt
    rw [hbefore] at hseq
    exact hseq
  · rw [hafter, hprinted]
    have htext := h.text
    rw [hbefore] at htext
    exact htext

/-- A thread releases the mutex. -/
theorem Opened.unlock (h : Opened content f s v) (ht : (s.pc t).holds = true) (hp : p.holds = false)
    (hopened : p.Opened) (hcounted : (s.pc t).counted = 0)
    (hprinted : ∀ name n, (s.pc t).printed name n = []) :
    Opened content f ({ s with simpleMutex := none }.goto t p) v := by
  have hbefore := current_of_holds h.owned ht
  refine ⟨h.stream, h.owned.unlock ht hp, opened_goto h.opened hopened, ?_, ?_, h.records,
    h.others, h.buffers⟩
  · have hseq := h.seqCnt
    rw [hbefore, hcounted] at hseq
    exact hseq
  · have htext := h.text
    rw [hbefore, hprinted] at htext
    exact htext

/-- The holder of the mutex prints a part of its record. -/
theorem Opened.print {n : ℕ} (h : Opened content f s v) (text : Bytes) (ht : (s.pc t).holds = true)
    (hp : p.holds = true) (hopened : p.Opened) (hseq : n = (v.length + p.counted) % unsignedLongMod)
    (hprinted : p.printed s.simpleProcessName (v.length % unsignedLongMod) =
      (s.pc t).printed s.simpleProcessName (v.length % unsignedLongMod) ++ text) :
    Opened content f ({ s.print f text with simpleSeqCnt := n }.goto t p) v := by
  have hbefore := current_of_holds h.owned ht
  have hafter : ({ s.print f text with simpleSeqCnt := n }.goto t p).current = p :=
    current_goto_self ((h.owned t).mpr ht)
  refine ⟨h.stream, h.owned.stay (hp.trans ht.symm), opened_goto h.opened hopened, ?_, ?_,
    h.records, h.others, fun g hg => ?_⟩
  · rw [hafter]
    exact hseq
  · have htext := h.text
    rw [hbefore] at htext
    rw [hafter]
    show s.content f.sink ++ Function.update s.buffer f (s.buffer f ++ text) f = _
    rw [Function.update_self, ← List.append_assoc, htext, List.append_assoc]
    exact congrArg _ hprinted.symm
  · show Function.update s.buffer f _ g = []
    rw [Function.update_of_ne hg]
    exact h.buffers g hg

omit [DecidableEq T] in
/-- Nothing is written from an empty buffer. -/
theorem write_eq_self (n : ℕ) (h : s.buffer g = []) : s.write g n = s := by
  have hbuffer : Function.update s.buffer g [] = s.buffer := by rw [← h, Function.update_eq_self]
  rw [Logger.write, h, List.take_nil, List.drop_nil, List.append_nil,
    Function.update_eq_self, hbuffer]

omit [DecidableEq T] in
/-- A part of a buffer is written to the file. -/
theorem Opened.write (h : Opened content f s v) (g : Stream) (n : ℕ) :
    Opened content f (s.write g n) v := by
  by_cases hg : g = f
  · subst hg
    refine ⟨h.stream, h.owned, h.opened, h.seqCnt, ?_, ?_, fun k hk => ?_, fun g' hg' => ?_⟩
    · show Function.update s.content g.sink _ g.sink ++ Function.update s.buffer g _ g = _
      rw [Function.update_self, Function.update_self, List.append_assoc, List.take_append_drop]
      exact h.text
    · show _ <+: Function.update s.content g.sink _ g.sink
      rw [Function.update_self]
      exact h.records.trans (List.prefix_append _ _)
    · exact (Function.update_of_ne hk _ _).trans (h.others k hk)
    · exact (Function.update_of_ne hg' _ _).trans (h.buffers g' hg')
  · rw [write_eq_self n (h.buffers g hg)]
    exact h

/-- **A record takes effect.** -/
theorem Opened.flush (h : Opened content f s v) (hpc : s.pc t = .log a .flush []) :
    Opened content f ((s.fflush f).goto t (.log a .unlock [])) (v ++ [a]) := by
  have hold : (s.pc t).holds = true := by rw [hpc]; rfl
  have hbefore := current_of_holds h.owned hold
  have hafter : ((s.fflush f).goto t (.log a .unlock [])).current = .log a .unlock [] :=
    current_goto_self (s := s.fflush f) ((h.owned t).mpr hold)
  have hwritten : Function.update s.content f.sink
      (s.content f.sink ++ (s.buffer f).take (s.buffer f).length) f.sink =
      content f.sink ++ logText s.simpleProcessName (v ++ [a]) := by
    have htext := h.text
    rw [hbefore, hpc] at htext
    rw [Function.update_self, List.take_length, htext, logText_concat, ← List.append_assoc]
    rfl
  refine ⟨h.stream, h.owned.stay hold.symm, opened_goto (s := s.fflush f) h.opened rfl, ?_, ?_, ?_,
    fun k hk => ?_,
    fun g hg => ?_⟩
  · rw [hafter, List.length_append]
    have hseq := h.seqCnt
    rw [hbefore, hpc] at hseq
    exact hseq
  · rw [hafter]
    show Function.update s.content f.sink _ f.sink ++ Function.update s.buffer f _ f = _
    rw [hwritten, Function.update_self, List.drop_length]
    rfl
  · show _ <+: Function.update s.content f.sink _ f.sink
    rw [hwritten]
    exact List.prefix_rfl
  · exact (Function.update_of_ne hk _ _).trans (h.others k hk)
  · exact (Function.update_of_ne hg _ _).trans (h.buffers g hg)

omit [DecidableEq T] in
/-- What the invariant says to users. -/
theorem LogInv.logged (h : LogInv content s v) : Logged content s v := by
  obtain h | ⟨f, h⟩ := h
  · have hnone : ∀ g, s.simpleStream ≠ some g := fun g hg =>
      Option.some_ne_none g (hg.symm.trans h.stream)
    exact ⟨fun k _ => congrFun h.content_eq k, fun g hg => absurd hg (hnone g),
      fun g hg => absurd hg (hnone g)⟩
  · have hstream : ∀ g, s.simpleStream = some g → g = f := fun g hg =>
      Option.some.inj (hg.symm.trans h.stream)
    refine ⟨fun k hk => h.others k (hk f h.stream).symm, fun g hg => ?_, fun g hg hfree => ?_⟩
    · obtain rfl := hstream g hg
      exact h.records
    · obtain rfl := hstream g hg
      have htext := h.text
      rw [Logger.current, hfree] at htext
      have hle := h.records.length_le
      have hlen := congrArg List.length htext
      rw [List.length_append] at hlen
      -- the records fill the file, so that nothing is in the buffer
      exact (h.records.eq_of_length
        (by simp only [LogPc.printed, List.append_nil] at hlen; omega)).symm

/-! ## The steps -/

/-- The atomic log that belongs to a state. -/
abbrev ImplementsLog (content : Sink → Bytes) (s : Logger T)
    (a : AtomicObject T LogCall Unit (List LogCall)) : Prop :=
  Implements (LogInv content) Logger.status s a

variable {s' : Logger T} {o : AtomicObject T LogCall Unit (List LogCall)} {l : LogLabel T}

/-- A step of `t` between the moments. -/
theorem ImplementsLog.inside {m : Logger T} (h : ImplementsLog content s o)
    (hI : LogInv content (m.goto t p) o.value)
    (hm : m.pc = s.pc) (hp : p.status = (s.pc t).status) :
    ∃ b, AtomicTrace addRecord o [] b ∧ ImplementsLog content (m.goto t p) b := by
  refine ⟨o, .nil, h.quiet hI ?_⟩
  have hstatus : m.status = s.status := by
    unfold Logger.status
    rw [hm]
  rw [status_goto, hstatus, hp]
  exact Function.update_eq_self t s.status

/-- A step of the opener before the stream is set. -/
theorem Opening.goto {m : Logger T} (h : Opening content s v)
    (hothers : ∀ u, u ≠ t → s.pc u = .outside)
    (hp : p.Opening) (howned : Owned m.simpleMutex LogPc.holds (Function.update s.pc t p))
    (hm : m.pc = s.pc)
    (hstream : m.simpleStream = s.simpleStream) (hseq : m.simpleSeqCnt = s.simpleSeqCnt)
    (hcontent : m.content = s.content) (hbuffer : m.buffer = s.buffer) :
    Opening content (m.goto t p) v := by
  have hpc : (m.goto t p).pc = Function.update s.pc t p := by rw [goto_pc, hm]
  refine ⟨hstream.trans h.stream, ?_, fun w hw => ?_, hseq.trans h.seqCnt,
    hcontent.trans h.content_eq,
    fun g => (congrFun hbuffer g).trans (h.buffer g), h.records⟩
  · rw [hpc]
    exact howned
  · have hwt : w = t := by
      by_contra hne
      exact hw (by rw [hpc, Function.update_of_ne hne]; exact hothers w hne)
    subst hwt
    rw [hpc, Function.update_self]
    exact ⟨hp, fun u hu => by rw [Function.update_of_ne hu]; exact hothers u hu⟩

/-- The opener sets the stream. -/
theorem Opening.opened {m : Logger T} (h : Opening content s v) (hpc : s.pc t ≠ .outside)
    (hold : (s.pc t).holds = true) (hp : p.Opened) (hholds : p.holds = true)
    (hcounted : p.counted = 0)
    (hprinted : ∀ name n, p.printed name n = []) (hm : m.pc = s.pc)
    (hmutex : m.simpleMutex = s.simpleMutex)
    (hstream : m.simpleStream = some f) (hseq : m.simpleSeqCnt = s.simpleSeqCnt)
    (hcontent : m.content = s.content)
    (hbuffer : m.buffer = s.buffer) : Opened content f (m.goto t p) v := by
  have hpcs : (m.goto t p).pc = Function.update s.pc t p := by rw [goto_pc, hm]
  have hcur : (m.goto t p).current = p := current_goto_self (hmutex.trans ((h.owned t).mpr hold))
  have hv := h.records
  subst hv
  have hf : m.buffer f = [] := (congrFun hbuffer f).trans (h.buffer f)
  have hc : m.content = content := hcontent.trans h.content_eq
  refine ⟨hstream, ?_, fun u => ?_, ?_, ?_, ?_, fun k _ => congrFun hc k,
    fun g _ => (congrFun hbuffer g).trans (h.buffer g)⟩
  · rw [hpcs]
    show Owned m.simpleMutex _ _
    rw [hmutex]
    exact h.owned.stay (hholds.trans hold.symm)
  · rw [hpcs]
    by_cases hu : u = t
    · subst hu
      rw [Function.update_self]
      exact hp
    · rw [Function.update_of_ne hu, (h.opener t hpc).2 u hu]
      trivial
  · rw [hcur, hcounted]
    exact hseq.trans h.seqCnt
  · rw [hcur, hprinted]
    show m.content f.sink ++ m.buffer f = _
    rw [hf, hc, List.append_nil, List.append_nil]
    exact (List.append_nil _).symm
  · show _ <+: m.content f.sink
    rw [hc]
    exact (List.append_nil _).symm ▸ List.prefix_rfl

/-- A step in `simple_open_log`. -/
theorem ImplementsLog.openLog {name : Option Bytes} {at' : OpenAt} {stack : List LogCall}
    {fopened : Bool}
    (h : ImplementsLog content s o) (hpc : s.pc t = .openLog name at' stack)
    (hs : simpleOpenLogStep s t fopened name stack at' = some s') :
    ∃ b, AtomicTrace addRecord o (logEvents s (.go t fopened) s') b ∧
      ImplementsLog content s' b := by
  have hstatus : (s.pc t).status = .idle := by rw [hpc]; rfl
  have hne : s.pc t ≠ .outside := by rw [hpc]; exact LogPc.noConfusion
  rw [logEvents, hpc]
  obtain hI | ⟨f, hI⟩ := h.inv
  · obtain ⟨hu, hothers⟩ := hI.opener t hne
    rw [hpc] at hu
    cases at' with
    | init =>
      obtain rfl : stack = [] := hu
      obtain rfl := Option.some.inj hs
      have hfree : s.simpleMutex = none := hI.owned.eq_none fun w => by
        by_cases hw : w = t
        · rw [hw, hpc]
          rfl
        · rw [hothers w hw]
          rfl
      have howned : Owned none LogPc.holds (Function.update s.pc t (.openLog name .lock [])) :=
        hfree ▸ hI.owned.stay (by rw [hpc]; rfl)
      exact h.inside (.inl (hI.goto hothers rfl howned rfl rfl rfl rfl rfl)) rfl hstatus.symm
    | lock =>
      obtain rfl : stack = [] := hu
      obtain ⟨hfree, heq⟩ := Option.ite_none_right_eq_some.mp hs
      obtain rfl := Option.some.inj heq
      have howned : Owned (some t) LogPc.holds (Function.update s.pc t (.openLog name .name [])) :=
        (hfree ▸ hI.owned).lock rfl
      exact h.inside (.inl (hI.goto hothers rfl howned rfl rfl rfl rfl rfl)) rfl hstatus.symm
    | name =>
      obtain rfl : stack = [] := hu
      obtain rfl := Option.some.inj hs
      have howned := hI.owned.stay (t := t)
        (p := .openLog name (.fopen (logFilename (name.getD unknownProcess))) []) (by rw [hpc]; rfl)
      exact h.inside (.inl (hI.goto hothers rfl howned rfl rfl rfl rfl rfl)) rfl hstatus.symm
    | fopen filename =>
      obtain rfl : stack = [] := hu
      have hold : (s.pc t).holds = true := by rw [hpc]; rfl
      cases fopened with
      | true =>
        obtain rfl := Option.some.inj hs
        have hopened := hI.opened (p := .openLog name .unlock []) hne hold rfl rfl rfl
          (fun _ _ => rfl)
          (m := { s with simpleStream := some ⟨.file filename, s.fopens⟩, fopens := s.fopens + 1 })
          rfl rfl rfl rfl rfl rfl
        exact h.inside (.inr ⟨_, hopened⟩) rfl hstatus.symm
      | false =>
        obtain rfl := Option.some.inj hs
        have hopened := hI.opened (p := .openLog name (.unlockFailed filename) []) hne hold
          rfl rfl rfl (fun _ _ => rfl)
          (m := { s with simpleStream := some stdoutStream }) rfl rfl rfl rfl rfl rfl
        exact h.inside (.inr ⟨_, hopened⟩) rfl hstatus.symm
    | unlock => exact hu.elim
    | unlockFailed filename => exact hu.elim
  · have hu := hI.opened t
    rw [hpc] at hu
    cases at' with
    | unlock =>
      obtain rfl : stack = [] := hu
      obtain rfl := Option.some.inj hs
      have hafter := hI.unlock (t := t) (p := .outside) (by rw [hpc]; rfl)
        rfl trivial (by rw [hpc]; rfl)
        fun _ _ => by rw [hpc]; rfl
      exact h.inside (.inr ⟨f, hafter⟩) rfl hstatus.symm
    | unlockFailed filename =>
      obtain rfl : stack = [] := hu
      obtain rfl := Option.some.inj hs
      have hafter := hI.unlock (t := t) (p := .log (openFailure filename) .start [])
        (by rw [hpc]; rfl) rfl rfl
        (by rw [hpc]; rfl) fun _ _ => by rw [hpc]; rfl
      exact h.called (.inr ⟨f, hafter⟩) hstatus (status_goto _ _ _)
    | _ => exact hu.elim

/-- A step in `simple_log`. -/
theorem ImplementsLog.log {at' : LogAt} {stack : List LogCall} {fopened : Bool}
    (h : ImplementsLog content s o)
    (hpc : s.pc t = .log a at' stack) (hs : simpleLogStep s t a stack at' = some s') :
    ∃ b, AtomicTrace addRecord o (logEvents s (.go t fopened) s') b ∧
      ImplementsLog content s' b := by
  rw [logEvents, hpc]
  obtain hI | ⟨f, hI⟩ := h.inv
  · -- nobody is in `simple_log` before the stream is set
    obtain ⟨hu, -⟩ := hI.opener t (by rw [hpc]; exact LogPc.noConfusion)
    rw [hpc] at hu
    exact hu.elim
  · have hstack := hI.opened t
    rw [hpc] at hstack
    obtain rfl : stack = [] := hstack
    have hstream := hI.stream
    cases at' with
    | start =>
      have hstep : simpleLogStep s t a [] .start = some (s.goto t (.log a .lock [])) := by
        rw [simpleLogStep, hstream]
      obtain rfl := Option.some.inj (hstep.symm.trans hs)
      exact h.inside (.inr ⟨f, hI.stay (by rw [hpc]; rfl) rfl rfl⟩) rfl (by rw [hpc]; rfl)
    | lock =>
      obtain ⟨hfree, heq⟩ := Option.ite_none_right_eq_some.mp hs
      obtain rfl := Option.some.inj heq
      exact h.inside (.inr ⟨f, hI.lock hfree rfl rfl rfl fun _ _ => rfl⟩) rfl (by rw [hpc]; rfl)
    | header =>
      obtain ⟨g, hg, rfl⟩ := Option.map_eq_some_iff.mp hs
      obtain rfl := Option.some.inj (hg.symm.trans hstream)
      have hseq := hI.seqCnt
      rw [current_of_holds (t := t) hI.owned (by rw [hpc]; rfl), hpc] at hseq
      have hnext : (s.simpleSeqCnt + 1) % unsignedLongMod =
          (o.value.length + 1) % unsignedLongMod := by
        rw [hseq]
        exact Nat.mod_add_mod _ _ _
      have hprint := hI.print (t := t) (p := .log a .message [])
        (recordHeader s.simpleSeqCnt a.level s.simpleProcessName) (by rw [hpc]; rfl) rfl rfl hnext
        (by rw [hpc, hseq]; rfl)
      exact h.inside (.inr ⟨g, hprint⟩) rfl (by rw [hpc]; rfl)
    | message =>
      obtain ⟨g, hg, rfl⟩ := Option.map_eq_some_iff.mp hs
      obtain rfl := Option.some.inj (hg.symm.trans hstream)
      have hseq := hI.seqCnt
      rw [current_of_holds (t := t) hI.owned (by rw [hpc]; rfl), hpc] at hseq
      have hprint := hI.print (t := t) (p := .log a .newline []) a.msg
        (by rw [hpc]; rfl) rfl rfl hseq
        (by rw [hpc]; rfl)
      exact h.inside (.inr ⟨g, hprint⟩) rfl (by rw [hpc]; rfl)
    | newline =>
      obtain ⟨g, hg, rfl⟩ := Option.map_eq_some_iff.mp hs
      obtain rfl := Option.some.inj (hg.symm.trans hstream)
      have hseq := hI.seqCnt
      rw [current_of_holds (t := t) hI.owned (by rw [hpc]; rfl), hpc] at hseq
      have hprint := hI.print (t := t) (p := .log a .flush []) [10] (by rw [hpc]; rfl) rfl rfl hseq
        (by rw [hpc]; rfl)
      exact h.inside (.inr ⟨g, hprint⟩) rfl (by rw [hpc]; rfl)
    | flush =>
      obtain ⟨g, hg, rfl⟩ := Option.map_eq_some_iff.mp hs
      obtain rfl := Option.some.inj (hg.symm.trans hstream)
      exact h.takesEffect (by rw [Logger.status, hpc]; rfl) rfl (.inr ⟨g, hI.flush hpc⟩)
        (status_goto _ _ _)
    | unlock =>
      obtain rfl := Option.some.inj hs
      have hafter := hI.unlock (t := t) (p := .outside) (by rw [hpc]; rfl) rfl trivial
        (by rw [hpc]; rfl)
        fun _ _ => by rw [hpc]; rfl
      exact h.returns (.inr ⟨f, hafter⟩) (by rw [Logger.status, hpc]; rfl) (status_goto _ _ _)

/-- Every step. -/
theorem ImplementsLog.step (h : ImplementsLog content s o) (hP : OpenedFirst s l)
    (hs : s.step l = some s') :
    ∃ b, AtomicTrace addRecord o (logEvents s l s') b ∧ ImplementsLog content s' b := by
  cases l with
  | openLog t name =>
    obtain ⟨hnone, houtside⟩ := hP
    rw [Logger.step, houtside t] at hs
    obtain rfl := Option.some.inj hs
    obtain hI | ⟨f, hI⟩ := h.inv
    · have howned := hI.owned.stay (t := t) (p := .openLog name .init []) (by rw [houtside t]; rfl)
      have hgoto := hI.goto (m := s) (p := .openLog name .init []) (fun u _ => houtside u)
        rfl howned rfl rfl rfl rfl rfl
      exact h.inside (.inl hgoto) rfl (by rw [houtside t]; rfl)
    · exact absurd (hI.stream.symm.trans hnone) (Option.some_ne_none f)
  | log t a =>
    obtain hI | ⟨f, hI⟩ := h.inv
    · exact absurd hI.stream hP
    · have hpc : s.pc t = .outside := by
        rw [Logger.step] at hs
        cases hpc : s.pc t with
        | outside => rfl
        | openLog _ _ _ | log _ _ _ => rw [hpc] at hs; exact absurd hs.symm (Option.some_ne_none s')
      rw [Logger.step, hpc] at hs
      obtain rfl := Option.some.inj hs
      have hstay := hI.stay (t := t) (p := .log a .start []) (by rw [hpc]; rfl) rfl rfl
      exact h.called (.inr ⟨f, hstay⟩) (by rw [Logger.status, hpc]; rfl) (status_goto _ _ _)
  | go t fopened =>
    rw [Logger.step] at hs
    cases hpc : s.pc t with
    | outside => rw [hpc] at hs; exact absurd hs.symm (Option.some_ne_none s')
    | openLog name at' stack => rw [hpc] at hs; exact h.openLog hpc hs
    | log a at' stack => rw [hpc] at hs; exact h.log hpc hs
  | write f n =>
    obtain rfl := Option.some.inj hs
    obtain hI | ⟨g, hI⟩ := h.inv
    · have hself := write_eq_self n (hI.buffer f)
      exact ⟨o, .nil, h.quiet (.inl (by rw [hself]; exact hI)) rfl⟩
    · exact ⟨o, .nil, h.quiet (.inr ⟨g, hI.write f n⟩) rfl⟩

/-- **`simple_log` is linearizable** if the log is opened first: whatever any number of threads log,
in whatever order their steps come, whether or not the file can be opened, and whenever `stdio`
writes out its buffers, each call adds one record at one moment between its call and its return.
The records are whole and numbered from `0`, and nothing else comes into the file. -/
theorem simpleLog_linearizable (content : Sink → Bytes) :
    Linearizable (Logger.step (T := T)) OpenedFirst logEvents (.initial T content) addRecord []
      (Logged content) := by
  refine linearizable_of_simulation (I := LogInv content) (.inl ?_) (fun _ => rfl)
    (fun _ _ _ _ (h : ImplementsLog content _ _) hP hs => h.step hP hs) fun _ _ h => h.logged
  exact ⟨rfl, fun t => iff_of_false (Option.some_ne_none t).symm Bool.false_ne_true,
    fun _ h => absurd rfl h, rfl, rfl,
    fun _ => rfl, rfl⟩

end

/-- Thread `true` opens the log.  The file cannot be opened, and while the thread is logging that
the other one comes in with a record. -/
def failedOpenRun : List (LogLabel Bool) :=
  .openLog true (some (ascii "d")) :: List.replicate 5 (.go true false) ++ .log false ⟨simpleInfo,
    ascii "up"⟩ ::
    [.go false true, .go true true, .go true true, .go true true, .write stdoutStream 3] ++
    List.replicate 4 (.go true true) ++ List.replicate 6 (.go false true)

/-- `OpenedFirst` for two threads, as a test. -/
def openedFirst (s : Logger Bool) : LogLabel Bool → Bool
  | .openLog _ _ => s.simpleStream.isNone && (s.pc true matches .outside) &&
    (s.pc false matches .outside)
  | .log _ _ => s.simpleStream.isSome
  | .go _ _ | .write _ _ => true

theorem openedFirst_of_test {s : Logger Bool} {l : LogLabel Bool} (h : openedFirst s l = true) :
    OpenedFirst s l := by
  cases l with
  | openLog t name =>
    obtain ⟨hboth, hfalse⟩ := Bool.and_eq_true_iff.mp h
    obtain ⟨hnone, htrue⟩ := Bool.and_eq_true_iff.mp hboth
    refine ⟨Option.isNone_iff_eq_none.mp hnone, fun u => ?_⟩
    cases u with
    | false => cases hpc : s.pc false <;> simp_all
    | true => cases hpc : s.pc true <;> simp_all
  | log t a => exact Option.isSome_iff_ne_none.mp h
  | go t fopened => trivial
  | write f n => trivial

/-- Both records come into the log. -/
theorem simpleLog_linearizable_failedOpen :
    ∃ tr s, Trace Logger.step OpenedFirst logEvents (.initial Bool fun _ => []) tr s ∧
      (s.simpleMutex = none ∧
        s.content .stdout = recordText (ascii "d") 0 (openFailure (ascii "d.log")) ++
        recordText (ascii "d") 1 ⟨simpleInfo, ascii "up"⟩) ∧
      ∃ a, AtomicTrace addRecord (AtomicObject.fresh Bool Unit []) tr a ∧
        Logged (fun _ => []) s a.value := by
  have hrun : ((run (guardedBy openedFirst Logger.step) (.initial Bool fun _ => [])
      failedOpenRun).any fun s =>
      decide (s.simpleMutex = none ∧ s.content .stdout =
        recordText (ascii "d") 0 (openFailure (ascii "d.log")) ++
        recordText (ascii "d") 1 ⟨simpleInfo, ascii "up"⟩)) = true := by decide +kernel
  obtain ⟨s, hs, hp⟩ := (Option.any_eq_true _ _).mp hrun
  obtain ⟨tr, htr⟩ : ∃ tr, Trace Logger.step OpenedFirst logEvents
      (.initial Bool fun _ => []) tr s :=
    exists_trace_of_guarded (I := fun _ => True) trivial
      (fun _ _ _ _ h _ => ⟨openedFirst_of_test h, trivial⟩) hs
  exact ⟨tr, s, htr, of_decide_eq_true hp, simpleLog_linearizable _ tr s htr⟩

/-- Both threads find the log not opened.  `true` opens it and begins with its record, then `false`
opens it once more, and the rest of the record goes to the new stream. -/
def openedTwiceRun : List (LogLabel Bool) :=
  [.log true ⟨simpleInfo, ascii "x"⟩, .log false ⟨simpleInfo, ascii "y"⟩, .go true true,
    .go false true] ++
    List.replicate 7 (.go true true) ++ List.replicate 5 (.go false true) ++
      List.replicate 4 (.go true true)

/-- A log begins with the number `0`. -/
theorem head?_logText_cons (processName : Bytes) (a : LogCall) (v : List LogCall) :
    (logText processName (a :: v)).head? = some 48 := by
  rw [logText, List.mapIdx_cons, List.flatten_cons]
  rfl

/-- **Without `simple_open_log` the log is not linearizable**: `simple_log` opens it, and threads
that do so at the same time initialize the mutex while it is held. -/
theorem not_linearizable_unopened :
    ¬ Linearizable (Logger.step (T := Bool)) (fun _ _ => True) logEvents (.initial Bool fun _ => [])
      addRecord []
      (Logged fun _ => []) := by
  intro h
  have hrun : ((run (guardedBy (fun _ _ => true) Logger.step)
      (.initial Bool fun _ => []) openedTwiceRun).any fun s =>
      decide (s.simpleMutex = none ∧ s.simpleStream = some ⟨.file (ascii "unknown.log"), 1⟩ ∧
        s.content (.file (ascii "unknown.log")) = ascii "x" ++ [10])) = true := by decide +kernel
  obtain ⟨s, hs, hp⟩ := (Option.any_eq_true _ _).mp hrun
  obtain ⟨hfree, hstream, hcontent⟩ := of_decide_eq_true hp
  obtain ⟨tr, htr⟩ : ∃ tr, Trace Logger.step (fun _ _ => True) logEvents
      (.initial Bool fun _ => []) tr s :=
    exists_trace_of_guarded (I := fun _ => True) trivial (fun _ _ _ _ _ _ => ⟨trivial, trivial⟩) hs
  obtain ⟨a, -, hlogged⟩ := h tr s htr
  have htext : ascii "x" ++ [10] = logText s.simpleProcessName a.value :=
    hcontent.symm.trans (hlogged.free _ hstream hfree)
  cases hv : a.value with
  | nil =>
    rw [hv] at htext
    exact absurd htext.symm (List.cons_ne_nil _ _).symm
  | cons c v =>
    have hhead := head?_logText_cons s.simpleProcessName c v
    rw [← hv, ← htext] at hhead
    exact absurd hhead (by decide)

end Logging
end App

end CloudTiering
