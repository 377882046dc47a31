import Ssgx.Support.LastGiven
import Ssgx.Support.Text
import Mathlib.Data.List.Induction
import Mathlib.Logic.Function.Basic

/-!
# Log messages

`LogMessage`, which exists in the enclave and on the host, `SSGXLogger` and `LogHelper` of the host,
and the ocalls between. Messages of the enclave cross the border as C strings; the trace id belongs
to a thread, also where the enclave sets it; and a message goes to the logger of the last `Init`.

log4cplus is not part of the repository. It is a parameter (`Log4cplus`), with what its
documentation says of the calls as hypotheses (`Log4cplus.Documented`): `getInstance` gives the same
logger for the same name, a logger admits the levels from its own on, an event goes to the appenders
of its logger and of the loggers above it, and the diagnostic context is one of the thread.

`output_eq` says what has been written after any calls, by the calls alone.
-/

set_option autoImplicit false

namespace Ssgx.Log

open Ssgx.Support

/-! ## Messages -/

/-- `LogLevel` -/
inductive LogLevel where
  | trace
  | debug
  | info
  | warn
  | error
  | fatal
  | off
deriving DecidableEq

/-- The values of the enumeration. -/
def LogLevel.code : LogLevel → Int
  | .trace => 0
  | .debug => 1
  | .info => 2
  | .warn => 3
  | .error => 4
  | .fatal => 5
  | .off => 6

/-- `static_cast<LogLevel>`, of a number in the range of the enumeration. -/
def LogLevel.ofCode (code : Int) : LogLevel :=
  if code = 0 then .trace
  else if code = 1 then .debug
  else if code = 2 then .info
  else if code = 3 then .warn
  else if code = 4 then .error
  else if code = 5 then .fatal
  else .off

theorem LogLevel.ofCode_code (level : LogLevel) : ofCode level.code = level := by
  cases level <;> rfl

/-- What an `operator<<` takes, but for floating point numbers. -/
inductive LogValue where
  | text (value : Str)
  | char (value : Char)
  | number (value : Int)

/-- The text that is added to the message. -/
def LogValue.shown : LogValue → Str
  | .text value => value
  | .char value => [value]
  | .number value => toText value

/-- A `LogMessage`. -/
structure LogMessage where
  level : LogLevel
  filename : Str
  line : Int
  funcName : Str
  message : Str

/-- A statement `SSGX_LOG(level) << ...`. -/
def LogMessage.make (level : LogLevel) (filename : Str) (line : Int) (funcName : Str)
    (values : List LogValue) : LogMessage :=
  values.foldl (fun m value => { m with message := m.message ++ value.shown })
    ⟨level, filename, line, funcName, []⟩

/-- The text that `Finish` builds. -/
def LogMessage.logBuf (m : LogMessage) : Str :=
  '[' :: (m.filename ++ '(' :: (toText m.line ++ ')' :: ']' :: (m.funcName ++ ':' :: m.message)))

/-- `c_str`, as far as its readers go. -/
def cStr (s : Str) : Str := s.takeWhile (· ≠ '\x00')

/-! ## log4cplus -/

/-- A thread of the host. -/
abbrev Thread := Nat

/-- An appender that `SetLogger` makes. -/
inductive Appender where
  | file (logFile : Str)
  | console
deriving DecidableEq

/-- log4cplus: the constants of its levels, and the calls that `LogHelper` and the macros make, with
states in `σ`. The loggers go by their names, as for `getInstance`; `putTraceId` is the `put` of the
diagnostic context, and `fmt` is `LOG4CPLUS_INFO_FMT` and its siblings. -/
structure Log4cplus (σ : Type) where
  level : LogLevel → Int
  start : σ
  removeAllAppenders : Str → σ → σ
  addAppender : Str → Appender → σ → σ
  setLogLevel : Str → Int → σ → σ
  putTraceId : Thread → Str → σ → σ
  fmt : Thread → Str → LogLevel → Str → σ → σ

/-- A logger. -/
structure Logger where
  logLevel : Int
  appenders : List Appender
deriving DecidableEq

/-- What an appender is given. -/
structure Record where
  appender : Appender
  logger : Str
  level : LogLevel
  traceId : Option Str
  thread : Thread
  message : Str
deriving DecidableEq

/-- What can be seen of log4cplus: the loggers by name, the `TraceId` of each thread, and what the
appenders were given. -/
structure LogView where
  loggers : Str → Logger
  traceId : Thread → Option Str
  output : List Record

/-- The view with another logger of the name. -/
def LogView.onLogger (v : LogView) (name : Str) (change : Logger → Logger) : LogView :=
  { v with loggers := Function.update v.loggers name (change (v.loggers name)) }

/-- A logger whose level is this one admits an event. -/
def LogLevel.Admits (own level : LogLevel) : Prop := own.code ≤ level.code

instance (own level : LogLevel) : Decidable (own.Admits level) :=
  inferInstanceAs (Decidable (_ ≤ _))

/-- The records of an event: to each appender of the loggers that the name reaches. -/
def LogView.records (v : LogView) (reached : List Str) (thread : Thread) (name : Str)
    (level : LogLevel) (msg : Str) : List Record :=
  reached.flatMap fun above => (v.loggers above).appenders.map fun appender =>
    ⟨appender, name, level, v.traceId thread, thread, msg⟩

/-- What is documented of the calls. Before any call there are no appenders; what a macro does is
said only for a logger that was given a level. -/
structure Log4cplus.Documented {σ : Type} (lib : Log4cplus σ) (reaches : Str → List Str)
    (view : σ → LogView) : Prop where
  reaches_self : ∀ name, name ∈ reaches name
  start : (∀ name, ((view lib.start).loggers name).appenders = []) ∧
    (∀ thread, (view lib.start).traceId thread = none) ∧ (view lib.start).output = []
  removeAllAppenders : ∀ name s, view (lib.removeAllAppenders name s) =
    (view s).onLogger name fun logger => { logger with appenders := [] }
  addAppender : ∀ name appender s, view (lib.addAppender name appender s) =
    (view s).onLogger name fun logger =>
      { logger with appenders := logger.appenders ++ [appender] }
  setLogLevel : ∀ name logLevel s, view (lib.setLogLevel name logLevel s) =
    (view s).onLogger name fun logger => { logger with logLevel := logLevel }
  putTraceId : ∀ thread traceId s, view (lib.putTraceId thread traceId s) =
    { view s with traceId := Function.update (view s).traceId thread (some traceId) }
  fmt : ∀ thread name own level msg s, ((view s).loggers name).logLevel = lib.level own →
    view (lib.fmt thread name level msg s) = { view s with
      output := (view s).output ++ if own.Admits level then
        (view s).records (reaches name) thread name level msg else [] }

/-! ## The host -/

/-- The host: log4cplus, and the fields of `SSGXLogger`. -/
structure LogHost (σ : Type) where
  log : σ
  loggerName : Str
  initialized : Bool

section Library

variable {σ : Type} (lib : Log4cplus σ)

/-- The host before any call. -/
def LogHost.start : LogHost σ := ⟨lib.start, [], false⟩

/-- `MapLogLevel` -/
def mapLogLevel : LogLevel → Int
  | .trace => lib.level .trace
  | .debug => lib.level .debug
  | .info => lib.level .info
  | .warn => lib.level .warn
  | .error => lib.level .error
  | .fatal => lib.level .fatal
  | .off => lib.level .off

/-- `LogHelper::SetLogger` -/
def LogHost.setLogger (s : LogHost σ) (loggerName logFile : Str) (logLevel : Int)
    (appendConsole : Bool) : LogHost σ :=
  let log := lib.removeAllAppenders loggerName s.log
  let log := lib.addAppender loggerName (.file logFile) log
  let log := lib.setLogLevel loggerName logLevel log
  { s with log := if appendConsole then lib.addAppender loggerName .console log else log }

/-- `LogHelper::SetTraceId` -/
def LogHost.setTraceId (s : LogHost σ) (thread : Thread) (traceId : Str) : LogHost σ :=
  { s with log := lib.putTraceId thread traceId s.log }

/-- `SSGXLogger::Init` -/
def LogHost.init (s : LogHost σ) (thread : Thread) (loggerName logFile : Str) (logLevel : LogLevel)
    (appendConsole : Bool) : LogHost σ :=
  let s := s.setLogger lib loggerName logFile (mapLogLevel lib logLevel) appendConsole
  let s := s.setTraceId lib thread (str "main")
  { s with loggerName := loggerName, initialized := true }

/-- `SSGXLogger::WriteLog` -/
def LogHost.writeLog (s : LogHost σ) (thread : Thread) (logLevel : LogLevel) (msg : Str) :
    Int × LogHost σ :=
  if !s.initialized then (-1, s)
  else
    match logLevel with
    | .off => (0, s)
    | level => (0, { s with log := lib.fmt thread s.loggerName level msg s.log })

/-- `ssgx_ocall_write_log` -/
def LogHost.ssgxOcallWriteLog (s : LogHost σ) (thread : Thread) (level : Int) (msg : Str) :
    Int × LogHost σ :=
  if level < 0 ∨ level > 6 then (-2, s)
  else s.writeLog lib thread (LogLevel.ofCode level) msg

/-! ## Calls -/

/-- A call of an application, on a thread of the host. The calls of the enclave have the status of
their crossing. -/
inductive LogCall where
  | init (thread : Thread) (loggerName logFile : Str) (logLevel : LogLevel) (appendConsole : Bool)
  | hostTraceId (thread : Thread) (traceId : Str)
  | enclaveTraceId (thread : Thread) (status : Nat) (traceId : Str)
  | hostLog (thread : Thread) (m : LogMessage)
  | enclaveLog (thread : Thread) (status : Nat) (m : LogMessage)

/-- `SetTraceId` of the enclave. -/
def enclaveSetTraceId (s : LogHost σ) (thread : Thread) (status : Nat) (traceId : Str) :
    Except Str Unit × LogHost σ :=
  if status ≠ 0 then
    (.error (str "Failed in ssgx_ocall_set_trace_id(trace_id) (error code: " ++ decimal status ++
      str ")"), s)
  else (.ok ⟨⟩, s.setTraceId lib thread (cStr traceId))

/-- `LogMessage::Finish` of the host, which does not look at the result of `WriteLog`. -/
def hostFinish (s : LogHost σ) (thread : Thread) (m : LogMessage) :
    Except Str Unit × LogHost σ :=
  (.ok ⟨⟩, (s.writeLog lib thread m.level (cStr m.logBuf)).2)

/-- `LogMessage::Finish` of the enclave. -/
def enclaveFinish (s : LogHost σ) (thread : Thread) (status : Nat) (m : LogMessage) :
    Except Str Unit × LogHost σ :=
  if status ≠ 0 then
    (.error (str "Failed in ssgx_ocall_write_log(level, msg) (error code: " ++ decimal status ++
      str ")"), s)
  else
    let (ret, s) := s.ssgxOcallWriteLog lib thread m.level.code (cStr m.logBuf)
    if ret ≠ 0 then (.error (str "SSGXLogger has not been initialized!"), s) else (.ok ⟨⟩, s)

/-- A call: its result, and the host behind it. -/
def LogCall.run (s : LogHost σ) : LogCall → Except Str Unit × LogHost σ
  | .init thread loggerName logFile logLevel appendConsole =>
      (.ok ⟨⟩, s.init lib thread loggerName logFile logLevel appendConsole)
  | .hostTraceId thread traceId => (.ok ⟨⟩, s.setTraceId lib thread traceId)
  | .enclaveTraceId thread status traceId => enclaveSetTraceId lib s thread status traceId
  | .hostLog thread m => hostFinish lib s thread m
  | .enclaveLog thread status m => enclaveFinish lib s thread status m

/-- The host after a call. -/
def logStep (s : LogHost σ) (call : LogCall) : LogHost σ := (call.run lib s).2

end Library

/-! ## What the calls before say -/

/-- The appenders that an `Init` gives to its logger. -/
def initAppenders (logFile : Str) (appendConsole : Bool) : List Appender :=
  .file logFile :: if appendConsole then [.console] else []

/-- The name and the level that a call gives to the messages behind it. -/
def LogCall.inits : LogCall → Option (Option (Str × LogLevel))
  | .init _ loggerName _ logLevel _ => some (some (loggerName, logLevel))
  | _ => none

/-- The appenders that a call gives to the logger of a name. -/
def LogCall.appends (name : Str) : LogCall → Option (List Appender)
  | .init _ loggerName logFile _ appendConsole =>
      if loggerName = name then some (initAppenders logFile appendConsole) else none
  | _ => none

/-- The trace id that a call gives to a thread. -/
def LogCall.traces (thread : Thread) : LogCall → Option (Option Str)
  | .init t _ _ _ _ => if t = thread then some (some (str "main")) else none
  | .hostTraceId t traceId => if t = thread then some (some traceId) else none
  | .enclaveTraceId t status traceId =>
      if status = 0 ∧ t = thread then some (some (cStr traceId)) else none
  | _ => none

/-- The name and the level of the last `Init`. -/
def lastInit (calls : List LogCall) : Option (Str × LogLevel) := lastGiven LogCall.inits none calls

/-- The appenders that the last `Init` of this name has given to its logger. -/
def lastAppenders (name : Str) (calls : List LogCall) : List Appender :=
  lastGiven (LogCall.appends name) [] calls

/-- The trace id that the thread was given last. -/
def lastTraceId (thread : Thread) (calls : List LogCall) : Option Str :=
  lastGiven (LogCall.traces thread) none calls

/-- The message that a call brings to the host. -/
def LogCall.message : LogCall → Option (Thread × LogLevel × Str)
  | .hostLog thread m => some (thread, m.level, cStr m.logBuf)
  | .enclaveLog thread status m =>
      if status = 0 then some (thread, m.level, cStr m.logBuf) else none
  | _ => none

section Reaches

variable (reaches : Str → List Str)

/-- **What a call writes**, by the calls before it: a message of a level other than `OFF` that the
last `Init` admits goes to each appender of the loggers that its name reaches, as the last `Init` of
each made them. -/
def recordsOf (before : List LogCall) (call : LogCall) : List Record :=
  match call.message, lastInit before with
  | some (thread, level, msg), some (name, own) =>
      if level ≠ .off ∧ own.Admits level then
        (reaches name).flatMap fun above => (lastAppenders above before).map fun appender =>
          ⟨appender, name, level, lastTraceId thread before, thread, msg⟩
      else []
  | _, _ => []

/-- What the calls write, behind calls before. -/
def recordsAfter : List LogCall → List LogCall → List Record
  | _, [] => []
  | before, call :: rest => recordsOf reaches before call ++ recordsAfter (before ++ [call]) rest

end Reaches

/-! ## The host behind its calls -/

section Library

variable {σ : Type} {lib : Log4cplus σ} {reaches : Str → List Str} {view : σ → LogView}

theorem mapLogLevel_eq (level : LogLevel) : mapLogLevel lib level = lib.level level := by
  cases level <;> rfl

/-- The name that the messages of a state go to. -/
def LogHost.current (s : LogHost σ) : Option Str :=
  if s.initialized then some s.loggerName else none

/-- `WriteLog` calls a macro, and changes nothing else. -/
theorem writeLog_eq (s : LogHost σ) (thread : Thread) (level : LogLevel) (msg : Str) :
    s.writeLog lib thread level msg =
      (if s.initialized then 0 else -1, { s with
        log := if s.initialized = true ∧ level ≠ .off then
          lib.fmt thread s.loggerName level msg s.log else s.log }) := by
  obtain ⟨log, loggerName, initialized⟩ := s
  cases initialized with
  | false => rfl
  | true =>
      cases level with
      | off => rfl
      | trace | debug | info | warn | error | fatal => rfl

/-- The number of a level is in the range that the ocall checks. -/
theorem ssgxOcallWriteLog_code (s : LogHost σ) (thread : Thread) (level : LogLevel) (msg : Str) :
    s.ssgxOcallWriteLog lib thread level.code msg = s.writeLog lib thread level msg := by
  have hrange : ¬ (level.code < 0 ∨ level.code > 6) := by
    cases level <;> decide
  rw [LogHost.ssgxOcallWriteLog, if_neg hrange, LogLevel.ofCode_code]

/-- A call that brings a message to the host is a `WriteLog` there. -/
theorem logStep_message {s : LogHost σ} {call : LogCall} {thread : Thread} {level : LogLevel}
    {msg : Str} (h : call.message = some (thread, level, msg)) :
    logStep lib s call = (s.writeLog lib thread level msg).2 := by
  cases call with
  | hostLog t m =>
      cases h
      rfl
  | enclaveLog t status m =>
      by_cases hstatus : status = 0
      · simp only [LogCall.message, if_pos hstatus, Option.some.injEq, Prod.mk.injEq] at h
        obtain ⟨rfl, rfl, rfl⟩ := h
        simp only [logStep, LogCall.run, enclaveFinish, hstatus, ne_eq, not_true_eq_false, if_false,
          ssgxOcallWriteLog_code]
        split <;> rfl
      · simp only [LogCall.message, if_neg hstatus] at h
        cases h
  | init | hostTraceId | enclaveTraceId => cases h

/-- What a call gives to the parts that the calls before speak of. -/
theorem lastGiven_snoc {α : Type} (gives : LogCall → Option α) (a : α) (calls : List LogCall)
    (call : LogCall) :
    lastGiven gives a (calls ++ [call]) = (gives call).getD (lastGiven gives a calls) :=
  runFrom_append a calls [call]

theorem recordsAfter_snoc (before rest : List LogCall) (call : LogCall) :
    recordsAfter reaches before (rest ++ [call]) =
      recordsAfter reaches before rest ++ recordsOf reaches (before ++ rest) call := by
  induction rest generalizing before with
  | nil =>
      simp only [List.nil_append, recordsAfter, List.append_nil]
  | cons first rest ih =>
      rw [List.cons_append, recordsAfter, ih, recordsAfter, List.append_assoc, List.append_assoc,
        List.singleton_append]

variable (lib reaches view) in
/-- The host is as the calls say. -/
structure LogHost.Agrees (s : LogHost σ) (calls : List LogCall) : Prop where
  current : s.current = (lastInit calls).map Prod.fst
  level : ∀ name own, lastInit calls = some (name, own) →
    ((view s.log).loggers name).logLevel = lib.level own
  appenders : ∀ name, ((view s.log).loggers name).appenders = lastAppenders name calls
  traceId : ∀ thread, (view s.log).traceId thread = lastTraceId thread calls
  output : (view s.log).output = recordsAfter reaches [] calls

/-- The logger of a name behind `SetLogger`, and the loggers of the other names. -/
theorem view_setLogger (hdoc : lib.Documented reaches view) (s : LogHost σ)
    (loggerName logFile : Str) (logLevel : Int) (appendConsole : Bool) :
    view (s.setLogger lib loggerName logFile logLevel appendConsole).log =
      (view s.log).onLogger loggerName
        fun _ => ⟨logLevel, initAppenders logFile appendConsole⟩ := by
  cases appendConsole with
  | false =>
      simp only [LogHost.setLogger, Bool.false_eq_true, if_false, hdoc.setLogLevel,
        hdoc.addAppender, hdoc.removeAllAppenders, LogView.onLogger, Function.update_self,
        Function.update_idem]
      rfl
  | true =>
      simp only [LogHost.setLogger, if_true, hdoc.setLogLevel, hdoc.addAppender,
        hdoc.removeAllAppenders, LogView.onLogger, Function.update_self, Function.update_idem]
      rfl

/-- A call that gives nothing and writes nothing keeps what agrees. -/
theorem LogHost.Agrees.same {s : LogHost σ} {calls : List LogCall} {call : LogCall}
    (h : s.Agrees lib reaches view calls) (hinits : call.inits = none)
    (happends : ∀ name, call.appends name = none) (htraces : ∀ thread, call.traces thread = none)
    (hmessage : call.message = none) : s.Agrees lib reaches view (calls ++ [call]) := by
  have hinit : lastInit (calls ++ [call]) = lastInit calls := by
    rw [lastInit, lastGiven_snoc, hinits, Option.getD_none, lastInit]
  refine ⟨?_, fun name own hlast => ?_, fun name => ?_, fun thread => ?_, ?_⟩
  · rw [hinit]
    exact h.current
  · rw [hinit] at hlast
    exact h.level name own hlast
  · rw [lastAppenders, lastGiven_snoc, happends, Option.getD_none]
    exact h.appenders name
  · rw [lastTraceId, lastGiven_snoc, htraces, Option.getD_none]
    exact h.traceId thread
  · rw [recordsAfter_snoc, recordsOf, hmessage, List.append_nil]
    exact h.output

/-- So does a call that gives a thread its trace id, and it gives no more. -/
theorem LogHost.Agrees.setTraceId (hdoc : lib.Documented reaches view) {s : LogHost σ}
    {calls : List LogCall} {call : LogCall} {t : Thread} {traceId : Str}
    (h : s.Agrees lib reaches view calls) (hinits : call.inits = none)
    (happends : ∀ name, call.appends name = none)
    (htraces : ∀ thread, call.traces thread = if t = thread then some (some traceId) else none)
    (hmessage : call.message = none) :
    (s.setTraceId lib t traceId).Agrees lib reaches view (calls ++ [call]) := by
  have hinit : lastInit (calls ++ [call]) = lastInit calls := by
    rw [lastInit, lastGiven_snoc, hinits, Option.getD_none, lastInit]
  have hview := hdoc.putTraceId t traceId s.log
  refine ⟨?_, fun name own hlast => ?_, fun name => ?_, fun thread => ?_, ?_⟩
  · rw [hinit]
    exact h.current
  · rw [hinit] at hlast
    rw [LogHost.setTraceId, hview]
    exact h.level name own hlast
  · rw [lastAppenders, lastGiven_snoc, happends, Option.getD_none, LogHost.setTraceId, hview]
    exact h.appenders name
  · rw [lastTraceId, lastGiven_snoc, htraces, LogHost.setTraceId, hview]
    by_cases hthread : t = thread
    · subst hthread
      rw [if_pos rfl, Option.getD_some]
      exact Function.update_self ..
    · rw [if_neg hthread, Option.getD_none, ← lastTraceId, ← h.traceId]
      exact Function.update_of_ne (Ne.symm hthread) _ _
  · rw [recordsAfter_snoc, recordsOf, hmessage, List.append_nil, LogHost.setTraceId, hview]
    exact h.output

/-- A message is written where the last `Init` admits it. -/
theorem LogHost.Agrees.message (hdoc : lib.Documented reaches view) {s : LogHost σ}
    {calls : List LogCall} {call : LogCall} {thread : Thread} {level : LogLevel} {msg : Str}
    (h : s.Agrees lib reaches view calls) (hinits : call.inits = none)
    (happends : ∀ name, call.appends name = none) (htraces : ∀ thread, call.traces thread = none)
    (hmessage : call.message = some (thread, level, msg)) :
    (logStep lib s call).Agrees lib reaches view (calls ++ [call]) := by
  have hinit : lastInit (calls ++ [call]) = lastInit calls := by
    rw [lastInit, lastGiven_snoc, hinits, Option.getD_none, lastInit]
  have hview : view (logStep lib s call).log =
      { view s.log with output := (view s.log).output ++ recordsOf reaches calls call } := by
    rw [logStep_message hmessage, writeLog_eq, recordsOf, hmessage]
    obtain ⟨log, loggerName, initialized⟩ := s
    have hcurrent := h.current
    rcases hlast : lastInit calls with - | ⟨name, own⟩
    · rw [hlast] at hcurrent
      cases initialized with
      | true => cases hcurrent
      | false => simp
    · rw [hlast] at hcurrent
      cases initialized with
      | false => cases hcurrent
      | true =>
          obtain rfl : loggerName = name := Option.some.inj hcurrent
          have hown := h.level loggerName own hlast
          by_cases hoff : level = .off
          · simp [hoff]
          · simp only [hoff, ne_eq, not_false_eq_true, and_self, if_true, true_and,
              hdoc.fmt thread loggerName own level msg log hown, LogView.records, h.appenders,
              h.traceId]
  refine ⟨?_, fun name own hlast => ?_, fun name => ?_, fun thread => ?_, ?_⟩
  · rw [hinit, logStep_message hmessage, writeLog_eq]
    exact h.current
  · rw [hinit] at hlast
    rw [hview]
    exact h.level name own hlast
  · rw [lastAppenders, lastGiven_snoc, happends, Option.getD_none, hview]
    exact h.appenders name
  · rw [lastTraceId, lastGiven_snoc, htraces, Option.getD_none, hview]
    exact h.traceId thread
  · rw [recordsAfter_snoc, hview, h.output, List.nil_append]

/-- An `Init` gives a logger its level and its appenders, and the messages behind it their name. -/
theorem LogHost.Agrees.init (hdoc : lib.Documented reaches view) {s : LogHost σ}
    {calls : List LogCall} (h : s.Agrees lib reaches view calls) (t : Thread)
    (loggerName logFile : Str) (logLevel : LogLevel) (appendConsole : Bool) :
    (s.init lib t loggerName logFile logLevel appendConsole).Agrees lib reaches view
      (calls ++ [.init t loggerName logFile logLevel appendConsole]) := by
  have hinit : lastInit (calls ++ [.init t loggerName logFile logLevel appendConsole]) =
      some (loggerName, logLevel) := by
    rw [lastInit, lastGiven_snoc]
    rfl
  have hview : view (s.init lib t loggerName logFile logLevel appendConsole).log =
      { (view s.log).onLogger loggerName
          fun _ => ⟨lib.level logLevel, initAppenders logFile appendConsole⟩ with
        traceId := Function.update (view s.log).traceId t (some (str "main")) } := by
    simp only [LogHost.init, LogHost.setTraceId, hdoc.putTraceId, view_setLogger hdoc,
      mapLogLevel_eq]
    rfl
  refine ⟨?_, fun name own hlast => ?_, fun name => ?_, fun thread => ?_, ?_⟩
  · rw [hinit]
    rfl
  · rw [hinit] at hlast
    cases hlast
    rw [hview]
    simp only [LogView.onLogger, Function.update_self]
  · rw [lastAppenders, lastGiven_snoc, hview, LogCall.appends]
    by_cases hname : loggerName = name
    · subst hname
      simp only [LogView.onLogger, Function.update_self, if_true, Option.getD_some]
    · rw [if_neg hname, Option.getD_none, ← lastAppenders, ← h.appenders]
      simp only [LogView.onLogger, Function.update_of_ne (Ne.symm hname)]
  · rw [lastTraceId, lastGiven_snoc, hview, LogCall.traces]
    by_cases hthread : t = thread
    · subst hthread
      simp only [Function.update_self, if_true, Option.getD_some]
    · rw [if_neg hthread, Option.getD_none, ← lastTraceId, ← h.traceId]
      exact Function.update_of_ne (Ne.symm hthread) _ _
  · rw [recordsAfter_snoc, hview]
    simp only [recordsOf, LogCall.message, List.append_nil]
    exact h.output

/-- **One call keeps the host as the calls say.** -/
theorem agrees_step (hdoc : lib.Documented reaches view) {s : LogHost σ} {calls : List LogCall}
    (call : LogCall) (h : s.Agrees lib reaches view calls) :
    (logStep lib s call).Agrees lib reaches view (calls ++ [call]) := by
  cases call with
  | init t loggerName logFile logLevel appendConsole => exact h.init hdoc t _ _ _ _
  | hostTraceId t traceId => exact h.setTraceId hdoc rfl (fun _ => rfl) (fun _ => rfl) rfl
  | enclaveTraceId t status traceId =>
      by_cases hstatus : status = 0
      · subst hstatus
        refine h.setTraceId hdoc rfl (fun _ => rfl) (fun thread => ?_) rfl
        simp only [LogCall.traces, true_and]
      -- the crossing failed, and the host was not called
      · have hsame : logStep lib s (.enclaveTraceId t status traceId) = s := by
          simp only [logStep, LogCall.run, enclaveSetTraceId, if_pos hstatus]
        rw [hsame]
        exact h.same rfl (fun _ => rfl) (fun _ => if_neg fun hand => hstatus hand.1) rfl
  | hostLog t m => exact h.message hdoc rfl (fun _ => rfl) (fun _ => rfl) rfl
  | enclaveLog t status m =>
      by_cases hstatus : status = 0
      · exact h.message hdoc rfl (fun _ => rfl) (fun _ => rfl) (if_pos hstatus)
      · have hsame : logStep lib s (.enclaveLog t status m) = s := by
          simp only [logStep, LogCall.run, enclaveFinish, if_pos hstatus]
        rw [hsame]
        exact h.same rfl (fun _ => rfl) (fun _ => rfl) (if_neg hstatus)

/-- The host behind any calls is as they say. -/
theorem agrees_run (hdoc : lib.Documented reaches view) (calls : List LogCall) :
    (runFrom (logStep lib) (.start lib) calls).Agrees lib reaches view calls := by
  induction calls using List.reverseRecOn with
  | nil =>
      obtain ⟨happenders, htraceId, houtput⟩ := hdoc.start
      refine ⟨rfl, fun name own hlast => ?_, happenders, htraceId, houtput⟩
      cases hlast
  | append_singleton calls call ih =>
      rw [runFrom_append]
      exact agrees_step hdoc call ih

/-- **What has been written.** Behind any calls of any threads, of the enclave and the host, the
appenders have been given what the calls say, in the order of the calls, and nothing else. -/
theorem output_eq (hdoc : lib.Documented reaches view) (calls : List LogCall) :
    (view (runFrom (logStep lib) (.start lib) calls).log).output = recordsAfter reaches [] calls :=
  (agrees_run hdoc calls).output

end Library

/-- A log4cplus that is what can be seen of it. A new logger has no level of its own. -/
def Log4cplus.plain : Log4cplus LogView where
  level := LogLevel.code
  start := ⟨fun _ => ⟨-1, []⟩, fun _ => none, []⟩
  removeAllAppenders name v := v.onLogger name fun logger => { logger with appenders := [] }
  addAppender name appender v :=
    v.onLogger name fun logger => { logger with appenders := logger.appenders ++ [appender] }
  setLogLevel name logLevel v := v.onLogger name fun logger => { logger with logLevel := logLevel }
  putTraceId thread traceId v :=
    { v with traceId := Function.update v.traceId thread (some traceId) }
  fmt thread name level msg v :=
    { v with output := v.output ++ if (v.loggers name).logLevel ≤ level.code then
        v.records [name, []] thread name level msg else [] }

theorem Log4cplus.plain_documented :
    Log4cplus.plain.Documented (fun name => [name, []]) id where
  reaches_self _ := List.mem_cons_self
  start := ⟨fun _ => rfl, fun _ => rfl, rfl⟩
  removeAllAppenders _ _ := rfl
  addAppender _ _ _ := rfl
  setLogLevel _ _ _ := rfl
  putTraceId _ _ _ := rfl
  fmt thread name own level msg s hown := by
    have hlevel : (s.loggers name).logLevel = own.code := hown
    simp only [plain, id]
    rw [hlevel]
    rfl

/-- A message of the host before `Init`, and messages of the enclave behind it: with a text that has
a NUL in it, and below the level. -/
def sampleCalls : List LogCall :=
  [.hostLog 1 (.make .error (str "main.cpp") 7 (str "main") [.text (str "early")]),
    .init 1 (str "App") (str "app.log") .info true,
    .enclaveTraceId 2 0 (str "req-1"),
    .enclaveLog 2 0 (.make .warn (str "Enclave.cpp") 42 (str "Run")
      [.text (str "n = "), .number (-3), .char '\x00', .text (str "lost")]),
    .enclaveLog 2 0 (.make .debug (str "Enclave.cpp") 43 (str "Run") [])]

theorem output_eq_sample :
    (runFrom (logStep .plain) (.start .plain) sampleCalls).log.output =
      [.file (str "app.log"), .console].map fun appender =>
        ⟨appender, str "App", .warn, some (str "req-1"), 2,
          str "[Enclave.cpp(42)]Run:n = -3"⟩ := by
  have hwritten : recordsAfter (fun name => [name, []]) [] sampleCalls =
      [.file (str "app.log"), .console].map fun appender =>
        ⟨appender, str "App", .warn, some (str "req-1"), 2, str "[Enclave.cpp(42)]Run:n = -3"⟩ := by
    decide +kernel
  exact (output_eq Log4cplus.plain_documented sampleCalls).trans hwritten

/-! ## Lost messages -/

section Library

variable {σ : Type} {lib : Log4cplus σ} {reaches : Str → List Str} {view : σ → LogView}

/-- The result of a message of the enclave. -/
theorem enclaveFinish_ok_iff (s : LogHost σ) (thread : Thread) (status : Nat) (m : LogMessage) :
    (enclaveFinish lib s thread status m).1 = .ok () ↔ status = 0 ∧ s.current ≠ none := by
  by_cases hstatus : status = 0
  · simp only [enclaveFinish, hstatus, ne_eq, not_true_eq_false, if_false,
      ssgxOcallWriteLog_code, writeLog_eq, LogHost.current]
    cases s.initialized with
    | false => simp
    | true => simp
  · rw [enclaveFinish, if_pos hstatus]
    exact iff_of_false (by simp) (fun h => hstatus h.1)

/-- What a call writes stays, whatever calls follow. -/
theorem mem_recordsAfter {before after : List LogCall} {call : LogCall} {record : Record}
    (h : record ∈ recordsOf reaches before call) :
    record ∈ recordsAfter reaches [] (before ++ call :: after) := by
  induction after using List.reverseRecOn with
  | nil =>
      rw [recordsAfter_snoc, List.nil_append]
      exact List.mem_append_right _ h
  | append_singleton after last ih =>
      rw [← List.cons_append, ← List.append_assoc, recordsAfter_snoc]
      exact List.mem_append_left _ ih

/-- **No admitted message of the enclave is lost in silence.** Among any calls, a message of the
enclave is finished without an exception exactly where its crossing works and there was an `Init`;
if its level is not `OFF` and the last `Init` admits it, it is then in the output, with every
appender of the logger of that name. -/
theorem enclave_message_kept (hdoc : lib.Documented reaches view) (before after : List LogCall)
    (thread : Thread) (status : Nat) (m : LogMessage) :
    ((enclaveFinish lib (runFrom (logStep lib) (.start lib) before) thread status m).1 = .ok () ↔
        status = 0 ∧ lastInit before ≠ none) ∧
      ∀ name own, lastInit before = some (name, own) → status = 0 → m.level ≠ .off →
        own.Admits m.level → ∀ appender ∈ lastAppenders name before,
          ⟨appender, name, m.level, lastTraceId thread before, thread, cStr m.logBuf⟩ ∈
            (view (runFrom (logStep lib) (.start lib)
              (before ++ .enclaveLog thread status m :: after)).log).output := by
  refine ⟨?_, ?_⟩
  · rw [enclaveFinish_ok_iff, (agrees_run hdoc before).current, ne_eq, Option.map_eq_none_iff]
  · intro name own hname hstatus hlevel hadmits appender happender
    rw [(agrees_run hdoc _).output]
    apply mem_recordsAfter
    have hmessage : (LogCall.enclaveLog thread status m).message =
        some (thread, m.level, cStr m.logBuf) := if_pos hstatus
    rw [recordsOf, hmessage, hname]
    simp only [if_pos (And.intro hlevel hadmits), List.mem_flatMap, List.mem_map]
    exact ⟨name, hdoc.reaches_self name, appender, happender, rfl⟩

end Library

theorem enclave_message_kept_sample :
    (enclaveFinish .plain (runFrom (logStep .plain) (.start .plain) (sampleCalls.take 3)) 2 0
        (.make .warn (str "Enclave.cpp") 42 (str "Run") [.number (-3)])).1 = .ok () ∧
      ⟨.console, str "App", .warn, some (str "req-1"), 2, str "[Enclave.cpp(42)]Run:-3"⟩ ∈
        (runFrom (logStep .plain) (.start .plain) (sampleCalls.take 3 ++
          .enclaveLog 2 0 (.make .warn (str "Enclave.cpp") 42 (str "Run") [.number (-3)]) ::
            sampleCalls.drop 3)).log.output := by
  obtain ⟨hfinish, hkept⟩ := enclave_message_kept Log4cplus.plain_documented (sampleCalls.take 3)
    (sampleCalls.drop 3) 2 0 (.make .warn (str "Enclave.cpp") 42 (str "Run") [.number (-3)])
  refine ⟨hfinish.2 ⟨rfl, by decide +kernel⟩, ?_⟩
  have hconsole : Appender.console ∈ lastAppenders (str "App") (sampleCalls.take 3) := by
    decide +kernel
  have htrace : lastTraceId 2 (sampleCalls.take 3) = some (str "req-1") := by
    decide +kernel
  have htext : cStr (LogMessage.make .warn (str "Enclave.cpp") 42 (str "Run")
      [.number (-3)]).logBuf = str "[Enclave.cpp(42)]Run:-3" := by
    decide +kernel
  have hrecord := hkept (str "App") .info (by decide +kernel) rfl (by decide) (by decide) .console
    hconsole
  rw [htrace, htext] at hrecord
  exact hrecord

end Ssgx.Log
