import ZapretChecker.Probe.Native
import ZapretChecker.Worker.Lifecycle

/-!
# One worker task

`WorkerRuntime::run_worker_task` (`src/worker.rs`) with `ProcessNfqwsManager` (`src/nfqws.rs`), as a
function of what the machine answers. `ZapretChecker.Worker.Lifecycle` has the same calls as steps;
here is what they make of the result.
-/

namespace ZapretChecker.Worker

open Probe

/-! ## nfqws -/

inductive NfqwsError
  | startFailed (msg : String)
  | exitedEarly (msg : String)
  | stopFailed (msg : String)
  | io (msg : String)
  deriving DecidableEq, Repr

def NfqwsError.toText : NfqwsError → String
  | .startFailed msg => s!"start failed: {msg}"
  | .exitedEarly msg => s!"exited early: {msg}"
  | .stopFailed msg => s!"stop failed: {msg}"
  | .io msg => s!"io error: {msg}"

/-- What `ProcessNfqwsManager::start` is answered. -/
structure StartScript where
  spawn : Except String Unit
  /-- `try_wait` after the grace period: nothing, or the report on the exited child -/
  tryWait : Except String (Option String)

def nfqwsStart (script : StartScript) : Except NfqwsError Unit :=
  match script.spawn with
  | .error e => .error (.startFailed e)
  | .ok () =>
    match script.tryWait with
    | .error e => .error (.io e)
    | .ok (some report) => .error (.exitedEarly report)
    | .ok none => .ok ()

/-- What `ProcessNfqwsManager::stop` is answered. -/
structure StopScript where
  /-- `try_wait`: the exit status of a child that has exited by itself -/
  tryWait : Except String (Option Int)
  /-- `wait` after `kill -TERM`; nothing when the timeout passes first -/
  termWait : Option (Except String Int)
  startKill : Except String Unit
  /-- `wait` after `start_kill` -/
  killWait : Option (Except String Int)

def nfqwsStop (script : StopScript) : Except NfqwsError Unit :=
  match script.tryWait with
  | .error e => .error (.io e)
  | .ok (some _) => .ok ()
  | .ok none =>
    match script.termWait with
    | some (.ok _) => .ok ()
    | some (.error e) => .error (.stopFailed e)
    | none =>
      match script.startKill with
      | .error e => .error (.stopFailed e)
      | .ok () =>
        match script.killWait with
        | some (.ok _) => .ok ()
        | some (.error e) => .error (.stopFailed e)
        | none => .error (.stopFailed "kill timeout")

/-! ## The task -/

inductive ProbeError
  | socketCreate (msg : String)
  | bind (msg : String)
  | localAddr (msg : String)
  | socketMark (msg : String)
  deriving DecidableEq, Repr

def ProbeError.toText : ProbeError → String
  | .socketCreate msg => s!"socket create failed: {msg}"
  | .bind msg => s!"bind failed: {msg}"
  | .localAddr msg => s!"local_addr failed: {msg}"
  | .socketMark msg => s!"socket mark failed: {msg}"

structure WorkerRuntime where
  nativeProbe : NativeTcpTlsHttpProbe
  isolationMode : IsolationMode

/-- What the machine answers during one `run_worker_task`. -/
structure TaskScript where
  /-- socket creation, `bind` and `local_addr`: the port -/
  prepare : Except ProbeError UInt16
  start : StartScript
  /-- `install_worker_rule` -/
  install : Except String Unit
  setupMs : Nat
  /-- the total timeout passes before the probe is done -/
  totalTimeout : Bool
  probe : ProbeScript
  /-- `remove_worker_rule` -/
  remove : Except String Unit
  stop : StopScript
  /-- `total_start.elapsed()` when the result is built -/
  totalMs : Nat

def transportOf : ProbeProtocol → PreparedTransport
  | .quicHttp3Future => .quic
  | _ => .tcp

/-- `prepare_transport` and `prepare_transport_fwmark`: a marked TCP socket is not bound. -/
def prepareTransport (mode : IsolationMode) (protocol : ProbeProtocol)
    (bound : Except ProbeError UInt16) : Except ProbeError PreparedSocket :=
  match bound with
  | .error e => .error e
  | .ok port => .ok
    { transport := transportOf protocol
      assignedSourcePort :=
        if mode = .fwmark ∧ transportOf protocol = .tcp then 0 else port }

/-- The result when the total timeout passes first. -/
def totalTimeoutResult (task : ProbeTask) (qnum sourcePort : UInt16) (totalMs : Nat) :
    ProbeResult where
  strategyId := task.strategyId
  workerId := task.workerId
  qnum := some qnum
  assignedSourcePort := some sourcePort
  targetHost := task.targetHost
  targetIp := task.targetIp
  targetPort := task.targetPort
  protocol := task.protocol
  path := task.request.pathAndQuery
  method := task.request.method
  readMode := task.request.readMode
  setupMs := none
  connectMs := none
  tlsMs := none
  firstByteMs := none
  totalMs := totalMs
  outcome := .timeout
  httpStatus := none
  bytesRead := 0
  headerBytes := 0
  bodyBytes := 0
  totalBytes := 0
  transferLevel := .none
  dpiSuspicious := false
  failureKind := some .strategyFailure
  errorClass := some .readTimeout
  errorMessage := some "total timeout"

/-- `if result.error_class.is_none() { result.error_class = Some(cls) }` after a failed call. -/
def noteFailure {ε : Type} (call : Except ε Unit) (cls : ProbeErrorClass) (result : ProbeResult) :
    ProbeResult :=
  match call with
  | .ok () => result
  | .error _ => { result with errorClass := result.errorClass.or (some cls) }

/-- The end of `run_worker_task`: the probe has its result, the rule and the instance go. -/
def finishTask (perTaskRule : Bool) (qnum sourcePort : UInt16) (script : TaskScript)
    (result : ProbeResult) : ProbeResult :=
  let sourcePort :=
    if result.assignedSourcePort.getD 0 ≠ 0 then result.assignedSourcePort.getD sourcePort
    else sourcePort
  let result := { result with setupMs := some script.setupMs }
  let result :=
    if perTaskRule then noteFailure script.remove .firewallRemoveFailed result else result
  let result := noteFailure (nfqwsStop script.stop) .nfqwsStopFailed result
  { result with qnum := some qnum, assignedSourcePort := some sourcePort }

namespace WorkerRuntime

variable (runtime : WorkerRuntime)

/-- `per_task_rule` -/
def perTaskRule : Bool := runtime.isolationMode = .sourcePort

/-- What the probe comes to, under the total timeout. -/
def timedProbe (task : ProbeTask) (qnum : UInt16) (cancellation : Bool) (prepared : PreparedSocket)
    (script : TaskScript) : ProbeResult :=
  if script.totalTimeout then
    totalTimeoutResult task qnum prepared.assignedSourcePort script.totalMs
  else
    runtime.nativeProbe.probeWithPreparedSocket task
      { qnum := qnum, cancellation := cancellation, baseline := false } prepared script.probe

/-- `none` is the panic of an assignment without a mark in fwmark mode. -/
def runWorkerTask (task : ProbeTask) (assignment : WorkerAssignment) (cancellation : Bool)
    (script : TaskScript) : Option ProbeResult :=
  if runtime.isolationMode = .fwmark ∧ assignment.fwmark = none then none
  else
    let qnum := assignment.qnum
    let infrastructure (sourcePort : Option UInt16) (cls : ProbeErrorClass) (msg : String) :=
      ProbeResult.infrastructureFailure task (some qnum) sourcePort cls msg script.totalMs
    match prepareTransport runtime.isolationMode task.protocol script.prepare with
    | .error e => some (infrastructure none .bindFailed e.toText)
    | .ok prepared =>
      let sourcePort := prepared.assignedSourcePort
      match nfqwsStart script.start with
      | .error e => some (infrastructure (some sourcePort) .nfqwsStartFailed e.toText)
      | .ok () =>
        -- the result of the stop after a failed install is dropped
        match if runtime.perTaskRule then script.install else .ok () with
        | .error e => some (infrastructure (some sourcePort) .firewallInstallFailed e)
        | .ok () =>
          let result := runtime.timedProbe task qnum cancellation prepared script
          some (finishTask runtime.perTaskRule qnum sourcePort script result)

def runStrategyTask (task : StrategyTask) (assignment : WorkerAssignment) (cancellation : Bool)
    (script : TaskScript) : Option ProbeResult :=
  runtime.runWorkerTask (ProbeTask.fromStrategyTask task assignment.workerId) assignment
    cancellation script

end WorkerRuntime

/-- `should_update_strategy_score` (`src/pruning.rs`) -/
def shouldUpdateStrategyScore (result : ProbeResult) : Bool :=
  result.failureKind != some .infrastructureFailure

end ZapretChecker.Worker
