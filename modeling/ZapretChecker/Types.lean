import Mathlib.Data.Rat.Defs

/-!
# Data types of the checker

`src/types.rs`, `WorkerAssignment` of `src/worker.rs`, and the node types of `src/graph.rs`.

Ports and queue numbers are `UInt16`, firewall marks `UInt32`. Byte counts and milliseconds
(`usize`, `u64`) are `Nat`. The `f64` costs, risks and priors are exact rationals.
-/

namespace ZapretChecker

inductive IpAddr
  | v4 (bits : BitVec 32)
  | v6 (bits : BitVec 128)
  deriving DecidableEq, Repr

instance : Inhabited IpAddr := ⟨.v4 0⟩

inductive ProbeProtocol
  | httpPlain
  | tls12Http11
  | tls13Http11
  | quicHttp3Future
  deriving DecidableEq, Repr, Inhabited

def ProbeProtocol.defaultPort : ProbeProtocol → UInt16
  | .httpPlain => 80
  | .tls12Http11 | .tls13Http11 | .quicHttp3Future => 443

inductive HttpMethod
  | get
  | head
  deriving DecidableEq, Repr, Inhabited

def HttpMethod.asStr : HttpMethod → String
  | .get => "GET"
  | .head => "HEAD"

inductive ReadMode
  | headers
  | body
  | full
  deriving DecidableEq, Repr, Inhabited

structure ProbeTimeouts where
  connectMs : Nat
  tlsMs : Nat
  firstByteMs : Nat
  totalMs : Nat
  deriving DecidableEq, Repr, Inhabited

structure HttpRequestSpec where
  method : HttpMethod
  pathAndQuery : String
  userAgent : String
  readMode : ReadMode
  minBodyBytes : Nat
  dpiDetectionBytes : Nat
  verifyTransferBytes : Nat
  maxReadBytes : Nat
  deriving DecidableEq, Repr, Inhabited

structure StrategyProbeTarget where
  original : String
  host : String
  ip : IpAddr
  port : UInt16
  protocol : ProbeProtocol
  request : HttpRequestSpec
  deriving DecidableEq, Repr, Inhabited

inductive TransferLevel
  | none
  | connected
  | tlsHandshake
  | headers
  | body
  | verified
  deriving DecidableEq, Repr, Inhabited

structure StrategyTask where
  strategyId : String
  strategyArgs : List String
  targetHost : String
  targetIp : IpAddr
  targetPort : UInt16
  protocol : ProbeProtocol
  path : String
  request : HttpRequestSpec
  timeouts : ProbeTimeouts
  deriving DecidableEq, Repr, Inhabited

structure ProbeTask where
  strategyId : String
  workerId : Nat
  strategyArgs : List String
  targetHost : String
  targetIp : IpAddr
  targetPort : UInt16
  protocol : ProbeProtocol
  path : String
  request : HttpRequestSpec
  timeouts : ProbeTimeouts
  deriving DecidableEq, Repr, Inhabited

def ProbeTask.fromStrategyTask (task : StrategyTask) (workerId : Nat) : ProbeTask where
  strategyId := task.strategyId
  workerId := workerId
  strategyArgs := task.strategyArgs
  targetHost := task.targetHost
  targetIp := task.targetIp
  targetPort := task.targetPort
  protocol := task.protocol
  path := task.path
  request := task.request
  timeouts := task.timeouts

inductive FailureKind
  | strategyFailure
  | infrastructureFailure
  | targetFailure
  | cancelled
  deriving DecidableEq, Repr, Inhabited

inductive ProbeOutcome
  | success
  | timeout
  | tcpReset
  | tlsAlert
  | httpBlockPage
  | emptyResponse
  | dnsFailure
  | networkUnreachable
  | refused
  | cancelled
  | internalError
  | bodyTooSmall
  deriving DecidableEq, Repr, Inhabited

inductive ProbeErrorClass
  | socketCreateFailed
  | bindFailed
  | localAddrFailed
  | queueUnavailable
  | firewallInstallFailed
  | firewallRemoveFailed
  | nfqwsStartFailed
  | nfqwsExitedEarly
  | nfqwsStopFailed
  | connectTimeout
  | connectFailed
  | tlsTimeout
  | tlsFailed
  | firstByteTimeout
  | readTimeout
  | readFailed
  | invalidHttpResponse
  | curlFailed
  | processFailed
  | cancelled
  | internalError
  | bodyTooSmall
  deriving DecidableEq, Repr, Inhabited

structure ProbeResult where
  strategyId : String
  workerId : Nat
  qnum : Option UInt16
  assignedSourcePort : Option UInt16
  targetHost : String
  targetIp : IpAddr
  targetPort : UInt16
  protocol : ProbeProtocol
  path : String
  method : HttpMethod
  readMode : ReadMode
  setupMs : Option Nat
  connectMs : Option Nat
  tlsMs : Option Nat
  firstByteMs : Option Nat
  totalMs : Nat
  outcome : ProbeOutcome
  httpStatus : Option UInt16
  bytesRead : Nat
  headerBytes : Nat
  bodyBytes : Nat
  totalBytes : Nat
  transferLevel : TransferLevel
  dpiSuspicious : Bool
  failureKind : Option FailureKind
  errorClass : Option ProbeErrorClass
  errorMessage : Option String
  deriving DecidableEq, Repr, Inhabited

def ProbeResult.infrastructureFailure (task : ProbeTask) (qnum sourcePort : Option UInt16)
    (cls : ProbeErrorClass) (msg : String) (totalMs : Nat) : ProbeResult where
  strategyId := task.strategyId
  workerId := task.workerId
  qnum := qnum
  assignedSourcePort := sourcePort
  targetHost := task.targetHost
  targetIp := task.targetIp
  targetPort := task.targetPort
  protocol := task.protocol
  path := task.request.pathAndQuery
  method := task.request.method
  readMode := task.request.readMode
  setupMs := none
  connectMs := none
  tlsMs := none
  firstByteMs := none
  totalMs := totalMs
  outcome := .internalError
  httpStatus := none
  bytesRead := 0
  headerBytes := 0
  bodyBytes := 0
  totalBytes := 0
  transferLevel := .none
  dpiSuspicious := false
  failureKind := some .infrastructureFailure
  errorClass := some cls
  errorMessage := some msg

/-! ## Workers and strategies -/

structure WorkerAssignment where
  workerId : Nat
  qnum : UInt16
  fwmark : Option UInt32
  sourcePort : Option UInt16
  deriving DecidableEq, Repr, Inhabited

structure StrategyComponent where
  family : String
  actionId : String
  args : List String
  deriving DecidableEq, Repr, Inhabited

structure StrategyNode where
  id : String
  family : String
  actionId : String
  args : List String
  components : List StrategyComponent
  isCombined : Bool
  cost : Rat
  risk : Rat
  prior : Rat × Rat
  deriving DecidableEq, Repr, Inhabited

end ZapretChecker
