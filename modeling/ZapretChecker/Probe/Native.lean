import ZapretChecker.Probe.Http

/-!
# The native probe

`NativeTcpTlsHttpProbe::probe_with_prepared_socket` of `src/probe.rs` and what it calls. What the
network and the clock answer is a script; the probe is a function of it.

* A wait under `cancellable_timeout` ends with an answer, a timeout or a cancellation.
* A read puts at most as many bytes into the buffer as it asks for.
* When the script of the reads has run out, the peer has closed the connection.
* Memory is not modelled: `Vec::with_capacity(max_read_bytes)` for the read buffer, which panics
  beyond `isize::MAX`, is left out.
-/

namespace ZapretChecker.Probe

/-! ## What the environment answers -/

inductive ProbeWaitError
  | timeout
  | cancelled
  deriving DecidableEq, Repr

/-- How `cancellable_timeout` ends for a future that may fail. -/
abbrev Wait (α : Type) := Except ProbeWaitError (Except String α)

/-- One iteration of the read loop. -/
structure ReadStep where
  /-- `token.is_cancelled()` at the head of the iteration -/
  cancelled : Bool
  /-- `total_start.elapsed()` at the head of the iteration -/
  elapsedMs : Nat
  answer : Wait (List UInt8)

structure HttpScript where
  /-- `write_all` of the request -/
  write : String → Except String Unit
  firstRead : Wait (List UInt8)
  firstByteMs : Nat
  reads : List ReadStep

structure QuicScript where
  /-- `build_quic_client_config` -/
  config : Except String Unit
  /-- `endpoint.connect` -/
  connect : Except String Unit
  handshake : Wait Unit
  connectMs : Nat

structure ProbeScript where
  /-- the token is cancelled when the probe begins -/
  cancelledAtStart : Bool
  connect : Wait Unit
  connectMs : Nat
  /-- `local_addr` of the connected stream -/
  localPort : Option UInt16
  tls : Wait Unit
  tlsMs : Nat
  http : HttpScript
  quic : QuicScript
  /-- `total_start.elapsed()` when the result is built -/
  totalMs : Nat

structure ProbeContext where
  qnum : UInt16
  /-- there is a cancellation token -/
  cancellation : Bool
  baseline : Bool

inductive PreparedTransport
  | tcp
  | quic
  deriving DecidableEq, Repr

structure PreparedSocket where
  transport : PreparedTransport
  assignedSourcePort : UInt16

structure NativeTcpTlsHttpProbe where
  tlsConfigError : Option String
  /-- `ServerName::try_from` -/
  serverName : String → Except String Unit

/-! ## Results -/

def probeFailureKind (baseline : Bool) : FailureKind :=
  if baseline then .targetFailure else .strategyFailure

def failure (task : ProbeTask) (qnum sourcePort : UInt16) (outcome : ProbeOutcome)
    (kind : FailureKind) (cls : ProbeErrorClass) (msg : String) (totalMs : Nat)
    (connectMs tlsMs firstByteMs : Option Nat) (read : Option HttpResponseRead) (baseline : Bool) :
    ProbeResult :=
  let readState := read.getD { (default : HttpResponseRead) with firstByteMs := firstByteMs }
  { strategyId := task.strategyId
    workerId := task.workerId
    qnum := if baseline then none else some qnum
    assignedSourcePort := some sourcePort
    targetHost := task.targetHost
    targetIp := task.targetIp
    targetPort := task.targetPort
    protocol := task.protocol
    path := task.request.pathAndQuery
    method := task.request.method
    readMode := task.request.readMode
    setupMs := none
    connectMs := connectMs
    tlsMs := tlsMs
    firstByteMs := readState.firstByteMs.or firstByteMs
    totalMs := totalMs
    outcome := outcome
    httpStatus := readState.status
    bytesRead := readState.totalBytes
    headerBytes := readState.headerBytes
    bodyBytes := readState.bodyBytes
    totalBytes := readState.totalBytes
    transferLevel := computeTransferLevel connectMs tlsMs readState
      task.request.verifyTransferBytes (usesTls task.protocol)
    dpiSuspicious := computeDpiSuspicious readState.started readState.totalBytes
      task.request.dpiDetectionBytes outcome
    failureKind := some kind
    errorClass := some cls
    errorMessage := some msg }

def cancelledResult (task : ProbeTask) (qnum sourcePort : UInt16) (totalMs : Nat)
    (baseline : Bool) : ProbeResult :=
  failure task qnum sourcePort .cancelled .cancelled .cancelled "cancelled" totalMs none none none
    none baseline

def buildHttpProbeResult (task : ProbeTask) (ctx : ProbeContext) (sourcePort : UInt16)
    (totalMs : Nat) (connectMs tlsMs : Option Nat) (read : HttpResponseRead)
    (outcome : ProbeOutcome) (failureKind : Option FailureKind)
    (errorClass : Option ProbeErrorClass) (errorMessage : Option String) : ProbeResult where
  strategyId := task.strategyId
  workerId := task.workerId
  qnum := if ctx.baseline then none else some ctx.qnum
  assignedSourcePort := some sourcePort
  targetHost := task.targetHost
  targetIp := task.targetIp
  targetPort := task.targetPort
  protocol := task.protocol
  path := task.request.pathAndQuery
  method := task.request.method
  readMode := task.request.readMode
  setupMs := none
  connectMs := connectMs
  tlsMs := tlsMs
  firstByteMs := read.firstByteMs
  totalMs := totalMs
  outcome := outcome
  httpStatus := read.status
  bytesRead := read.totalBytes
  headerBytes := read.headerBytes
  bodyBytes := read.bodyBytes
  totalBytes := read.totalBytes
  transferLevel := computeTransferLevel connectMs tlsMs read task.request.verifyTransferBytes
    (usesTls task.protocol)
  dpiSuspicious := computeDpiSuspicious read.started read.totalBytes
    task.request.dpiDetectionBytes outcome
  failureKind := failureKind
  errorClass := errorClass
  errorMessage := errorMessage

/-! ## The request -/

def hostHeader (host : String) (port : UInt16) (protocol : ProbeProtocol) : String :=
  if port = protocol.defaultPort then host else s!"{host}:{port.toNat}"

def buildHttpRequest (task : ProbeTask) : String :=
  let path := if task.request.pathAndQuery.isEmpty then "/" else task.request.pathAndQuery
  s!"{task.request.method.asStr} {path} HTTP/1.1\r\nHost: " ++
    hostHeader task.targetHost task.targetPort task.protocol ++
    s!"\r\nUser-Agent: {task.request.userAgent}" ++
    "\r\nAccept: */*\r\nConnection: close\r\n\r\n"

/-! ## HTTP over a stream -/

/-- How the read loop ends. -/
inductive ReadEnd
  /-- the response is judged as it is -/
  | classify
  | timeout
  | reset (error : String)
  | cancelled
  deriving DecidableEq, Repr

def maxReadBytes (request : HttpRequestSpec) : Nat := max request.maxReadBytes 1

/-- The size of `chunk`. -/
def chunkSize : Nat := 4096

/-- The loop of `http_over_stream`, from a buffer. `read` is always the parsed buffer. -/
def readLoop (task : ProbeTask) (ctx : ProbeContext) (firstByteMs : Option Nat) :
    List UInt8 → List ReadStep → List UInt8 × ReadEnd
  | buf, [] => (buf, .classify)
  | buf, step :: rest =>
    let request := task.request
    let read := parseHttpResponseRead buf firstByteMs
    if httpReadCriteriaMet read request.method request.readMode request.minBodyBytes ∨
        maxReadBytes request ≤ buf.length then (buf, .classify)
    else if ctx.cancellation && step.cancelled then (buf, .cancelled)
    else if task.timeouts.totalMs ≤ step.elapsedMs then
      if httpTimeoutCanSucceed read request.method request.readMode request.minBodyBytes then
        (buf, .classify)
      else (buf, .timeout)
    else
      let readLen := min (maxReadBytes request - buf.length) chunkSize
      match step.answer with
      | .ok (.ok data) =>
        -- no bytes: the peer has closed the connection
        if data.take readLen = [] then (buf, .classify)
        else readLoop task ctx firstByteMs (buf ++ data.take readLen) rest
      | .ok (.error e) =>
        if httpReadCriteriaMet read request.method request.readMode request.minBodyBytes then
          (buf, .classify)
        else (buf, .reset e)
      | .error .timeout =>
        if httpTimeoutCanSucceed read request.method request.readMode request.minBodyBytes then
          (buf, .classify)
        else (buf, .timeout)
      | .error .cancelled => (buf, .cancelled)

def httpOverStream (task : ProbeTask) (ctx : ProbeContext) (sourcePort : UInt16)
    (script : HttpScript) (totalMs : Nat) (connectMs tlsMs : Option Nat) : ProbeResult :=
  let kind := probeFailureKind ctx.baseline
  let fail (outcome : ProbeOutcome) (cls : ProbeErrorClass) (msg : String) : ProbeResult :=
    failure task ctx.qnum sourcePort outcome kind cls msg totalMs connectMs tlsMs none none
      ctx.baseline
  let cancelled := cancelledResult task ctx.qnum sourcePort totalMs ctx.baseline
  match script.write (buildHttpRequest task) with
  | .error e => fail .emptyResponse .readFailed e
  | .ok () =>
    match script.firstRead with
    | .ok (.error e) => fail .tcpReset .readFailed e
    | .error .timeout => fail .timeout .firstByteTimeout "first byte timeout"
    | .error .cancelled => cancelled
    | .ok (.ok data) =>
      if data.take chunkSize = [] then fail .emptyResponse .readFailed "empty response"
      else
        let firstByteMs := some script.firstByteMs
        let buf := (data.take chunkSize).take (maxReadBytes task.request)
        let (buf, ending) := readLoop task ctx firstByteMs buf script.reads
        let read := parseHttpResponseRead buf firstByteMs
        match ending with
        | .cancelled => cancelled
        | .timeout =>
          failure task ctx.qnum sourcePort .timeout kind .readTimeout "read timeout" totalMs
            connectMs tlsMs firstByteMs (some read) ctx.baseline
        | .reset e =>
          failure task ctx.qnum sourcePort .tcpReset kind .readFailed e totalMs connectMs tlsMs
            firstByteMs (some read) ctx.baseline
        | .classify =>
          let (outcome, errorClass, errorMessage) := classifyHttpResponse read.status
            read.headersComplete read.bodyBytes task.request.method task.request.readMode
            task.request.minBodyBytes
          let failureKind := if outcome = .success then none else some kind
          buildHttpProbeResult task ctx sourcePort totalMs connectMs tlsMs read outcome failureKind
            errorClass errorMessage

/-! ## The transports -/

namespace NativeTcpTlsHttpProbe

variable (probe : NativeTcpTlsHttpProbe)

def httpsHttp11 (task : ProbeTask) (ctx : ProbeContext) (sourcePort : UInt16)
    (script : ProbeScript) (connectMs : Option Nat) : ProbeResult :=
  let fail (outcome : ProbeOutcome) (kind : FailureKind) (cls : ProbeErrorClass) (msg : String) :
      ProbeResult :=
    failure task ctx.qnum sourcePort outcome kind cls msg script.totalMs connectMs none none none
      ctx.baseline
  match probe.tlsConfigError with
  | some error => fail .internalError .infrastructureFailure .tlsFailed error
  | none =>
    match probe.serverName task.targetHost with
    | .error e => fail .tlsAlert .infrastructureFailure .tlsFailed e
    | .ok () =>
      let kind := probeFailureKind ctx.baseline
      match script.tls with
      | .ok (.ok ()) =>
        httpOverStream task ctx sourcePort script.http script.totalMs connectMs (some script.tlsMs)
      | .ok (.error e) => fail .tlsAlert kind .tlsFailed e
      | .error .timeout => fail .timeout kind .tlsTimeout "TLS timeout"
      | .error .cancelled => cancelledResult task ctx.qnum sourcePort script.totalMs ctx.baseline

/-- A completed QUIC handshake is no verdict: the transfer is not verified. -/
def quicProbe (task : ProbeTask) (ctx : ProbeContext) (sourcePort : UInt16) (script : QuicScript)
    (totalMs : Nat) : ProbeResult :=
  let fail (outcome : ProbeOutcome) (kind : FailureKind) (cls : ProbeErrorClass) (msg : String)
      (connectMs : Option Nat) : ProbeResult :=
    failure task ctx.qnum sourcePort outcome kind cls msg totalMs connectMs connectMs none none
      ctx.baseline
  let kind := probeFailureKind ctx.baseline
  match script.config with
  | .error e => fail .internalError .infrastructureFailure .tlsFailed e none
  | .ok () =>
    match script.connect with
    | .error e => fail .internalError .infrastructureFailure .connectFailed e none
    | .ok () =>
      match script.handshake with
      | .ok (.error e) => fail .tlsAlert kind .tlsFailed e none
      | .error .timeout => fail .timeout kind .connectTimeout "QUIC connect timeout" none
      | .error .cancelled => cancelledResult task ctx.qnum sourcePort totalMs ctx.baseline
      | .ok (.ok ()) =>
        fail .internalError .infrastructureFailure .internalError
          "QUIC probe does not verify HTTP transfer" (some script.connectMs)

def probeWithPreparedSocket (task : ProbeTask) (ctx : ProbeContext) (prepared : PreparedSocket)
    (script : ProbeScript) : ProbeResult :=
  let sourcePort := prepared.assignedSourcePort
  let kind := probeFailureKind ctx.baseline
  let fail (outcome : ProbeOutcome) (cls : ProbeErrorClass) (msg : String) : ProbeResult :=
    failure task ctx.qnum sourcePort outcome kind cls msg script.totalMs none none none none
      ctx.baseline
  if ctx.cancellation && script.cancelledAtStart then
    cancelledResult task ctx.qnum sourcePort script.totalMs ctx.baseline
  else match prepared.transport with
    | .quic => quicProbe task ctx sourcePort script.quic script.totalMs
    | .tcp =>
      match script.connect with
      | .ok (.error e) => fail .refused .connectFailed e
      | .error .timeout => fail .timeout .connectTimeout "connect timeout"
      | .error .cancelled => cancelledResult task ctx.qnum sourcePort script.totalMs ctx.baseline
      | .ok (.ok ()) =>
        let connectMs := some script.connectMs
        -- a marked socket is bound by `connect` only
        let sourcePort := if sourcePort = 0 then script.localPort.getD sourcePort else sourcePort
        match task.protocol with
        | .httpPlain =>
          httpOverStream task ctx sourcePort script.http script.totalMs connectMs none
        | .tls12Http11 | .tls13Http11 => probe.httpsHttp11 task ctx sourcePort script connectMs
        | .quicHttp3Future =>
          failure task ctx.qnum sourcePort .internalError .infrastructureFailure .internalError
            "QUIC probe reached TCP path unexpectedly" script.totalMs connectMs none none none
            ctx.baseline

end NativeTcpTlsHttpProbe

end ZapretChecker.Probe
