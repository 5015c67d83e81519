import ZapretChecker.Lib.Text
import ZapretChecker.Types

/-!
# HTTP responses

The functions of `src/probe.rs` that read a response and judge it: `parse_http_status`,
`parse_http_response_read`, `http_read_criteria_met`, `http_timeout_can_succeed`,
`classify_http_response`, `compute_transfer_level`, `compute_dpi_suspicious`.
-/

namespace ZapretChecker.Probe

open Text

/-! ## Parsing -/

def parseHttpStatus (bytes : List UInt8) : Except ProbeErrorClass UInt16 :=
  match decodeUtf8 bytes with
  | none => .error .invalidHttpResponse
  | some s =>
    match (lines s).head? with
    | none => .error .invalidHttpResponse
    | some line =>
      match splitWhitespace line with
      | [] => .error .invalidHttpResponse
      | proto :: parts =>
        if ¬"HTTP/".toList.isPrefixOf proto then .error .invalidHttpResponse
        else match parts with
          | [] => .error .invalidHttpResponse
          | code :: _ =>
            match parseUnsigned 65535 code with
            | some status => .ok (UInt16.ofNat status)
            | none => .error .invalidHttpResponse

structure HttpResponseRead where
  status : Option UInt16
  headerBytes : Nat
  bodyBytes : Nat
  totalBytes : Nat
  firstByteMs : Option Nat
  headersComplete : Bool
  deriving DecidableEq, Repr

/-- `Default::default()` -/
instance : Inhabited HttpResponseRead :=
  ⟨{ status := none, headerBytes := 0, bodyBytes := 0, totalBytes := 0, firstByteMs := none,
     headersComplete := false }⟩

def crlfCrlf : List UInt8 := [13, 10, 13, 10]

/-- `bytes.windows(4).position(|w| w == b"\r\n\r\n")` -/
def headersEnd : List UInt8 → Option Nat
  | [] => none
  | b :: bs =>
    if crlfCrlf.isPrefixOf (b :: bs) then some 0 else (headersEnd bs).map (· + 1)

def parseHttpResponseRead (bytes : List UInt8) (firstByteMs : Option Nat) : HttpResponseRead :=
  match headersEnd bytes with
  | some idx =>
    { status := (parseHttpStatus (bytes.take (idx + 4))).toOption
      headerBytes := idx + 4
      bodyBytes := bytes.length - (idx + 4)
      totalBytes := bytes.length
      firstByteMs := firstByteMs
      headersComplete := true }
  | none =>
    { status := none
      headerBytes := 0
      bodyBytes := 0
      totalBytes := bytes.length
      firstByteMs := firstByteMs
      headersComplete := false }

/-! ## Judging -/

def statusIsSuccess : Option UInt16 → Bool
  | some status => 200 ≤ status && status < 400
  | none => false

def isHttpBlockStatus (status : UInt16) : Bool := status == 403 || status == 451

def classifyHttpResponse (status : Option UInt16) (headersComplete : Bool) (bodyBytes : Nat)
    (method : HttpMethod) (readMode : ReadMode) (minBodyBytes : Nat) :
    ProbeOutcome × Option ProbeErrorClass × Option String :=
  if !headersComplete then
    (.emptyResponse, some .invalidHttpResponse, some "HTTP response headers incomplete")
  else match status with
    | none => (.emptyResponse, some .invalidHttpResponse, some "invalid HTTP response status")
    | some status =>
      if isHttpBlockStatus status then
        (.httpBlockPage, some .invalidHttpResponse, some "HTTP block page/status")
      else if !statusIsSuccess (some status) then
        (.emptyResponse, some .invalidHttpResponse,
          some s!"HTTP status {status.toNat} not in 2xx/3xx")
      else if method = .head ∨ readMode = .headers then (.success, none, none)
      else if minBodyBytes ≤ bodyBytes then (.success, none, none)
      else
        (.bodyTooSmall, some .bodyTooSmall,
          some s!"HTTP body too small: got {bodyBytes} bytes, need {minBodyBytes}")

def httpReadCriteriaMet (read : HttpResponseRead) (method : HttpMethod) (readMode : ReadMode)
    (minBodyBytes : Nat) : Bool :=
  if !read.headersComplete then false
  else if method = .head ∨ readMode = .headers then true
  else if read.status.any isHttpBlockStatus then true
  else if read.status.any fun status => !statusIsSuccess (some status) then true
  else match readMode with
    | .headers => true
    | .body => minBodyBytes ≤ read.bodyBytes
    | .full => false

def httpTimeoutCanSucceed (read : HttpResponseRead) (method : HttpMethod) (readMode : ReadMode)
    (minBodyBytes : Nat) : Bool :=
  if httpReadCriteriaMet read method readMode minBodyBytes then true
  else readMode == .full && read.headersComplete && statusIsSuccess read.status &&
    decide (minBodyBytes ≤ read.bodyBytes)

def usesTls : ProbeProtocol → Bool
  | .tls12Http11 | .tls13Http11 => true
  | _ => false

def computeTransferLevel (connectMs tlsMs : Option Nat) (read : HttpResponseRead)
    (verifyTransferBytes : Nat) (usesTls : Bool) : TransferLevel :=
  if connectMs.isNone then .none
  else if verifyTransferBytes ≤ read.bodyBytes then .verified
  else if 0 < read.bodyBytes then .body
  else if read.headersComplete then .headers
  else if usesTls && tlsMs.isSome then .tlsHandshake
  else .connected

def computeDpiSuspicious (responseStarted : Bool) (totalBytes dpiDetectionBytes : Nat)
    (outcome : ProbeOutcome) : Bool :=
  responseStarted && decide (totalBytes < dpiDetectionBytes) && outcome != .success

/-- The bytes have begun to arrive. -/
def HttpResponseRead.started (read : HttpResponseRead) : Bool :=
  read.firstByteMs.isSome || decide (0 < read.totalBytes)

/-- A response is a success only if its status is 2xx or 3xx and its headers are complete. -/
theorem classifyHttpResponse_success {status : Option UInt16} {headersComplete : Bool}
    {bodyBytes : Nat} {method : HttpMethod} {readMode : ReadMode} {minBodyBytes : Nat}
    (h : (classifyHttpResponse status headersComplete bodyBytes method readMode minBodyBytes).1 =
      .success) : headersComplete = true ∧ statusIsSuccess status = true := by
  unfold classifyHttpResponse at h
  split at h
  · simp at h
  · next hc =>
    split at h
    · simp at h
    · next status =>
      split at h
      · simp at h
      · split at h
        · simp at h
        · next hs => exact ⟨by simpa using hc, by simpa using hs⟩

example : parseHttpResponseRead (asciiBytes "HTTP/1.1 200 OK\r\n\r\nhello") (some 3) =
    { status := some 200, headerBytes := 19, bodyBytes := 5, totalBytes := 24, firstByteMs := some 3,
      headersComplete := true } := by decide +kernel

end ZapretChecker.Probe
