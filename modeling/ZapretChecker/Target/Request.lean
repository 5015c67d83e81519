import ZapretChecker.Lib.Words
import ZapretChecker.Types

/-!
# The target

`parse_target_request` of `src/types.rs` and what it calls. `url::Url::parse` is a parameter: it is
code of another package, and `Url` holds the parts of its result that are read here.
-/

namespace ZapretChecker.Target

open Text

inductive TargetScheme
  | http
  | https
  deriving DecidableEq, Repr, Inhabited

structure TargetRequest where
  original : String
  scheme : TargetScheme
  host : String
  port : UInt16
  pathAndQuery : String
  protocol : ProbeProtocol
  deriving DecidableEq, Repr, Inhabited

inductive TargetError
  | bail (msg : String)
  /-- `url::ParseError` -/
  | url (msg : String)
  deriving DecidableEq, Repr

/-- A parsed `url::Url`. -/
structure Url where
  scheme : String
  hostStr : Option String
  /-- `None` for the default port of the scheme -/
  port : Option UInt16
  path : String
  query : Option String
  deriving DecidableEq, Repr, Inhabited

/-! ## Host mode -/

def parseHostPort (port : String) : Except TargetError UInt16 :=
  match parseUnsigned 65535 port.toList with
  | some n => .ok (UInt16.ofNat n)
  | none => .error (.bail s!"invalid host port: {port}")

def splitAuthorityHostPort (authority : String) :
    Except TargetError (String × Option UInt16) := do
  if authority = "" then
    .error (.bail "--host must include host")
  else match stripPrefix authority "[" with
    | some rest =>
      match splitOnce rest ']' with
      | none => .error (.bail "invalid bracketed IPv6 host")
      | some (host, tail) =>
        if tail = "" then .ok (host, none)
        else match stripPrefix tail ":" with
          | some port => return (host, some (← parseHostPort port))
          | none => .error (.bail "invalid bracketed IPv6 host")
    | none =>
      match rsplitOnce authority ':' with
      | some (host, port) =>
        if ':' ∉ host.toList ∧ port ≠ "" ∧ port.toList.all Char.isDigit then
          return (host, some (← parseHostPort port))
        else .ok (authority, none)
      | none => .ok (authority, none)

/-- `input[..split_at]`, up to the first slash or question mark -/
def authorityOf (input : String) : String :=
  String.ofList (input.toList.takeWhile fun c => c ≠ '/' ∧ c ≠ '?')

def splitHostPath (input : String) : Except TargetError (String × Option UInt16 × String) := do
  let (host, port) ← splitAuthorityHostPort (authorityOf input)
  if host = "" then .error (.bail "--host must include host")
  else
    let rest := String.ofList (input.toList.dropWhile fun c => c ≠ '/' ∧ c ≠ '?')
    let pathAndQuery :=
      if rest = "" then "/" else if startsWith rest "/" then rest else s!"/{rest}"
    .ok (host, port, pathAndQuery)

def quicNotImplemented {α : Type} : Except TargetError α :=
  .error (.bail "QUIC HTTP/3 probe is not implemented")

/-- Scheme and port of a protocol. -/
def hostScheme : ProbeProtocol → Except TargetError (TargetScheme × UInt16)
  | .httpPlain => .ok (.http, 80)
  | .tls12Http11 | .tls13Http11 => .ok (.https, 443)
  | .quicHttp3Future => quicNotImplemented

/-! ## URL mode -/

def normalizePath (path : String) : String := if path = "" then "/" else path

/-- Scheme, default port and protocol. -/
def urlProtocol (scheme : String) (selectedProtocol : ProbeProtocol)
    (explicitProtocolFromCli : Bool) :
    Except TargetError (TargetScheme × UInt16 × ProbeProtocol) :=
  match scheme with
  | "http" =>
    if explicitProtocolFromCli ∧ selectedProtocol ≠ .httpPlain then
      .error (.bail "--probe-protocol conflicts with http:// URL")
    else .ok (.http, 80, .httpPlain)
  | "https" =>
    match selectedProtocol with
    | .tls12Http11 | .tls13Http11 => .ok (.https, 443, selectedProtocol)
    | .httpPlain =>
      if explicitProtocolFromCli then
        .error (.bail "--probe-protocol conflicts with https:// URL")
      else .ok (.https, 443, .tls12Http11)
    | .quicHttp3Future => quicNotImplemented
  | other => .error (.bail s!"unsupported URL scheme: {other}")

def parseTargetRequest (parseUrl : String → Except String Url) (host url : Option String)
    (selectedProtocol : ProbeProtocol) (explicitProtocolFromCli : Bool) :
    Except TargetError TargetRequest :=
  match host, url with
  | some hostInput, none => do
    let (host, explicitPort, pathAndQuery) ← splitHostPath hostInput
    let (scheme, port) ← hostScheme selectedProtocol
    return {
      original := hostInput
      scheme := scheme
      host := host
      port := explicitPort.getD port
      pathAndQuery := pathAndQuery
      protocol := selectedProtocol }
  | none, some urlText => do
    let parsed ← (parseUrl urlText).mapError .url
    match parsed.hostStr with
    | none => .error (.bail "target URL must include host")
    | some host =>
      let (scheme, defaultPort, protocol) ← urlProtocol parsed.scheme selectedProtocol
        explicitProtocolFromCli
      let query := match parsed.query with
        | some query => "?" ++ query
        | none => ""
      return {
        original := urlText
        scheme := scheme
        host := host
        port := parsed.port.getD defaultPort
        pathAndQuery := normalizePath parsed.path ++ query
        protocol := protocol }
  | _, _ => .error (.bail "specify exactly one of --host or --url")

end ZapretChecker.Target
