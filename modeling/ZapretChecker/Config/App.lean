import ZapretChecker.Graph.Config
import ZapretChecker.Isolation.Model

/-!
# The configuration

`AppConfig` of `src/config.rs` with its validation, and `request_from_config` of `src/main.rs`.

* The sections hold the fields that the validation or another modelled function reads.
* A path is a string: it comes out of a text file. A `BTreeMap` is the list of its entries in the
  order of the keys.
* `socketAddrPort` is `parse::<SocketAddr>` followed by `port`.
-/

namespace ZapretChecker.Config

open Checked ZapretChecker.Graph Isolation Worker

/-! ## Sections -/

structure WorkersConfig where
  count : Nat
  taskChannelSize : Nat := 1024
  resultChannelSize : Nat := 1024
  deriving DecidableEq, Repr, Inhabited

structure SourcePortConfig where
  mode : String
  deriving DecidableEq, Repr, Inhabited

structure ProtocolProbeConfig where
  http : Bool := true
  tls12 : Bool := true
  tls13 : Bool := false
  quic : Bool := false
  preferred : String := "tls12"
  deriving DecidableEq, Repr, Inhabited

structure DnsConfig where
  mode : String := "doh"
  dohAddr : String := "1.1.1.1:443"
  dohAddrs : List String := []
  dohHost : String := "cloudflare-dns.com"
  dohPath : String := "/dns-query"
  deriving DecidableEq, Repr, Inhabited

structure ProbeConfig where
  backend : String
  maxReadBytes : Nat := 65536
  userAgent : String :=
    "Mozilla/5.0 (Windows NT 10.0; Win64; x64; rv:150.0) Gecko/20100101 Firefox/150.0"
  method : String := "GET"
  readMode : String := "body"
  minBodyBytes : Nat := 1
  dpiDetectionBytes : Nat := 16384
  verifyTransferBytes : Nat := 32768
  testCount : Nat := 1
  protocols : ProtocolProbeConfig := {}
  dns : DnsConfig := {}
  deriving DecidableEq, Repr, Inhabited

structure FirewallConfig where
  backend : String
  table : String
  hook : String
  priority : String
  cleanupOnStart : Bool
  cleanupOnExit : Bool
  deriving DecidableEq, Repr, Inhabited

structure DebugConfig where
  keepRulesOnFailure : Bool
  deriving DecidableEq, Repr, Inhabited

structure StrategiesConfig where
  searchMode : String := "signal"
  deriving DecidableEq, Repr, Inhabited

structure BlobConfig where
  autoLoad : Bool := false
  baseDir : Option String := none
  deriving DecidableEq, Repr, Inhabited

structure PayloadProtocolConfig where
  builtin : List String := []
  files : List String := []
  aliases : List (String × String) := []
  deriving DecidableEq, Repr, Inhabited

structure PayloadConfig where
  maxPerProtocol : Nat := 8
  http : PayloadProtocolConfig := { builtin := ["fake_default_http"] }
  tls : PayloadProtocolConfig := { builtin := ["fake_default_tls"] }
  quic : PayloadProtocolConfig := { builtin := ["fake_default_quic"] }
  deriving DecidableEq, Repr, Inhabited

structure AppConfig where
  workers : WorkersConfig
  sourcePort : SourcePortConfig
  probe : ProbeConfig
  firewall : FirewallConfig
  debug : DebugConfig
  isolation : IsolationConfig := {}
  strategies : StrategiesConfig := {}
  blobs : BlobConfig := {}
  payloads : PayloadConfig := {}
  strategyValues : StrategyValuesConfig := { mode := "extend", http := [], tls := [], quic := [] }
  strategyCombinations : StrategyCombinationConfig :=
    { enabled := false, requireDifferentFamily := true, allowSameAction := false
      mode := "pairwise", allowed := [] }
  deriving DecidableEq, Repr, Inhabited

/-! ## Errors -/

inductive ConfigError
  /-- a text without a quoted value -/
  | bail (text : String)
  | isolation (error : IsolationError)
  | combinations (error : CombinationError)
  | aliasCharacters (payloadAlias : String)
  | aliasReserved (payloadAlias : String)
  | aliasDuplicated (payloadAlias existingProtocol protocol : String)
  deriving DecidableEq, Repr

/-- The text of the error. `debug` is the `Debug` format of a string. -/
def ConfigError.message (debug : String → String) : ConfigError → String
  | .bail text => text
  | .isolation error => error.message debug
  | .combinations error => error.message debug
  | .aliasCharacters a =>
    "payload alias " ++ debug a ++ " must contain only ASCII letters, digits or underscore"
  | .aliasReserved a =>
    "payload alias " ++ debug a ++ " conflicts with a builtin payload alias"
  | .aliasDuplicated a existingProtocol protocol =>
    "payload alias " ++ debug a ++ " is duplicated between " ++ existingProtocol ++ " and " ++
      protocol

/-! ## Values read from text -/

/-- `HttpMethod::parse_config` -/
def parseHttpMethod (s : String) : Except ConfigError HttpMethod :=
  match Text.toAsciiUppercase s with
  | "GET" => .ok .get
  | "HEAD" => .ok .head
  | _ => .error (.bail ("unsupported probe.method: " ++ s))

/-- `ReadMode::parse_config` -/
def parseReadMode (s : String) : Except ConfigError ReadMode :=
  match Text.toAsciiLowercase s with
  | "headers" => .ok .headers
  | "body" => .ok .body
  | "full" => .ok .full
  | _ => .error (.bail ("unsupported probe.read_mode: " ++ s))

def DnsConfig.effectiveDohAddrs (dns : DnsConfig) : List String :=
  if dns.dohAddrs.isEmpty then [dns.dohAddr] else dns.dohAddrs

/-- `Path::file_name`: the last component, unless it is `..`. -/
def fileName (path : String) : Option String :=
  match ((Text.split path '/').filter fun part => part ≠ "" ∧ part ≠ ".").getLast? with
  | some ".." => none
  | name => name

/-- `Path::file_stem`: the file name up to its last dot, unless that dot is its first character. -/
def fileStem (path : String) : Option String :=
  (fileName path).map fun name =>
    match name.toList.reverse.span (· ≠ '.') with
    | (_, _ :: c :: before) => String.ofList (c :: before).reverse
    | _ => name

/-! ## Checks of the sections -/

/-- Is the preferred protocol enabled? -/
def ProtocolProbeConfig.preferredEnabled (protocols : ProtocolProbeConfig) : Bool :=
  match protocols.preferred with
  | "http" => protocols.http
  | "tls12" => protocols.tls12
  | "tls13" => protocols.tls13
  | "quic" => protocols.quic
  | _ => false

/-- The largest worker id, as a `u32`. -/
def WorkersConfig.maxWorkerId (workers : WorkersConfig) : Nat := (workers.count - 1) % 2 ^ 32

def validateIsolation (build : Build) (cfg : AppConfig) : Checked ConfigError Unit := do
  let mode ← ofResult ((IsolationMode.parse cfg.isolation.mode).mapError .isolation)
  let _ ← ofResult ((parseHexMark cfg.isolation.markBase).mapError .isolation)
  let _ ← ofResult ((parseHexMark cfg.isolation.desyncMark).mapError .isolation)
  bailIf (cfg.isolation.markBase = cfg.isolation.desyncMark)
    (.bail "isolation.mark_base must differ from isolation.desync_mark")
  if mode = .fwmark then
    bailIf (cfg.isolation.useNftVmap = false)
      (.bail "isolation.use_nft_vmap must be true when isolation.mode=fwmark")
    bailIf (cfg.firewall.backend ≠ "nftables")
      (.bail "isolation.mode=fwmark requires firewall.backend=nftables")
    let markBase ← ofResult ((parseHexMark cfg.isolation.markBase).mapError .isolation)
    let offset ← ofOption (build.add (2 ^ 32) cfg.workers.maxWorkerId 1)
    let desyncMark ← ofResult ((parseHexMark cfg.isolation.desyncMark).mapError .isolation)
    bailIf (saturatingAdd (2 ^ 32) markBase.toNat offset = desyncMark.toNat)
      (.bail "worker fwmark range overlaps isolation.desync_mark")
  else
    pure ()

/-- The checks of one address of `effective_doh_addrs`. -/
def validateDohAddr (socketAddrPort : String → Option UInt16) (dohAddr : String) :
    Checked ConfigError Unit :=
  match socketAddrPort dohAddr with
  | none =>
    throw (.bail "probe.dns.doh_addr/doh_addrs must be IP socket addresses like 1.1.1.1:443")
  | some port => bailIf (port ≠ 443) (.bail "probe.dns.doh_addr/doh_addrs must use port 443")

def validatePayloadAlias (payloadAlias : String) : Checked ConfigError Unit := do
  bailIf (payloadAlias = "") (.bail "payload alias must not be empty")
  bailIf (payloadAlias.toList.any fun c => !(c.isAlphanum || c = '_'))
    (.aliasCharacters payloadAlias)

def validatePayloadAliasReserved (payloadAlias : String) : Checked ConfigError Unit :=
  bailIf (payloadAlias ∈ ["fake_default_http", "fake_default_tls", "fake_default_quic"])
    (.aliasReserved payloadAlias)

def payloadFileAlias (file : String) : Except ConfigError String :=
  match fileStem file with
  | some stem => .ok stem
  | none => .error (.bail "payload file must have a valid UTF-8 file name")

/-- The aliases seen so far, each with its protocol. -/
abbrev SeenAliases := List (String × String)

/-- The checks of one alias, and its entry into the map. -/
def validateAlias (protocol : String) (seen : SeenAliases) (payloadAlias : String) :
    Checked ConfigError SeenAliases := do
  validatePayloadAlias payloadAlias
  validatePayloadAliasReserved payloadAlias
  match seen.lookup payloadAlias with
  | some existingProtocol => throw (.aliasDuplicated payloadAlias existingProtocol protocol)
  | none => pure ((payloadAlias, protocol) :: seen)

def validatePayloadProtocolAliases (protocol : String) (config : PayloadProtocolConfig)
    (seen : SeenAliases) : Checked ConfigError SeenAliases := do
  let seen ← (config.aliases.map Prod.fst).foldlM (validateAlias protocol) seen
  config.files.foldlM
    (fun seen file => do validateAlias protocol seen (← ofResult (payloadFileAlias file))) seen

def validatePayloadProtocolFileLimit (maxPerProtocol : Nat) (protocol : String)
    (config : PayloadProtocolConfig) : Checked ConfigError Unit :=
  let filePayloadCount := config.files.length + config.aliases.length
  bailIf (filePayloadCount > maxPerProtocol)
    (.bail ("payloads." ++ protocol ++ " has " ++ toString filePayloadCount ++
      " file payloads, but payloads.max_per_protocol is " ++ toString maxPerProtocol))

def validatePayloads (cfg : AppConfig) : Checked ConfigError Unit := do
  bailIf (cfg.payloads.maxPerProtocol = 0)
    (.bail "payloads.max_per_protocol must be greater than zero")
  bailIf (cfg.blobs.autoLoad ∧ cfg.blobs.baseDir = none)
    (.bail "blobs.base_dir is required when blobs.auto_load=true")
  let seen ← validatePayloadProtocolAliases "http" cfg.payloads.http []
  let seen ← validatePayloadProtocolAliases "tls" cfg.payloads.tls seen
  let _ ← validatePayloadProtocolAliases "quic" cfg.payloads.quic seen
  validatePayloadProtocolFileLimit cfg.payloads.maxPerProtocol "http" cfg.payloads.http
  validatePayloadProtocolFileLimit cfg.payloads.maxPerProtocol "tls" cfg.payloads.tls
  validatePayloadProtocolFileLimit cfg.payloads.maxPerProtocol "quic" cfg.payloads.quic

/-- The checks of one parameter of `strategy_values`. -/
def validateStrategyValue (protocol : String) (entry : String × List String) :
    Checked ConfigError Unit := do
  bailIf (entry.1 = "")
    (.bail ("strategy_values." ++ protocol ++ " parameter name must not be empty"))
  match entry.2.findIdx? String.isEmpty with
  | some index =>
    throw (.bail ("strategy_values." ++ protocol ++ "." ++ entry.1 ++ "[" ++ toString index ++
      "] must not be an empty string"))
  | none => pure ()

def validateStrategyValueMap (protocol : String) (values : List (String × List String)) :
    Checked ConfigError Unit := forM values (validateStrategyValue protocol)

def validateStrategyValues (config : StrategyValuesConfig) : Checked ConfigError Unit := do
  bailIf (config.mode ∉ ["extend", "override"])
    (.bail "strategy_values.mode must be extend or override")
  validateStrategyValueMap "http" config.http
  validateStrategyValueMap "tls" config.tls
  validateStrategyValueMap "quic" config.quic

/-! ## The whole -/

/-- `AppConfig::validate` -/
def AppConfig.validate (build : Build) (socketAddrPort : String → Option UInt16)
    (cfg : AppConfig) : Checked ConfigError Unit := do
  let protocols := cfg.probe.protocols
  bailIf (protocols.preferred ∉ ["http", "tls12", "tls13", "quic"])
    (.bail "probe.protocols.preferred must be http, tls12, tls13 or quic")
  bailIf (!protocols.http && !protocols.tls12 && !protocols.tls13 && !protocols.quic)
    (.bail "at least one protocol probe must be enabled")
  bailIf (protocols.preferredEnabled = false)
    (.bail "probe.protocols.preferred is disabled in probe.protocols")
  bailIf (cfg.workers.count = 0) (.bail "workers.count must be greater than zero")
  bailIf (cfg.workers.taskChannelSize = 0)
    (.bail "workers.task_channel_size must be greater than zero")
  bailIf (cfg.workers.resultChannelSize = 0)
    (.bail "workers.result_channel_size must be greater than zero")
  let maxQnum ← ofOption
    (build.add (2 ^ 32) cfg.isolation.queueBase.toNat cfg.workers.maxWorkerId)
  bailIf (maxQnum > 65535)
    (.bail ("isolation.queue_base (" ++ toString cfg.isolation.queueBase.toNat ++
      ") + workers.count - 1 overflows u16 qnum space"))
  validateIsolation build cfg
  bailIf (cfg.sourcePort.mode ≠ "os_assigned") (.bail "source_port.mode must be os_assigned")
  bailIf (cfg.probe.backend ∉ ["native", "curl"])
    (.bail "probe.backend must be native or curl")
  let _ ← ofResult (parseHttpMethod cfg.probe.method)
  let _ ← ofResult (parseReadMode cfg.probe.readMode)
  bailIf (cfg.probe.minBodyBytes > cfg.probe.maxReadBytes)
    (.bail "probe.min_body_bytes must be less than or equal to probe.max_read_bytes")
  bailIf (cfg.probe.testCount = 0) (.bail "probe.test_count must be greater than zero")
  bailIf (cfg.probe.dns.mode ≠ "doh") (.bail "probe.dns.mode must be doh")
  bailIf (cfg.probe.dns.effectiveDohAddrs = [])
    (.bail "probe.dns.doh_addr or probe.dns.doh_addrs must not be empty")
  forM cfg.probe.dns.effectiveDohAddrs (validateDohAddr socketAddrPort)
  bailIf (cfg.probe.dns.dohHost = "" ∨ ':' ∈ cfg.probe.dns.dohHost.toList ∨
      '/' ∈ cfg.probe.dns.dohHost.toList)
    (.bail "probe.dns.doh_host must be a DNS host name without port or path")
  bailIf (cfg.probe.dns.dohPath.toList.head? ≠ some '/')
    (.bail "probe.dns.doh_path must start with /")
  bailIf (cfg.firewall.backend ∉ ["nftables", "iptables"])
    (.bail "firewall.backend must be nftables or iptables")
  bailIf (cfg.firewall.hook ∉ ["output", "postrouting"])
    (.bail "firewall.hook must be output or postrouting")
  bailIf (cfg.debug.keepRulesOnFailure && cfg.firewall.cleanupOnExit)
    (.bail "debug.keep_rules_on_failure conflicts with firewall.cleanup_on_exit safety")
  bailIf (cfg.strategies.searchMode ∉ ["signal", "expand", "force"])
    (.bail "strategies.search_mode must be signal, expand or force")
  validatePayloads cfg
  validateStrategyValues cfg.strategyValues
  ofResult ((validateStrategyCombinations cfg.strategyCombinations).mapError .combinations)

/-! ## Requests -/

/-- The method and the read mode of the configuration are parsed even where the command line has its
own. -/
def requestFromConfig (cfg : AppConfig) (method : Option HttpMethod) (readMode : Option ReadMode)
    (minBodyBytes maxReadBytes : Option Nat) : Except ConfigError HttpRequestSpec := do
  let configMethod ← parseHttpMethod cfg.probe.method
  let configReadMode ← parseReadMode cfg.probe.readMode
  let request : HttpRequestSpec :=
    { method := method.getD configMethod
      pathAndQuery := "/"
      userAgent := cfg.probe.userAgent
      readMode := readMode.getD configReadMode
      minBodyBytes := minBodyBytes.getD cfg.probe.minBodyBytes
      dpiDetectionBytes := cfg.probe.dpiDetectionBytes
      verifyTransferBytes := cfg.probe.verifyTransferBytes
      maxReadBytes := maxReadBytes.getD cfg.probe.maxReadBytes }
  if request.minBodyBytes > request.maxReadBytes then
    .error (.bail "--min-body-bytes must be less than or equal to --max-read-bytes")
  else .ok request

/-! ## What is accepted -/

/-- The range check of the queue numbers passes. -/
def QueueRangeChecked (build : Build) (cfg : AppConfig) : Prop :=
  ∃ maxQnum, build.add (2 ^ 32) cfg.isolation.queueBase.toNat cfg.workers.maxWorkerId =
    some maxQnum ∧ maxQnum ≤ 65535

/-- The range check of the marks passes. -/
def MarkRangeChecked (build : Build) (cfg : AppConfig) (markBase desyncMark : UInt32) : Prop :=
  ∃ offset, build.add (2 ^ 32) cfg.workers.maxWorkerId 1 = some offset ∧
    saturatingAdd (2 ^ 32) markBase.toNat offset ≠ desyncMark.toNat

/-- What `validate_isolation` accepts, with the values it reads from the texts. -/
structure IsolationAccepted (build : Build) (cfg : AppConfig) (mode : IsolationMode)
    (markBase desyncMark : UInt32) : Prop where
  mode_eq : IsolationMode.parse cfg.isolation.mode = .ok mode
  markBase_eq : parseHexMark cfg.isolation.markBase = .ok markBase
  desyncMark_eq : parseHexMark cfg.isolation.desyncMark = .ok desyncMark
  marks_ne : cfg.isolation.markBase ≠ cfg.isolation.desyncMark
  fwmark : mode = .fwmark → cfg.isolation.useNftVmap = true ∧ cfg.firewall.backend = "nftables" ∧
    MarkRangeChecked build cfg markBase desyncMark

theorem mapError_eq_ok {ε δ α : Type} {x : Except ε α} {f : ε → δ} {a : α} :
    x.mapError f = .ok a ↔ x = .ok a := by
  cases x <;> simp [Except.mapError]

theorem IsolationAccepted.of_returns {build : Build} {cfg : AppConfig}
    (h : (validateIsolation build cfg).Returns ()) :
    ∃ mode markBase desyncMark, IsolationAccepted build cfg mode markBase desyncMark := by
  simp only [validateIsolation, returns_bind, returns_ofResult, mapError_eq_ok, returns_bailIf]
    at h
  obtain ⟨mode, hmode, markBase, hbase, desyncMark, hdesync, _, hne, h⟩ := h
  refine ⟨mode, markBase, desyncMark, hmode, hbase, hdesync, hne, ?_⟩
  rintro rfl
  simp only [if_true, returns_bind, returns_ofResult, mapError_eq_ok, returns_bailIf,
    returns_ofOption] at h
  obtain ⟨_, hvmap, _, hbackend, base, hbase', offset, hoffset, desync, hdesync', hne⟩ := h
  obtain rfl : markBase = base := Except.ok.inj (hbase.symm.trans hbase')
  obtain rfl : desyncMark = desync := Except.ok.inj (hdesync.symm.trans hdesync')
  exact ⟨by simpa using hvmap, not_not.mp hbackend, offset, hoffset, hne⟩

/-- The checks of `AppConfig::validate`, in their order. -/
structure Validated (build : Build) (socketAddrPort : String → Option UInt16) (cfg : AppConfig) :
    Prop where
  preferred_known : cfg.probe.protocols.preferred ∈ ["http", "tls12", "tls13", "quic"]
  some_enabled : ¬(!cfg.probe.protocols.http && !cfg.probe.protocols.tls12 &&
    !cfg.probe.protocols.tls13 && !cfg.probe.protocols.quic) = true
  preferred_enabled : cfg.probe.protocols.preferredEnabled ≠ false
  count_ne : cfg.workers.count ≠ 0
  taskChannelSize_ne : cfg.workers.taskChannelSize ≠ 0
  resultChannelSize_ne : cfg.workers.resultChannelSize ≠ 0
  queueRange : QueueRangeChecked build cfg
  isolation : (validateIsolation build cfg).Returns ()
  sourcePort_mode : cfg.sourcePort.mode = "os_assigned"
  probe_backend : cfg.probe.backend ∈ ["native", "curl"]
  method : ∃ method, parseHttpMethod cfg.probe.method = .ok method
  readMode : ∃ readMode, parseReadMode cfg.probe.readMode = .ok readMode
  body_le : cfg.probe.minBodyBytes ≤ cfg.probe.maxReadBytes
  testCount_ne : cfg.probe.testCount ≠ 0
  dns_mode : cfg.probe.dns.mode = "doh"
  dohAddrs_ne : cfg.probe.dns.effectiveDohAddrs ≠ []
  dohAddrs : (forM cfg.probe.dns.effectiveDohAddrs (validateDohAddr socketAddrPort)).Returns ()
  dohHost : ¬(cfg.probe.dns.dohHost = "" ∨ ':' ∈ cfg.probe.dns.dohHost.toList ∨
    '/' ∈ cfg.probe.dns.dohHost.toList)
  dohPath : cfg.probe.dns.dohPath.toList.head? = some '/'
  firewall_backend : cfg.firewall.backend ∈ ["nftables", "iptables"]
  firewall_hook : cfg.firewall.hook ∈ ["output", "postrouting"]
  keepRules : ¬(cfg.debug.keepRulesOnFailure && cfg.firewall.cleanupOnExit) = true
  searchMode : cfg.strategies.searchMode ∈ ["signal", "expand", "force"]
  payloads : (validatePayloads cfg).Returns ()
  strategyValues : (validateStrategyValues cfg.strategyValues).Returns ()
  combinations : validateStrategyCombinations cfg.strategyCombinations = .ok ()

theorem Validated.of_returns {build : Build} {socketAddrPort : String → Option UInt16}
    {cfg : AppConfig} (h : (cfg.validate build socketAddrPort).Returns ()) :
    Validated build socketAddrPort cfg := by
  simp only [AppConfig.validate, returns_bind, returns_bailIf, returns_ofResult,
    returns_ofOption, mapError_eq_ok, not_not] at h
  obtain ⟨_, hpreferred, _, hsome, _, henabled, _, hcount, _, htask, _, hresult, maxQnum, hadd, _,
    hmax, _, hiso, _, hsource, _, hbackend, method, hmethod, readMode, hread, _, hbody, _, htest, _,
    hdns, _, hne, _, haddrs, _, hhost, _, hpath, _, hfirewall, _, hhook, _, hkeep, _, hsearch, _,
    hpayloads, _, hvalues, hcombinations⟩ := h
  exact {
    preferred_known := hpreferred
    some_enabled := hsome
    preferred_enabled := henabled
    count_ne := hcount
    taskChannelSize_ne := htask
    resultChannelSize_ne := hresult
    queueRange := ⟨maxQnum, hadd, not_lt.mp hmax⟩
    isolation := hiso
    sourcePort_mode := hsource
    probe_backend := hbackend
    method := ⟨method, hmethod⟩
    readMode := ⟨readMode, hread⟩
    body_le := not_lt.mp hbody
    testCount_ne := htest
    dns_mode := hdns
    dohAddrs_ne := hne
    dohAddrs := haddrs
    dohHost := hhost
    dohPath := hpath
    firewall_backend := hfirewall
    firewall_hook := hhook
    keepRules := hkeep
    searchMode := hsearch
    payloads := hpayloads
    strategyValues := hvalues
    combinations := hcombinations }

/-- What the results about accepted configurations need of them. -/
structure Accepted (build : Build) (cfg : AppConfig) : Prop where
  count_pos : 0 < cfg.workers.count
  queueRange : QueueRangeChecked build cfg
  isolation : ∃ mode markBase desyncMark, IsolationAccepted build cfg mode markBase desyncMark
  method : ∃ method, parseHttpMethod cfg.probe.method = .ok method
  readMode : ∃ readMode, parseReadMode cfg.probe.readMode = .ok readMode
  body_le : cfg.probe.minBodyBytes ≤ cfg.probe.maxReadBytes

theorem Accepted.of_validate {build : Build} {socketAddrPort : String → Option UInt16}
    {cfg : AppConfig} (h : (cfg.validate build socketAddrPort).Returns ()) :
    Accepted build cfg :=
  have hv := Validated.of_returns h
  ⟨Nat.pos_of_ne_zero hv.count_ne, hv.queueRange, IsolationAccepted.of_returns hv.isolation,
    hv.method, hv.readMode, hv.body_le⟩

/-- An accepted configuration gives a request as it stands. -/
theorem Accepted.requestFromConfig_isOk {build : Build} {cfg : AppConfig}
    (h : Accepted build cfg) :
    ∃ request, requestFromConfig cfg none none none none = .ok request := by
  obtain ⟨method, hmethod⟩ := h.method
  obtain ⟨readMode, hreadMode⟩ := h.readMode
  rw [requestFromConfig, hmethod, hreadMode]
  exact ⟨_, if_neg (not_lt.mpr h.body_le)⟩

end ZapretChecker.Config
