import Mathlib.Data.List.Basic

/-!
# Settings of the strategy graph

`StrategyValuesConfig` and `StrategyCombinationConfig` of `src/config.rs`, with the validation of the
latter, and `PayloadAliases` of `src/payload_registry.rs`.

A `BTreeMap` that is only looked into is a list of entries with different keys.
-/

namespace ZapretChecker.Graph

/-! ## Payload aliases -/

structure PayloadAliases where
  http : List String
  tls : List String
  quic : List String
  deriving DecidableEq, Repr, Inhabited

def PayloadAliases.forProtocolKey (aliases : PayloadAliases) (protocolKey : String) : List String :=
  match protocolKey with
  | "http" => aliases.http
  | "tls12" | "tls13" | "tls" => aliases.tls
  | "quic" => aliases.quic
  | _ => []

/-! ## Strategy values -/

structure StrategyValuesConfig where
  mode : String
  http : List (String × List String)
  tls : List (String × List String)
  quic : List (String × List String)
  deriving DecidableEq, Repr, Inhabited

def StrategyValuesConfig.valuesForProtocolKey (cfg : StrategyValuesConfig) (protocolKey : String) :
    List (String × List String) :=
  match protocolKey with
  | "http" => cfg.http
  | "tls12" | "tls13" | "tls" => cfg.tls
  | "quic" => cfg.quic
  | _ => []

def StrategyValuesConfig.valuesForParam (cfg : StrategyValuesConfig) (protocolKey param : String) :
    Option (List String) :=
  (cfg.valuesForProtocolKey protocolKey).lookup param

/-! ## Strategy combinations -/

structure AllowedCombination where
  protocols : List String
  families : List String
  deriving DecidableEq, Repr, Inhabited

structure StrategyCombinationConfig where
  enabled : Bool
  requireDifferentFamily : Bool
  allowSameAction : Bool
  mode : String
  allowed : List AllowedCombination
  deriving DecidableEq, Repr, Inhabited

/-- The entry names the two families, in either order, and the protocol. -/
def AllowedCombination.permits (entry : AllowedCombination)
    (protocolKey familyA familyB : String) : Bool :=
  entry.protocols.contains protocolKey &&
    match entry.families with
    | [f, g] => (f == familyA && g == familyB) || (f == familyB && g == familyA)
    | _ => false

def StrategyCombinationConfig.pairAllowed (cfg : StrategyCombinationConfig)
    (protocolKey familyA familyB : String) : Bool :=
  if !cfg.enabled then false
  else if cfg.mode == "force" then !cfg.requireDifferentFamily || familyA != familyB
  else cfg.allowed.any fun entry => entry.permits protocolKey familyA familyB

theorem AllowedCombination.permits_comm (entry : AllowedCombination) (protocolKey f g : String) :
    entry.permits protocolKey f g = entry.permits protocolKey g f := by
  unfold permits
  split
  · rw [Bool.or_comm]
  · rfl

theorem StrategyCombinationConfig.pairAllowed_comm (cfg : StrategyCombinationConfig)
    (protocolKey f g : String) :
    cfg.pairAllowed protocolKey f g = cfg.pairAllowed protocolKey g f := by
  unfold pairAllowed
  simp only [AllowedCombination.permits_comm _ protocolKey f g, bne_comm (a := f)]

/-! ## Validation of the combinations -/

inductive CombinationError
  | unknownMode
  | protocolsEmpty (index : Nat)
  | unsupportedProtocol (index : Nat) (protocol : String)
  | notTwoFamilies (index : Nat)
  | emptyFamily (index : Nat)
  | sameFamilies (index : Nat)
  deriving DecidableEq, Repr

/-- The text of the error. `debug` is the `Debug` format of a string. -/
def CombinationError.message (debug : String → String) : CombinationError → String
  | .unknownMode => "strategy_combinations.mode must be pairwise, best_with_variants or force"
  | .protocolsEmpty index =>
    "strategy_combinations.allowed[" ++ toString index ++ "].protocols must not be empty"
  | .unsupportedProtocol index protocol =>
    "strategy_combinations.allowed[" ++ toString index ++
      "].protocols contains unsupported protocol " ++ debug protocol
  | .notTwoFamilies index =>
    "strategy_combinations.allowed[" ++ toString index ++
      "].families must contain exactly 2 families"
  | .emptyFamily index =>
    "strategy_combinations.allowed[" ++ toString index ++
      "].families must not contain empty family names"
  | .sameFamilies index =>
    "strategy_combinations.allowed[" ++ toString index ++
      "].families must be different when require_different_family=true"

/-- The checks of one entry of `allowed`. -/
def AllowedCombination.validate (requireDifferentFamily : Bool) (index : Nat)
    (allowed : AllowedCombination) : Except CombinationError Unit := do
  if allowed.protocols.isEmpty then throw (.protocolsEmpty index)
  for protocol in allowed.protocols do
    unless protocol ∈ ["http", "tls12", "tls13", "quic"] do
      throw (.unsupportedProtocol index protocol)
  if allowed.families.length ≠ 2 then throw (.notTwoFamilies index)
  if allowed.families.any String.isEmpty then throw (.emptyFamily index)
  if requireDifferentFamily ∧ allowed.families[0]? = allowed.families[1]? then
    throw (.sameFamilies index)

def validateStrategyCombinations (config : StrategyCombinationConfig) :
    Except CombinationError Unit := do
  unless config.mode ∈ ["pairwise", "best_with_variants", "force"] do
    throw .unknownMode
  for (allowed, index) in config.allowed.zipIdx do
    allowed.validate config.requireDifferentFamily index

end ZapretChecker.Graph
