import ZapretChecker.Graph.Render
import ZapretChecker.Graph.Select
import ZapretChecker.Graph.Combine

/-!
# Loading the strategy graph

`StrategyGraph::load_for_protocol_mode` of `src/graph.rs`, from the parsed strategies file on.

A strategies file has either a plain list under `strategies` or a catalog of families. The `HashMap`
of the families is the list of the parsed families, where the last one of an id counts.
-/

namespace ZapretChecker.Graph

open Collect

/-! ## Options -/

structure GraphLoadOptions where
  protocolKey : String
  searchMode : String
  limits : SelectLimits
  payloadAliases : Option PayloadAliases
  strategyValues : Option StrategyValuesConfig
  strategyCombinations : Option StrategyCombinationConfig

/-- The options with another search mode. -/
def GraphLoadOptions.withMode (options : GraphLoadOptions) (searchMode : String) :
    GraphLoadOptions :=
  { options with searchMode }

/-- `usize::MAX` -/
def noStrategyLimit : Nat := 2 ^ 64 - 1

structure StrategyGraph where
  nodes : List StrategyNode
  deriving DecidableEq, Repr

/-! ## A plain list -/

def simpleNode (node : StrategyNode) : StrategyNode :=
  normalizeSingleNode
    (if node.actionId.isEmpty || node.actionId == "manual" then
      { node with actionId := node.family }
    else node)

def parseSimpleStrategies (env : Env) (strategies : List Value) :
    Except String (List StrategyNode) := do
  let nodes ← strategies.mapM env.nodeFromValue
  return nodes.map simpleNode

/-! ## The families of a catalog -/

structure CatalogFamily where
  id : String
  enabled : Bool
  protocols : List String
  cost : Rat
  risk : Rat
  prior : Rat × Rat
  actions : List CatalogAction

def catalogAction (action : Value) : Option CatalogAction := do
  let id ← (action.get "id").bind Value.asStr
  let template ← ((action.get "render").bind (·.get "lua_desync")).bind Value.asStr
  return { id, protocols := stringList (action.get "protocols"), template,
           params := action.get "params" }

def catalogFamily (family : Value) : Option CatalogFamily := do
  let id ← (family.get "id").bind Value.asStr
  -- without two numbers the whole prior falls back
  let prior : Option (Rat × Rat) := do
    let v ← (family.get "prior").bind Value.asSequence
    let a ← v[0]?
    let a ← a.asF64
    let b ← v[1]?
    let b ← b.asF64
    return (a, b)
  return {
    id
    enabled := ((family.get "enabled").bind Value.asBool).getD true
    protocols := stringList (family.get "protocols")
    cost := ((family.get "cost").bind Value.asF64).getD 5
    risk := ((family.get "risk").bind Value.asF64).getD 3
    prior := prior.getD (2, 2)
    actions := ((valueSeq family "actions").getD []).filterMap catalogAction }

def catalogFamilies (families : List Value) : List CatalogFamily := families.filterMap catalogFamily

/-- `HashMap::get`: a later family replaces an earlier one with its id. -/
def findFamily (catalog : List CatalogFamily) (familyId : String) : Option CatalogFamily :=
  catalog.reverse.find? (·.id == familyId)

/-! ## Candidates -/

def protocolMatches (protocols : List String) (protocolKey template : String) : Bool :=
  if protocols.contains protocolKey then true
  else if !protocols.isEmpty then false
  else
    -- an action that names no protocol is judged by its template
    let t := Text.toAsciiLowercase template
    match protocolKey with
    | "http" => Text.contains t "http" || Text.contains t "http_host" ||
        Text.contains t "http_request"
    | "tls12" | "tls13" => Text.contains t "tls" || Text.contains t "sni" ||
        Text.contains t "sniext" || Text.contains t "host"
    | "quic" => Text.contains t "quic" || Text.contains t "udp" || Text.contains t "http3"
    | _ => false

/-- The ids a candidate restricts the actions to. -/
def actionFilter (candidate : Option Value) : Option (List String) :=
  (candidate.bind fun v => valueSeq v "actions").map fun seq => seq.filterMap Value.asStr

/-- The action is used for the protocol. -/
def actionSelected (protocolKey : String) (filter : Option (List String)) (action : CatalogAction) :
    Bool :=
  !isLegacy action.id && filter.all (·.contains action.id) &&
    protocolMatches action.protocols protocolKey action.template

/-- A variant before it is a node. -/
structure Variant where
  family : CatalogFamily
  actionId : String
  args : List String

def variantNode (protocolKey : String) (i : Nat) (v : Variant) : StrategyNode where
  id := protocolKey ++ "_" ++ v.family.id ++ "_" ++ v.actionId ++ "_" ++ toString i
  family := v.family.id
  actionId := v.actionId
  args := v.args
  components := [{ family := v.family.id, actionId := v.actionId, args := v.args }]
  isCombined := false
  cost := v.family.cost
  risk := v.family.risk
  prior := v.family.prior

/-- The variants of an action, in the order they are rendered. -/
def actionVariants (input : RenderInput) (overrides : Option Value) (family : CatalogFamily)
    (action : CatalogAction) : List Variant :=
  (renderLuaDesyncVariants input action overrides).map fun lua =>
    { family, actionId := action.id, args := finalizeArgs input.protocolKey lua }

/-- The variants of a family that `append_family_actions` goes through. -/
def familyVariants (input : RenderInput) (catalog : List CatalogFamily) (familyId : String)
    (candidate : Option Value) : List Variant :=
  match findFamily catalog familyId with
  | none => []
  | some family =>
    -- a family that names no protocol matches none: its template is empty
    if !family.enabled || !protocolMatches family.protocols input.protocolKey "" then []
    else
      let overrides := candidate.bind (·.get "params")
      let actions := family.actions.filter
        (actionSelected input.protocolKey (actionFilter candidate))
      actions.flatMap (actionVariants input overrides family)

/-- Append the variants whose argument list is new. -/
def appendFamilyActions (input : RenderInput) (catalog : List CatalogFamily)
    (acc : Acc String StrategyNode) (familyId : String) (candidate : Option Value) :
    Acc String StrategyNode :=
  (familyVariants input catalog familyId candidate).foldl
    (Acc.push (fun v => argsKey v.args) (variantNode input.protocolKey)) acc

/-! ## The search modes -/

def signalCandidates (root : Value) (protocolKey : String) : Option (List Value) :=
  (((root.get "candidate_generators").bind (·.get "signal")).bind (·.get protocolKey)).bind
    Value.asSequence

def expandFamilyOrder (root : Value) (protocolKey : String) : Option (List Value) :=
  ((((root.get "candidate_generators").bind (·.get "expand")).bind (·.get protocolKey)).bind
    (·.get "family_order")).bind Value.asSequence

/-- Which families are appended, with the candidate that selects and overrides. -/
def familyPlan (root : Value) (families : List Value) (protocolKey searchMode : String) :
    Except String (List (String × Option Value)) :=
  match searchMode with
  | "signal" =>
    match signalCandidates root protocolKey with
    | none =>
      .error ("strategy catalog missing candidate_generators.signal." ++ protocolKey)
    | some candidates => .ok <| candidates.filterMap fun candidate =>
        ((candidate.get "family").bind Value.asStr).map fun familyId => (familyId, some candidate)
  | "expand" =>
    match expandFamilyOrder root protocolKey with
    | none =>
      .error ("strategy catalog missing candidate_generators.expand." ++ protocolKey ++
        ".family_order")
    | some order => .ok ((order.filterMap Value.asStr).map fun familyId => (familyId, none))
  | "force" =>
    .ok ((families.filterMap fun family => (family.get "id").bind Value.asStr).map
      fun familyId => (familyId, none))
  | _ => .error ("unsupported search mode: " ++ searchMode)

def renderInput (env : Env) (root : Value) (options : GraphLoadOptions) : RenderInput where
  env := env
  root := root
  protocolKey := options.protocolKey
  useActionValues := options.searchMode != "signal"
  payloadAliases := options.payloadAliases
  strategyValues := options.strategyValues

/-- The nodes of a catalog before the selection. -/
def catalogCandidates (env : Env) (root : Value) (options : GraphLoadOptions) :
    Except String (List StrategyNode) := do
  let some families := valueSeq root "families"
    | throw "strategy catalog missing strategies/families"
  let catalog := catalogFamilies families
  let plan ← familyPlan root families options.protocolKey options.searchMode
  let input := renderInput env root options
  let nodes := (plan.foldl (fun acc (familyId, candidate) =>
    appendFamilyActions input catalog acc familyId candidate) Acc.empty).out
  if nodes.isEmpty then
    throw ("strategy catalog produced no concrete " ++ options.protocolKey ++
      " candidates for mode " ++ options.searchMode)
  return nodes

def parseCatalogStrategies (env : Env) (root : Value) (options : GraphLoadOptions) :
    Except String (List StrategyNode) := do
  let nodes ← catalogCandidates env root options
  return selectDiverseNodes nodes options.protocolKey options.limits

/-! ## The graph -/

/-- The selected nodes, before any are combined. -/
def baseNodes (env : Env) (root : Value) (options : GraphLoadOptions) :
    Except String (List StrategyNode) :=
  match valueSeq root "strategies" with
  | some strategies => do
    let nodes ← parseSimpleStrategies env strategies
    return selectDiverseNodes nodes options.protocolKey options.limits
  | none => parseCatalogStrategies env root options

/-- The combined nodes that still fit. -/
def combinedNodes (options : GraphLoadOptions) (nodes : List StrategyNode) : List StrategyNode :=
  match options.strategyCombinations with
  | none => []
  | some cfg =>
    (generateCombinedNodes options.protocolKey nodes cfg).take
      (options.limits.maxCandidates - nodes.length)

/-- `StrategyGraph::load_for_protocol_mode`, for a file that was read and parsed. -/
def loadForProtocolMode (env : Env) (root : Value) (options : GraphLoadOptions) :
    Except String StrategyGraph := do
  let nodes ← baseNodes env root options
  return { nodes := nodes ++ combinedNodes options nodes }

/-! ## Small catalogs -/

/-- A family with one action, for the protocol `tls12`. -/
def smallFamily (id actionId luaDesync : String) (params : List (Value × Value)) : Value :=
  let protocols := Value.sequence [.string "tls12"]
  .mapping [(.string "id", .string id), (.string "protocols", protocols),
    (.string "actions", .sequence [.mapping
      [(.string "id", .string actionId), (.string "protocols", protocols),
        (.string "params", .mapping params),
        (.string "render", .mapping [(.string "lua_desync", .string luaDesync)])]])]

def fakeFamily : Value := smallFamily "fake" "fake_tls" "fake:blob=fake_default_tls" []

def splitFamily : Value :=
  smallFamily "split" "multisplit_tls" ("multisplit:pos=" ++ placeholder "pos")
    [(.string "pos", .mapping [(.string "values", .sequence [.int 1])])]

def wsizeFamily : Value := smallFamily "wsize" "wsize" "wsize:wsize=1" []

def ipfragFamily : Value := smallFamily "ipfrag" "ipfrag" "send:ipfrag" []

/-- A catalog of the families whose `family_order` is the given one. -/
def smallCatalog (families : List Value) (familyOrder : List String) : Value :=
  .mapping
    [(.string "families", .sequence families),
      (.string "candidate_generators", .mapping [(.string "expand", .mapping
        [(.string "tls12", .mapping
          [(.string "family_order", .sequence (familyOrder.map Value.string))])])])]

/-- No fake directories, and no plain list. -/
def catalogEnv : Env where
  readDir _ := []
  nodeFromValue _ := .error ""

def noLimits : SelectLimits where
  maxCandidates := noStrategyLimit
  maxPerFamily := noStrategyLimit
  maxPerAction := noStrategyLimit
  roundRobinFamilies := true

def smallOptions (searchMode : String) : GraphLoadOptions where
  protocolKey := "tls12"
  searchMode := searchMode
  limits := noLimits
  payloadAliases := none
  strategyValues := none
  strategyCombinations := none

/-- Combinations of two families, in the default mode. -/
def smallCombinations (f g : String) : StrategyCombinationConfig where
  enabled := true
  requireDifferentFamily := true
  allowSameAction := false
  mode := "pairwise"
  allowed := [{ protocols := ["tls12"], families := [f, g] }]

def combiningOptions (f g : String) : GraphLoadOptions :=
  { smallOptions "force" with strategyCombinations := some (smallCombinations f g) }

/-- The node a small family loads as, at position `i`. -/
def smallNode (i : Nat) (family actionId : String) (args : List String) : StrategyNode where
  id := "tls12_" ++ family ++ "_" ++ actionId ++ "_" ++ toString i
  family := family
  actionId := actionId
  args := args
  components := [{ family := family, actionId := actionId, args := args }]
  isCombined := false
  cost := 5
  risk := 3
  prior := (2, 2)

def fakeNode (i : Nat) : StrategyNode :=
  smallNode i "fake" "fake_tls"
    ["--payload=tls_client_hello", "--lua-desync=fake:blob=fake_default_tls"]

def splitNode (i : Nat) : StrategyNode :=
  smallNode i "split" "multisplit_tls"
    ["--payload=tls_client_hello", "--lua-desync=multisplit:pos=1"]

def wsizeNode (i : Nat) : StrategyNode :=
  smallNode i "wsize" "wsize" ["--lua-desync=wsize:wsize=1"]

def ipfragNode (i : Nat) : StrategyNode :=
  smallNode i "ipfrag" "ipfrag" ["--lua-desync=send:ipfrag"]

end ZapretChecker.Graph
