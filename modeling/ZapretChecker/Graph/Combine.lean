import Mathlib.Algebra.Order.Ring.Rat
import ZapretChecker.Graph.Config
import ZapretChecker.Graph.Select

/-!
# Combining nodes

`generate_combined_nodes` of `src/graph.rs`: every two single nodes that pass the filters of the
settings become a node that applies both.
-/

namespace ZapretChecker.Graph

open SortBy Collect

def combinationFamilyRank (family : String) : Nat :=
  match family with
  | "fake" => 0
  | "syndata" => 1
  | "ipfrag" => 2
  | "udp_len" => 3
  | "oob" => 4
  | "split" => 10
  | "disorder" => 11
  | "faked_split" => 12
  | "seqovl" => 13
  | "wsize" => 14
  | _ => 50

def compareCombinationInput : StrategyNode → StrategyNode → Ordering :=
  compareByRank combinationFamilyRank

instance : Std.TransCmp compareCombinationInput := by
  unfold compareCombinationInput
  infer_instance

def orderedComponents (a b : StrategyNode) : StrategyNode × StrategyNode :=
  if compareCombinationInput a b = .gt then (b, a) else (a, b)

def argsIntersect (a b : List String) : Bool := b.any fun arg => a.contains arg

def isLegacy (actionId : String) : Bool := Text.contains actionId "_legacy"

/-- The filters a pair has to pass. -/
def combinable (protocolKey : String) (cfg : StrategyCombinationConfig)
    (pair : StrategyNode × StrategyNode) : Bool :=
  let (first, second) := pair
  first.id != second.id &&
    !(cfg.requireDifferentFamily && first.family == second.family) &&
    !(!cfg.allowSameAction && first.actionId == second.actionId) &&
    !argsIntersect first.args second.args &&
    (cfg.mode == "force" || cfg.pairAllowed protocolKey first.family second.family)

def combinedArgs (pair : StrategyNode × StrategyNode) : List String := pair.1.args ++ pair.2.args

/-- The node that applies both, at position `i`. -/
def combinedNode (protocolKey : String) (i : Nat) (pair : StrategyNode × StrategyNode) :
    StrategyNode :=
  let (first, second) := pair
  { id := protocolKey ++ "_combined_" ++ first.family ++ "_" ++ second.family ++ "_" ++ toString i
    family := "combined_" ++ first.family ++ "_" ++ second.family
    actionId := first.actionId ++ "+" ++ second.actionId
    args := combinedArgs pair
    components := [componentOf first, componentOf second]
    isCombined := true
    cost := first.cost + second.cost + 3
    risk := max first.risk second.risk + 1 / 10 * min first.risk second.risk
    prior := (1, 1) }

/-- The single nodes that may be combined, in the order of the pairs. -/
def combinationInput (baseNodes : List StrategyNode) : List StrategyNode :=
  let singles := baseNodes.filter fun node => !node.isCombined && !isLegacy node.actionId
  sortBy compareCombinationInput (singles.map normalizeSingleNode)

/-- Every two elements of the list, the one that comes first at the left. -/
def pairs {α : Type*} : List α → List (α × α)
  | [] => []
  | a :: l => l.map (a, ·) ++ pairs l

def generateCombinedNodes (protocolKey : String) (baseNodes : List StrategyNode)
    (cfg : StrategyCombinationConfig) : List StrategyNode :=
  if !cfg.enabled then []
  else
    let candidates := (pairs (combinationInput baseNodes)).map fun (a, b) => orderedComponents a b
    let out := (candidates.filter (combinable protocolKey cfg)).foldl
      (Acc.push (fun pair => argsKey (combinedArgs pair)) (combinedNode protocolKey)) Acc.empty
    out.out

end ZapretChecker.Graph
