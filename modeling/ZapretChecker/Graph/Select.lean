import ZapretChecker.Types
import ZapretChecker.Lib.Collect
import ZapretChecker.Lib.RoundRobin
import ZapretChecker.Lib.SortBy
import ZapretChecker.Lib.Text

/-!
# Selecting nodes

`select_diverse_nodes` of `src/graph.rs`: drop repeated argument lists, keep the limits per family
and per action, let the families take turns, and number the nodes anew.
-/

namespace ZapretChecker.Graph

open SortBy Collect

/-- The key under which argument lists are compared. -/
def argsKey (args : List String) : String := Text.join "\x00" args

theorem map_argsKey {α : Type*} (f : α → List String) (l : List α) :
    (l.map fun a => argsKey (f a)) = (l.map f).map argsKey :=
  List.map_map.symm

/-- Without a NUL the key of an argument list determines it. -/
theorem argsKey_inj {a b : List String} (ha : a ≠ []) (hb : b ≠ [])
    (hnula : ∀ arg ∈ a, '\x00' ∉ arg.toList) (hnulb : ∀ arg ∈ b, '\x00' ∉ arg.toList)
    (h : argsKey a = argsKey b) : a = b :=
  Text.join_inj ha hb hnula hnulb h

/-- The node as a component of itself or of a combination. -/
def componentOf (node : StrategyNode) : StrategyComponent where
  family := node.family
  actionId := node.actionId
  args := node.args

def normalizeSingleNode (node : StrategyNode) : StrategyNode :=
  if node.isCombined || !node.components.isEmpty then node
  else { node with components := [componentOf node] }

/-! ## The order of quality -/

def familyDiversityRank (family : String) : Nat :=
  match family with
  | "split" => 0
  | "fake" => 1
  | "disorder" => 2
  | "wsize" => 3
  | "faked_split" => 4
  | "seqovl" => 5
  | "syndata" => 6
  | "ipfrag" => 7
  | "oob" => 8
  | "udp_len" => 9
  | "http_trick" => 10
  | "hostfake" => 11
  | "ipv6_ext" => 12
  | _ => 99

/-- Compare by the rank of the family, then by family, action and id. -/
def compareByRank (rank : String → Nat) : StrategyNode → StrategyNode → Ordering :=
  compareLex (compareOn fun n => rank n.family) <|
    compareLex (compareOn (·.family)) <| compareLex (compareOn (·.actionId)) (compareOn (·.id))

def compareNodeQuality : StrategyNode → StrategyNode → Ordering :=
  compareByRank familyDiversityRank

instance (rank : String → Nat) : Std.TransCmp (compareByRank rank) := by
  unfold compareByRank
  infer_instance

instance : Std.TransCmp compareNodeQuality := by
  unfold compareNodeQuality
  infer_instance

/-- Nodes that compare equal have the same id. -/
theorem id_eq_of_compareByRank {rank : String → Nat} {a b : StrategyNode}
    (h : compareByRank rank a b = .eq) : a.id = b.id := by
  unfold compareByRank at h
  rw [compareLex_eq_eq, compareLex_eq_eq, compareLex_eq_eq] at h
  exact Std.LawfulEqCmp.eq_of_compare h.2.2.2

/-! ## The limits -/

/-- The state of the filter loop; both counters start at zero. -/
structure Selection where
  seenArgs : List String
  perFamily : String → Nat
  perAction : String × String → Nat
  filtered : List StrategyNode

def Selection.empty : Selection where
  seenArgs := []
  perFamily _ := 0
  perAction _ := 0
  filtered := []

/-- The body of the filter loop. An argument list counts as seen even if a limit drops the node. -/
def Selection.consider (maxPerFamily maxPerAction : Nat) (s : Selection) (node : StrategyNode) :
    Selection :=
  let key := argsKey node.args
  let actionKey := (node.family, node.actionId)
  if key ∈ s.seenArgs then s
  else if maxPerFamily ≤ s.perFamily node.family then { s with seenArgs := key :: s.seenArgs }
  else if maxPerAction ≤ s.perAction actionKey then { s with seenArgs := key :: s.seenArgs }
  else
    { seenArgs := key :: s.seenArgs
      perFamily := Function.update s.perFamily node.family (s.perFamily node.family + 1)
      perAction := Function.update s.perAction actionKey (s.perAction actionKey + 1)
      filtered := s.filtered ++ [node] }

/-- The nodes that pass the filter, in the order of quality. -/
def filterNodes (maxPerFamily maxPerAction : Nat) (nodes : List StrategyNode) :
    List StrategyNode :=
  ((sortBy compareNodeQuality nodes).foldl (Selection.consider maxPerFamily maxPerAction)
    Selection.empty).filtered

/-! ## Turns -/

/-- The families in the order of their ranks. -/
def familyOrder (nodes : List StrategyNode) : List String :=
  sortBy (compareLex (compareOn familyDiversityRank) compare) (firstOf id [] (nodes.map (·.family)))

/-- The nodes of a family, in the order of quality. -/
def familyGroup (nodes : List StrategyNode) (family : String) : List StrategyNode :=
  sortBy compareNodeQuality (nodes.filter (·.family == family))

def roundRobinByFamily (nodes : List StrategyNode) (maxCandidates : Nat) : List StrategyNode :=
  RoundRobin.drain maxCandidates (familyOrder nodes) ⟨[], familyGroup nodes⟩

/-! ## Numbering -/

/-- The node with the id of position `i`. -/
def reindexNode (protocolKey : String) (i : Nat) (node : StrategyNode) : StrategyNode :=
  if node.isCombined then
    { node with id := protocolKey ++ "_" ++ node.family ++ "_" ++ toString i }
  else
    normalizeSingleNode { node with
      id := protocolKey ++ "_" ++ node.family ++ "_" ++ node.actionId ++ "_" ++ toString i }

def reindexNodes (protocolKey : String) (nodes : List StrategyNode) : List StrategyNode :=
  nodes.mapIdx (reindexNode protocolKey)

/-- The limits of a selection. -/
structure SelectLimits where
  maxCandidates : Nat
  maxPerFamily : Nat
  maxPerAction : Nat
  roundRobinFamilies : Bool
  deriving DecidableEq, Repr

def selectDiverseNodes (nodes : List StrategyNode) (protocolKey : String) (limits : SelectLimits) :
    List StrategyNode :=
  let filtered := filterNodes limits.maxPerFamily limits.maxPerAction nodes
  let selected :=
    if limits.roundRobinFamilies then roundRobinByFamily filtered limits.maxCandidates
    else (sortBy compareNodeQuality filtered).take limits.maxCandidates
  reindexNodes protocolKey selected

end ZapretChecker.Graph
