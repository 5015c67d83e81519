import ZapretChecker.Graph.Configured

/-!
# The invariant of a loaded graph

`LoadedGraph` holds of every graph that is loaded from a catalog, in every mode and under any
settings. Single and combined nodes differ in their number of `--lua-desync` options.
-/

namespace ZapretChecker.Graph

/-- What holds of a node: its arguments are those of its one or two components. -/
structure LoadedNode (n : StrategyNode) : Prop where
  resolved : ∀ arg ∈ n.args, unresolved arg = false
  notLegacy : ∀ c ∈ n.components, isLegacy c.actionId = false
  concatenated : n.args = n.components.flatMap (·.args)
  shape : (n.isCombined = false ∧ ∃ c, n.components = [c]) ∨
    (n.isCombined = true ∧ ∃ c d, n.components = [c, d] ∧ c.args ≠ d.args)

/-- What holds of a graph loaded with the limit `maxCandidates`. -/
structure LoadedGraph (maxCandidates : Nat) (graph : StrategyGraph) : Prop where
  bounded : graph.nodes.length ≤ maxCandidates
  distinct : (graph.nodes.map (·.args)).Nodup
  nodes : ∀ n ∈ graph.nodes, LoadedNode n

/-! ## The number of `--lua-desync` options -/

def luaCount (args : List String) : Nat := args.countP (isOption "--lua-desync")

theorem luaCount_append (a b : List String) : luaCount (a ++ b) = luaCount a + luaCount b :=
  List.countP_append

theorem luaCount_toArgs (s : SingleArgs) : luaCount s.toArgs = 1 := by
  have hbefore : (s.blobs.map ("--blob=" ++ ·) ++ s.filter.toList.map ("--payload=" ++ ·)).countP
      (isOption "--lua-desync") = 0 := by
    rw [List.countP_eq_zero]
    intro arg harg
    rw [s.isOption_blobs_filter arg harg]
    exact Bool.false_ne_true
  rw [luaCount, SingleArgs.toArgs, List.countP_append, hbefore, List.countP_singleton,
    if_pos (isOption_lua_lua s.lua)]

theorem CatalogNode.luaCount {protocolKey : String} {n : StrategyNode}
    (hn : CatalogNode protocolKey n) : luaCount n.args = 1 := by
  obtain ⟨s, hs⟩ := hn.exists_toArgs
  rw [hs, luaCount_toArgs]

/-! ## Combined nodes -/

/-- A combined node of a load is made of a pair of base nodes. -/
theorem exists_pair_of_mem_combinedNodes {options : GraphLoadOptions} {base : List StrategyNode}
    (hnodes : ∀ n ∈ base, CatalogNode options.protocolKey n) {n : StrategyNode}
    (hn : n ∈ combinedNodes options base) :
    ∃ i, ∃ first ∈ base, ∃ second ∈ base, argsIntersect first.args second.args = false ∧
      n = combinedNode options.protocolKey i (first, second) := by
  unfold combinedNodes at hn
  split at hn
  · exact absurd hn List.not_mem_nil
  · obtain ⟨i, hi, rfl⟩ := mem_generateCombinedNodes.mp (List.mem_of_mem_take hn)
    have hpair := List.getElem_mem hi
    obtain ⟨hfirst, hsecond⟩ := mem_of_mem_combinedPairs hnodes hpair
    have hcombinable := (mem_combinedPairs hpair).2
    exact ⟨i, _, hfirst, _, hsecond, (combinable_iff.mp hcombinable).2.2.2.1, rfl⟩

theorem nodup_combinedNodes (options : GraphLoadOptions) (base : List StrategyNode) :
    ((combinedNodes options base).map (·.args)).Nodup := by
  unfold combinedNodes
  split
  · exact List.nodup_nil
  · rename_i cfg _
    have hargs : (generateCombinedNodes options.protocolKey base cfg).map (·.args) =
        (combinedPairs options.protocolKey base cfg).map combinedArgs := by
      rw [generateCombinedNodes_eq]
      apply Collect.map_mapIdx_of_forall
      intro i pair
      rfl
    have hkeys := nodup_combinedPairs options.protocolKey base cfg
    rw [map_argsKey, ← hargs] at hkeys
    exact ((List.take_sublist _ _).map _).nodup (hkeys.of_map _)

theorem length_combinedNodes_le (options : GraphLoadOptions) (base : List StrategyNode) :
    (combinedNodes options base).length ≤ options.limits.maxCandidates - base.length := by
  unfold combinedNodes
  split
  · exact Nat.zero_le _
  · exact List.length_take_le _ _

/-! ## The invariant -/

theorem CatalogNode.resolved {protocolKey : String} {n : StrategyNode}
    (hn : CatalogNode protocolKey n) : ∀ arg ∈ n.args, unresolved arg = false := by
  obtain ⟨lua, hlua, hargs⟩ := hn.rendered
  intro arg harg
  rw [hargs] at harg
  exact finalizeArgs_resolved hlua harg

/-- Nodes that share no argument have different argument lists. -/
theorem args_ne_of_disjoint {protocolKey : String} {a b : StrategyNode}
    (ha : CatalogNode protocolKey a) (h : argsIntersect a.args b.args = false) :
    a.args ≠ b.args := by
  intro he
  rw [argsIntersect_eq_false_iff, ← he] at h
  have hpos : a.args ≠ [] := by
    obtain ⟨lua, -, hargs⟩ := ha.rendered
    rw [hargs]
    exact finalizeArgs_ne_nil _ _
  obtain ⟨arg, harg⟩ := List.exists_mem_of_ne_nil _ hpos
  exact h arg harg harg

theorem CatalogNode.loadedNode {protocolKey : String} {n : StrategyNode}
    (hn : CatalogNode protocolKey n) : LoadedNode n where
  resolved := hn.resolved
  notLegacy := by
    intro c hc
    rw [hn.components, List.mem_singleton] at hc
    rw [hc]
    exact hn.action
  concatenated := by
    rw [hn.components, List.flatMap_singleton]
    rfl
  shape := Or.inl ⟨hn.isSingle, _, hn.components⟩

theorem loadedNode_combinedNode {protocolKey key : String} {first second : StrategyNode}
    (hfirst : CatalogNode protocolKey first) (hsecond : CatalogNode protocolKey second)
    (hdisjoint : argsIntersect first.args second.args = false) (i : Nat) :
    LoadedNode (combinedNode key i (first, second)) where
  resolved := by
    intro arg harg
    rcases List.mem_append.mp harg with h | h
    · exact hfirst.resolved arg h
    · exact hsecond.resolved arg h
  notLegacy := by
    intro c hc
    rcases List.mem_pair.mp hc with rfl | rfl
    · exact hfirst.action
    · exact hsecond.action
  concatenated := by simp [combinedNode, combinedArgs, componentOf]
  shape := Or.inr ⟨rfl, _, _, rfl, args_ne_of_disjoint hfirst hdisjoint⟩

/-- A graph is what its catalog loads, with combinations of that. -/
theorem exists_base_of_load {env : Env} {root : Value} {options : GraphLoadOptions}
    {graph : StrategyGraph} (hcatalog : valueSeq root "strategies" = none)
    (hload : loadForProtocolMode env root options = .ok graph) :
    ∃ base, parseCatalogStrategies env root options = .ok base ∧
      graph.nodes = base ++ combinedNodes options base := by
  cases hbase : baseNodes env root options with
  | error e =>
    rw [loadForProtocolMode, hbase] at hload
    cases hload
  | ok base =>
    exact ⟨base, parseCatalogStrategies_of_baseNodes hcatalog hbase,
      loadForProtocolMode_nodes hbase hload⟩

/-- A loaded node is a node of the catalog or combines two of them. -/
theorem mem_nodes_cases {env : Env} {root : Value} {options : GraphLoadOptions}
    {base : List StrategyNode} (hparse : parseCatalogStrategies env root options = .ok base)
    {n : StrategyNode} (hn : n ∈ base ++ combinedNodes options base) :
    n ∈ base ∨ ∃ i, ∃ first ∈ base, ∃ second ∈ base, argsIntersect first.args second.args = false ∧
      n = combinedNode options.protocolKey i (first, second) := by
  have hnodes := fun n hn => catalogNode_of_parseCatalogStrategies (n := n) hparse hn
  exact (List.mem_append.mp hn).imp_right (exists_pair_of_mem_combinedNodes hnodes)

theorem loadedNode_of_load {env : Env} {root : Value} {options : GraphLoadOptions}
    {graph : StrategyGraph} (hcatalog : valueSeq root "strategies" = none)
    (hload : loadForProtocolMode env root options = .ok graph) {n : StrategyNode}
    (hn : n ∈ graph.nodes) : LoadedNode n := by
  obtain ⟨base, hparse, hgraph⟩ := exists_base_of_load hcatalog hload
  have hnodes := fun n hn => catalogNode_of_parseCatalogStrategies (n := n) hparse hn
  rw [hgraph] at hn
  rcases mem_nodes_cases hparse hn with hn | ⟨i, first, hfirst, second, hsecond, hdisjoint, rfl⟩
  · exact (hnodes n hn).loadedNode
  · exact loadedNode_combinedNode (hnodes _ hfirst) (hnodes _ hsecond) hdisjoint i

/-- Every graph loaded from a catalog satisfies the invariant. -/
theorem loadedGraph {env : Env} {root : Value} {options : GraphLoadOptions} {graph : StrategyGraph}
    (hcatalog : valueSeq root "strategies" = none)
    (hload : loadForProtocolMode env root options = .ok graph) :
    LoadedGraph options.limits.maxCandidates graph := by
  obtain ⟨base, hparse, hgraph⟩ := exists_base_of_load hcatalog hload
  have hnodes := fun n hn => catalogNode_of_parseCatalogStrategies (n := n) hparse hn
  obtain ⟨hargs, -, hlen⟩ := nodup_of_parseCatalogStrategies hparse
  constructor
  case bounded =>
    have hcombined := length_combinedNodes_le options base
    rw [hgraph, List.length_append]
    omega
  case distinct =>
    rw [hgraph, List.map_append, List.nodup_append]
    refine ⟨hargs, nodup_combinedNodes options base, ?_⟩
    intro args hsingle args' hcombined he
    obtain ⟨n, hn, rfl⟩ := List.mem_map.mp hsingle
    obtain ⟨m, hm, rfl⟩ := List.mem_map.mp hcombined
    obtain ⟨i, first, hfirst, second, hsecond, -, rfl⟩ :=
      exists_pair_of_mem_combinedNodes hnodes hm
    -- one `--lua-desync` against two
    have htwo : luaCount (combinedNode options.protocolKey i (first, second)).args = 2 := by
      change luaCount (first.args ++ second.args) = 2
      rw [luaCount_append, (hnodes _ hfirst).luaCount, (hnodes _ hsecond).luaCount]
    rw [← he, (hnodes _ hn).luaCount] at htwo
    cases htwo
  case nodes => exact fun n hn => loadedNode_of_load hcatalog hload hn

/-- A graph of two single nodes and their combination. -/
theorem loadedGraph_fakeWsize : ∃ graph,
    loadForProtocolMode catalogEnv (smallCatalog [fakeFamily, wsizeFamily] [])
      (combiningOptions "fake" "wsize") = .ok graph ∧
    graph.nodes.length = 3 ∧ LoadedGraph noStrategyLimit graph := by
  obtain ⟨-, hload⟩ := load_fakeWsize
  exact ⟨_, hload, by decide +kernel, loadedGraph rfl hload⟩

end ZapretChecker.Graph
