import ZapretChecker.Graph.Pairs

/-!
# Configured combinations

When a load combines two nodes whose families the settings permit. The filters of
`generate_combined_nodes` drop a pair that shares any argument, and the renderer gives every standard
action of a protocol the same `--payload` option.

* `combined_iff` — exactly when the two nodes are combined
* `noEarlierPair_of_nulFree` — without a NUL no earlier pair stands in the way
* `argsIntersect_of_sameFilter` — a common `--payload` option is enough to drop a pair
-/

namespace ZapretChecker.Graph

open SortBy Collect

/-! ## The two nodes as a pair -/

/-- A pair of the sorted nodes is in the order of its components. -/
theorem orderedComponents_of_mem_pairs {nodes : List StrategyNode} {a b : StrategyNode}
    (h : (a, b) ∈ pairs (sortBy compareCombinationInput nodes)) (hid : a.id ≠ b.id) :
    orderedComponents a b = (a, b) ∧ orderedComponents b a = (a, b) := by
  have hle : (compareCombinationInput a b).isLE = true :=
    rel_of_mem_pairs (pairwise_sortBy compareCombinationInput nodes) h
  have hne : compareCombinationInput a b ≠ .eq := fun he => hid (id_eq_of_compareByRank he)
  have hlt : compareCombinationInput a b = .lt := by
    cases hc : compareCombinationInput a b with
    | lt => rfl
    | eq => exact absurd hc hne
    | gt =>
      rw [hc] at hle
      cases hle
  have hgt : compareCombinationInput b a = .gt := by
    rw [compareCombinationInput_swap, hlt]
    rfl
  unfold orderedComponents
  rw [hlt, hgt]
  exact ⟨rfl, rfl⟩

/-- Two base nodes form one pair, the one of their order. -/
theorem orderedComponents_mem_pairs {nodes : List StrategyNode} {a b : StrategyNode} (ha : a ∈ nodes)
    (hb : b ∈ nodes) (hid : a.id ≠ b.id) :
    orderedComponents a b ∈ pairs (sortBy compareCombinationInput nodes) := by
  have hne : a ≠ b := fun he => hid (he ▸ rfl)
  rcases mem_pairs_or (mem_sortBy.mpr ha) (mem_sortBy.mpr hb) hne with h | h
  · rw [(orderedComponents_of_mem_pairs h hid).1]
    exact h
  · rw [(orderedComponents_of_mem_pairs h hid.symm).2]
    exact h

theorem orderedComponents_eq (a b : StrategyNode) :
    orderedComponents a b = (a, b) ∨ orderedComponents a b = (b, a) := by
  unfold orderedComponents
  split
  · exact Or.inr rfl
  · exact Or.inl rfl

/-- The filters do not depend on the order of the two nodes. -/
theorem combinable_orderedComponents {protocolKey : String} {cfg : StrategyCombinationConfig}
    (a b : StrategyNode) :
    combinable protocolKey cfg (orderedComponents a b) = combinable protocolKey cfg (a, b) := by
  rcases orderedComponents_eq a b with h | h
  · rw [h]
  · rw [h, Bool.eq_iff_iff, combinable_iff, combinable_iff, argsIntersect_comm,
      StrategyCombinationConfig.pairAllowed_comm]
    simp only [ne_eq, eq_comm]

/-- No pair that passes the filters before the pair of `a` and `b` has its joined arguments. -/
def NoEarlierPair (protocolKey : String) (baseNodes : List StrategyNode)
    (cfg : StrategyCombinationConfig) (a b : StrategyNode) : Prop :=
  ∀ pair ∈ before (orderedComponents a b) (admittedPairs protocolKey baseNodes cfg),
    argsKey (combinedArgs pair) ≠ argsKey (combinedArgs (orderedComponents a b))

/-- What makes a combined node of two base nodes, the first component at the left. -/
structure Combines (protocolKey : String) (baseNodes : List StrategyNode)
    (cfg : StrategyCombinationConfig) (first second : StrategyNode) : Prop where
  enabled : cfg.enabled = true
  first_mem : first ∈ baseNodes
  second_mem : second ∈ baseNodes
  inOrder : orderedComponents first second = (first, second)
  filters : combinable protocolKey cfg (first, second) = true
  isNew : NoEarlierPair protocolKey baseNodes cfg first second

/-- The settings permit the two families for the protocol. -/
def FamiliesPermitted (protocolKey : String) (cfg : StrategyCombinationConfig)
    (familyA familyB : String) : Prop :=
  ∃ entry ∈ cfg.allowed, entry.permits protocolKey familyA familyB = true

theorem pairAllowed_of_permitted {protocolKey : String} {cfg : StrategyCombinationConfig}
    {f g : String} (henabled : cfg.enabled = true) (h : FamiliesPermitted protocolKey cfg f g) :
    cfg.mode = "force" ∨ cfg.pairAllowed protocolKey f g = true := by
  by_cases hmode : cfg.mode = "force"
  · exact Or.inl hmode
  · right
    obtain ⟨entry, hentry, hpermits⟩ := h
    unfold StrategyCombinationConfig.pairAllowed
    rw [henabled, Bool.not_true, if_neg Bool.false_ne_true, if_neg (by simpa using hmode),
      List.any_eq_true]
    exact ⟨entry, hentry, hpermits⟩

/-! ## When two nodes are combined -/

theorem mem_combinedPairs_iff {protocolKey key : String} {nodes : List StrategyNode}
    (hnodes : ∀ n ∈ nodes, CatalogNode protocolKey n) {cfg : StrategyCombinationConfig}
    {first second : StrategyNode} :
    (first, second) ∈ combinedPairs key nodes cfg ↔ Combines key nodes cfg first second := by
  constructor
  · intro hmem
    obtain ⟨hpairs, hfilters⟩ := mem_combinedPairs hmem
    obtain ⟨hfirst, hsecond⟩ := mem_of_mem_combinedPairs hnodes hmem
    rw [combinationInput_eq hnodes] at hpairs
    have hinOrder := (orderedComponents_of_mem_pairs hpairs (combinable_iff.mp hfilters).1).1
    obtain ⟨hadmitted, hnew⟩ := mem_firstOf_iff_before.mp hmem
    refine ⟨?_, hfirst, hsecond, hinOrder, hfilters, ?_⟩
    · by_contra henabled
      rw [admittedPairs, if_neg henabled] at hadmitted
      exact List.not_mem_nil hadmitted
    · unfold NoEarlierPair
      rw [hinOrder]
      exact hnew
  · intro h
    have hpairs := orderedComponents_mem_pairs h.first_mem h.second_mem
      (combinable_iff.mp h.filters).1
    have hnew := h.isNew
    unfold NoEarlierPair at hnew
    rw [h.inOrder] at hpairs hnew
    refine mem_firstOf_iff_before.mpr ⟨?_, hnew⟩
    rw [admittedPairs, if_pos h.enabled, combinationInput_eq hnodes]
    exact List.mem_filter.mpr ⟨hpairs, h.filters⟩

section Base

variable {protocolKey key : String} {nodes : List StrategyNode}
  (hnodes : ∀ n ∈ nodes, CatalogNode protocolKey n) (hargs : (nodes.map (·.args)).Nodup)
  {cfg : StrategyCombinationConfig} {a b : StrategyNode} (ha : a ∈ nodes) (hb : b ∈ nodes)
include hnodes hargs ha hb

/-- A combined node tells the pair it is made of. -/
theorem pair_of_components {pair : StrategyNode × StrategyNode}
    (hpair : pair ∈ combinedPairs key nodes cfg) {i : Nat}
    (h : (combinedNode key i pair).components = [componentOf a, componentOf b]) :
    pair = (a, b) := by
  obtain ⟨hfirst, hsecond⟩ := mem_of_mem_combinedPairs hnodes hpair
  obtain ⟨hca, hcb⟩ := List.cons.inj h
  have hfa : pair.1 = a :=
    List.inj_on_of_nodup_map hargs hfirst ha (congrArg StrategyComponent.args hca)
  have hfb : pair.2 = b :=
    List.inj_on_of_nodup_map hargs hsecond hb
      (congrArg StrategyComponent.args (List.cons.inj hcb).1)
  exact Prod.ext hfa hfb

/-- Two nodes are combined when their pair is among the combined ones. -/
theorem exists_combinedNode_iff (hids : (nodes.map (·.id)).Nodup) (hab : a ≠ b) :
    (∃ n ∈ generateCombinedNodes key nodes cfg,
      n.components = [componentOf a, componentOf b] ∨
        n.components = [componentOf b, componentOf a]) ↔
      orderedComponents a b ∈ combinedPairs key nodes cfg := by
  have hid : a.id ≠ b.id := fun he => hab (List.inj_on_of_nodup_map hids ha hb he)
  constructor
  · rintro ⟨n, hn, hcomponents⟩
    obtain ⟨i, hi, rfl⟩ := mem_generateCombinedNodes.mp hn
    have hmem := List.getElem_mem hi
    have hpairs := (mem_combinedPairs hmem).1
    rw [combinationInput_eq hnodes] at hpairs
    rcases hcomponents with h | h
    · have he := pair_of_components hnodes hargs ha hb hmem h
      rw [he] at hmem hpairs
      rw [(orderedComponents_of_mem_pairs hpairs hid).1]
      exact hmem
    · have he := pair_of_components hnodes hargs hb ha hmem h
      rw [he] at hmem hpairs
      rw [(orderedComponents_of_mem_pairs hpairs hid.symm).2]
      exact hmem
  · intro hmem
    obtain ⟨i, hi, he⟩ := List.getElem_of_mem hmem
    refine ⟨_, mem_generateCombinedNodes.mpr ⟨i, hi, rfl⟩, ?_⟩
    rw [he]
    rcases orderedComponents_eq a b with h | h
    · exact Or.inl (by rw [h]; rfl)
    · exact Or.inr (by rw [h]; rfl)

omit hargs in
/-- The pair of two permitted nodes is combined when the nodes share no argument. -/
theorem orderedComponents_mem_combinedPairs_iff (hids : (nodes.map (·.id)).Nodup) (hab : a ≠ b)
    (henabled : cfg.enabled = true) (hfamilies : FamiliesPermitted key cfg a.family b.family)
    (hfamily : a.family ≠ b.family) (haction : a.actionId ≠ b.actionId) :
    orderedComponents a b ∈ combinedPairs key nodes cfg ↔
      argsIntersect a.args b.args = false ∧ NoEarlierPair key nodes cfg a b := by
  have hid : a.id ≠ b.id := fun he => hab (List.inj_on_of_nodup_map hids ha hb he)
  have hadmitted : orderedComponents a b ∈ admittedPairs key nodes cfg ↔
      argsIntersect a.args b.args = false := by
    rw [admittedPairs, if_pos henabled, List.mem_filter, combinable_orderedComponents,
      combinable_iff, combinationInput_eq hnodes]
    constructor
    · exact fun h => h.2.2.2.2.1
    · exact fun h => ⟨orderedComponents_mem_pairs ha hb hid, hid, fun hc => hfamily hc.2,
        fun hc => haction hc.2, h, pairAllowed_of_permitted henabled hfamilies⟩
  unfold combinedPairs
  rw [mem_firstOf_iff_before, hadmitted]
  exact Iff.rfl

end Base

/-- The base nodes of a load and its combined nodes. -/
theorem loadForProtocolMode_nodes {env : Env} {root : Value} {options : GraphLoadOptions}
    {graph : StrategyGraph} {base : List StrategyNode}
    (hbase : baseNodes env root options = .ok base)
    (hload : loadForProtocolMode env root options = .ok graph) :
    graph.nodes = base ++ combinedNodes options base := by
  unfold loadForProtocolMode at hload
  rw [hbase] at hload
  rw [← Except.ok.inj hload]

theorem parseCatalogStrategies_of_baseNodes {env : Env} {root : Value} {options : GraphLoadOptions}
    {base : List StrategyNode} (hcatalog : valueSeq root "strategies" = none)
    (hbase : baseNodes env root options = .ok base) :
    parseCatalogStrategies env root options = .ok base := by
  unfold baseNodes at hbase
  rwa [hcatalog] at hbase

/--
Two base nodes of permitted families with different actions are combined exactly when they share no
argument and no earlier pair has their joined arguments.
-/
theorem combined_iff {env : Env} {root : Value} {options : GraphLoadOptions}
    {graph : StrategyGraph} {base : List StrategyNode} {cfg : StrategyCombinationConfig}
    {a b : StrategyNode} (hcatalog : valueSeq root "strategies" = none)
    (hbase : baseNodes env root options = .ok base)
    (hload : loadForProtocolMode env root options = .ok graph)
    (hcfg : options.strategyCombinations = some cfg) (henabled : cfg.enabled = true)
    (ha : a ∈ base) (hb : b ∈ base)
    (hfamilies : FamiliesPermitted options.protocolKey cfg a.family b.family)
    (hfamily : a.family ≠ b.family) (haction : a.actionId ≠ b.actionId)
    (hunlimited : base.length + (generateCombinedNodes options.protocolKey base cfg).length ≤
      options.limits.maxCandidates) :
    (∃ n ∈ graph.nodes, n.isCombined = true ∧
      (n.components = [componentOf a, componentOf b] ∨
        n.components = [componentOf b, componentOf a])) ↔
      argsIntersect a.args b.args = false ∧
        NoEarlierPair options.protocolKey base cfg a b := by
  have hparse := parseCatalogStrategies_of_baseNodes hcatalog hbase
  have hnodes := fun n hn => catalogNode_of_parseCatalogStrategies (n := n) hparse hn
  obtain ⟨hargs, hids, -⟩ := nodup_of_parseCatalogStrategies hparse
  have hab : a ≠ b := fun he => hfamily (he ▸ rfl)
  rw [← orderedComponents_mem_combinedPairs_iff hnodes ha hb hids hab henabled hfamilies
    hfamily haction, ← exists_combinedNode_iff hnodes hargs ha hb hids hab,
    loadForProtocolMode_nodes hbase hload]
  have hcombined : combinedNodes options base =
      generateCombinedNodes options.protocolKey base cfg := by
    rw [combinedNodes, hcfg]
    exact List.take_of_length_le (by omega)
  rw [hcombined]
  constructor
  · rintro ⟨n, hn, hisCombined, hcomponents⟩
    -- a base node is not combined
    rcases List.mem_append.mp hn with hn | hn
    · rw [(hnodes n hn).isSingle] at hisCombined
      cases hisCombined
    · exact ⟨n, hn, hcomponents⟩
  · rintro ⟨n, hn, hcomponents⟩
    refine ⟨n, List.mem_append_right _ hn, ?_, hcomponents⟩
    obtain ⟨i, hi, rfl⟩ := mem_generateCombinedNodes.mp hn
    rfl

theorem load_fakeWsize :
    baseNodes catalogEnv (smallCatalog [fakeFamily, wsizeFamily] [])
      (combiningOptions "fake" "wsize") = .ok [fakeNode 0, wsizeNode 1] ∧
    loadForProtocolMode catalogEnv (smallCatalog [fakeFamily, wsizeFamily] [])
      (combiningOptions "fake" "wsize") = .ok ⟨[fakeNode 0, wsizeNode 1] ++
        combinedNodes (combiningOptions "fake" "wsize") [fakeNode 0, wsizeNode 1]⟩ := by
  have hbase : baseNodes catalogEnv (smallCatalog [fakeFamily, wsizeFamily] [])
      (combiningOptions "fake" "wsize") = .ok [fakeNode 0, wsizeNode 1] := by decide +kernel
  refine ⟨hbase, ?_⟩
  rw [loadForProtocolMode, hbase]
  rfl

/-- `fake` and `wsize` share no argument, so their nodes are combined. -/
theorem combined_iff_fakeWsize : ∃ graph,
    loadForProtocolMode catalogEnv (smallCatalog [fakeFamily, wsizeFamily] [])
      (combiningOptions "fake" "wsize") = .ok graph ∧
    ∃ n ∈ graph.nodes, n.isCombined = true ∧
      (n.components = [componentOf (fakeNode 0), componentOf (wsizeNode 1)] ∨
        n.components = [componentOf (wsizeNode 1), componentOf (fakeNode 0)]) := by
  obtain ⟨hbase, hload⟩ := load_fakeWsize
  refine ⟨_, hload, (combined_iff rfl hbase hload rfl rfl (by decide) (by decide)
    ⟨_, List.mem_singleton_self _, by decide⟩ (by decide) (by decide) ?_).mpr ⟨by decide, ?_⟩⟩
  · decide +kernel
  · unfold NoEarlierPair
    decide +kernel

/--
The settings permit `fake` with `split`, and the catalog has a node of each, with different actions
and different `--lua-desync` options. They share the `--payload` option and are not combined.
-/
theorem not_combined_fakeSplit : ∃ graph,
    loadForProtocolMode catalogEnv (smallCatalog [fakeFamily, splitFamily] [])
      (combiningOptions "fake" "split") = .ok graph ∧
    validateStrategyCombinations (smallCombinations "fake" "split") = .ok () ∧
    FamiliesPermitted "tls12" (smallCombinations "fake" "split") "fake" "split" ∧
    baseNodes catalogEnv (smallCatalog [fakeFamily, splitFamily] [])
      (combiningOptions "fake" "split") = .ok [splitNode 0, fakeNode 1] ∧
    (splitNode 0).actionId ≠ (fakeNode 1).actionId ∧
    (splitNode 0).args.filter (isOption "--lua-desync") ≠
      (fakeNode 1).args.filter (isOption "--lua-desync") ∧
    ¬ ∃ n ∈ graph.nodes, n.isCombined = true := by
  have hbase : baseNodes catalogEnv (smallCatalog [fakeFamily, splitFamily] [])
      (combiningOptions "fake" "split") = .ok [splitNode 0, fakeNode 1] := by decide +kernel
  have hload : loadForProtocolMode catalogEnv (smallCatalog [fakeFamily, splitFamily] [])
      (combiningOptions "fake" "split") = .ok ⟨[splitNode 0, fakeNode 1] ++
        combinedNodes (combiningOptions "fake" "split") [splitNode 0, fakeNode 1]⟩ := by
    rw [loadForProtocolMode, hbase]
    rfl
  refine ⟨_, hload, by decide, ⟨_, List.mem_singleton_self _, by decide⟩, hbase, by decide,
    by decide +kernel, ?_⟩
  decide +kernel

/-! ## What the condition says -/

theorem CatalogNode.exists_toArgs {protocolKey : String} {n : StrategyNode}
    (hn : CatalogNode protocolKey n) : ∃ s : SingleArgs, n.args = s.toArgs := by
  obtain ⟨lua, -, hargs⟩ := hn.rendered
  obtain ⟨s, hs, -⟩ := finalizeArgs_eq protocolKey lua
  exact ⟨s, hargs.trans hs⟩

/-- Where no argument contains a NUL, different pairs have different joined arguments. -/
theorem noEarlierPair_of_nulFree {protocolKey key : String} {nodes : List StrategyNode}
    (hnodes : ∀ n ∈ nodes, CatalogNode protocolKey n) (hargs : (nodes.map (·.args)).Nodup)
    (hnul : ∀ n ∈ nodes, ∀ arg ∈ n.args, '\x00' ∉ arg.toList) {cfg : StrategyCombinationConfig}
    {a b : StrategyNode} (ha : a ∈ nodes) (hb : b ∈ nodes) : NoEarlierPair key nodes cfg a b := by
  have hne : ∀ n ∈ nodes, ∀ l, n.args ++ l ≠ [] := by
    intro n hn l
    obtain ⟨lua, -, hlua⟩ := (hnodes n hn).rendered
    rw [hlua]
    exact List.append_ne_nil_of_left_ne_nil (finalizeArgs_ne_nil _ _) _
  have hnulPair : ∀ x ∈ nodes, ∀ y ∈ nodes, ∀ arg ∈ x.args ++ y.args, '\x00' ∉ arg.toList := by
    intro x hx y hy arg harg
    rcases List.mem_append.mp harg with h | h
    · exact hnul x hx arg h
    · exact hnul y hy arg h
  -- equal keys are equal concatenations, which fall apart after the first `--lua-desync`
  obtain ⟨hx, hy⟩ : (orderedComponents a b).1 ∈ nodes ∧ (orderedComponents a b).2 ∈ nodes := by
    rcases orderedComponents_eq a b with h | h
    · rw [h]
      exact ⟨ha, hb⟩
    · rw [h]
      exact ⟨hb, ha⟩
  intro pair hpair hkey
  obtain ⟨hadmitted, hother⟩ := mem_of_mem_before hpair
  unfold admittedPairs at hadmitted
  split at hadmitted
  · rw [combinationInput_eq hnodes] at hadmitted
    obtain ⟨hfirst, hsecond⟩ := mem_of_mem_pairs (List.mem_filter.mp hadmitted).1
    have hfirst := mem_sortBy.mp hfirst
    have hsecond := mem_sortBy.mp hsecond
    have happend := argsKey_inj (hne _ hfirst _) (hne _ hx _) (hnulPair _ hfirst _ hsecond)
      (hnulPair _ hx _ hy) hkey
    obtain ⟨s, hs⟩ := (hnodes _ hfirst).exists_toArgs
    obtain ⟨t, ht⟩ := (hnodes _ hx).exists_toArgs
    rw [hs, ht] at happend
    obtain ⟨heq, hrest⟩ := SingleArgs.append_inj happend
    exact hother (Prod.ext
      (List.inj_on_of_nodup_map hargs hfirst hx (hs.trans (heq.trans ht.symm)))
      (List.inj_on_of_nodup_map hargs hsecond hy hrest))
  · exact absurd hadmitted List.not_mem_nil

/-- Two variants with the same `--payload` filter share an argument, so they are never combined. -/
theorem argsIntersect_of_sameFilter {protocolKey lua lua' payload : String}
    (h : luaFilter protocolKey (resolvedLua lua) = some payload)
    (h' : luaFilter protocolKey (resolvedLua lua') = some payload) :
    argsIntersect (finalizeArgs protocolKey lua) (finalizeArgs protocolKey lua') = true := by
  have hmem : ∀ l, luaFilter protocolKey (resolvedLua l) = some payload →
      "--payload=" ++ payload ∈ finalizeArgs protocolKey l := by
    intro l hl
    obtain ⟨s, hs, -, hfilter, -⟩ := finalizeArgs_eq protocolKey l
    rw [hs, SingleArgs.toArgs, hfilter, hl]
    simp
  rw [← Bool.not_eq_false, argsIntersect_eq_false_iff]
  exact fun hdisjoint => hdisjoint _ (hmem lua h) (hmem lua' h')

end ZapretChecker.Graph
