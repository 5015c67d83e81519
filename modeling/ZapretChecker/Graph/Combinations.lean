import ZapretChecker.Graph.Pairs

/-!
# The combinations are exact

`generate_combined_nodes` loops over the pairs of a sorted list and drops repeated argument lists.
What it gives does not depend on the order of the base nodes, and neither misses a pair nor gives
one twice.

* `mem_pairs_iff` — the pairs of a sorted list
* `combinationInput_perm` — the sorted list, for any order of the base nodes
* `combinations_exact` — the argument lists
-/

namespace ZapretChecker.Graph

open SortBy Collect

/-! ## Pairs of a sorted list -/

/-- In a sorted list the smaller element of a pair stands at the left. -/
theorem mem_pairs_iff {α : Type*} {r : α → α → Prop} (hasymm : ∀ a b, r a b → ¬ r b a)
    {l : List α} (hl : l.Pairwise r) {a b : α} :
    (a, b) ∈ pairs l ↔ a ∈ l ∧ b ∈ l ∧ r a b := by
  constructor
  · intro h
    obtain ⟨ha, hb⟩ := mem_of_mem_pairs h
    exact ⟨ha, hb, rel_of_mem_pairs hl h⟩
  · rintro ⟨ha, hb, hr⟩
    have hne : a ≠ b := by
      rintro rfl
      exact hasymm a a hr hr
    rcases mem_pairs_or ha hb hne with h | h
    · exact h
    · exact absurd (rel_of_mem_pairs hl h) (hasymm a b hr)

/-! ## The sorted nodes -/

@[simp] theorem normalizeSingleNode_id (n : StrategyNode) : (normalizeSingleNode n).id = n.id := by
  unfold normalizeSingleNode
  split <;> rfl

@[simp] theorem normalizeSingleNode_family (n : StrategyNode) :
    (normalizeSingleNode n).family = n.family := by
  unfold normalizeSingleNode
  split <;> rfl

@[simp] theorem normalizeSingleNode_actionId (n : StrategyNode) :
    (normalizeSingleNode n).actionId = n.actionId := by
  unfold normalizeSingleNode
  split <;> rfl

/-- Filling in the components does not change the rank of a node. -/
theorem compareCombinationInput_normalize (a b : StrategyNode) :
    compareCombinationInput (normalizeSingleNode a) (normalizeSingleNode b) =
      compareCombinationInput a b := by
  simp [compareCombinationInput, compareByRank, compareLex, compareOn]

/-- The nodes that may be combined. -/
def singleNodes (baseNodes : List StrategyNode) : List StrategyNode :=
  baseNodes.filter fun node => !node.isCombined && !isLegacy node.actionId

theorem mem_singleNodes {baseNodes : List StrategyNode} {n : StrategyNode} :
    n ∈ singleNodes baseNodes ↔
      n ∈ baseNodes ∧ n.isCombined = false ∧ isLegacy n.actionId = false := by
  simp [singleNodes]

theorem mem_combinationInput {baseNodes : List StrategyNode} {n : StrategyNode} :
    n ∈ combinationInput baseNodes ↔ ∃ m ∈ singleNodes baseNodes, normalizeSingleNode m = n := by
  rw [combinationInput, mem_sortBy, List.mem_map]
  rfl

/-- Base nodes with the same id are the same. -/
theorem eq_of_id {baseNodes : List StrategyNode} (hids : (baseNodes.map (·.id)).Nodup)
    {m n : StrategyNode} (hm : m ∈ baseNodes) (hn : n ∈ baseNodes) (h : m.id = n.id) : m = n :=
  List.inj_on_of_nodup_map hids hm hn h

theorem combinationInput_perm {baseNodes baseNodes' : List StrategyNode}
    (hids : (baseNodes.map (·.id)).Nodup) (h : baseNodes.Perm baseNodes') :
    combinationInput baseNodes = combinationInput baseNodes' := by
  refine sortBy_eq_of_perm ((h.filter _).map _) ?_
  intro a ha b hb hcmp
  obtain ⟨m, hm, rfl⟩ := List.mem_map.mp ha
  obtain ⟨n, hn, rfl⟩ := List.mem_map.mp hb
  have hid := id_eq_of_compareByRank hcmp
  rw [normalizeSingleNode_id, normalizeSingleNode_id] at hid
  rw [eq_of_id hids (List.mem_of_mem_filter hm) (List.mem_of_mem_filter hn) hid]

/-- No two of the sorted nodes compare equal. -/
theorem pairwise_combinationInput {baseNodes : List StrategyNode}
    (hids : (baseNodes.map (·.id)).Nodup) :
    (combinationInput baseNodes).Pairwise fun a b => compareCombinationInput a b = .lt := by
  have hid : ∀ a b, compareCombinationInput a b = .eq → a.id = b.id :=
    fun _ _ => id_eq_of_compareByRank
  refine pairwise_lt_sortBy hid ?_
  have hmap : ((singleNodes baseNodes).map normalizeSingleNode).map (·.id) =
      (singleNodes baseNodes).map (·.id) := by
    rw [List.map_map]
    exact List.map_congr_left fun n _ => normalizeSingleNode_id n
  rw [← singleNodes, hmap]
  exact (List.filter_sublist.map _).nodup hids

/-! ## The combinations -/

/-- The two base nodes are to be combined, `first` being the smaller one. -/
structure Combination (protocolKey : String) (cfg : StrategyCombinationConfig)
    (baseNodes : List StrategyNode) (first second : StrategyNode) : Prop where
  first_mem : first ∈ singleNodes baseNodes
  second_mem : second ∈ singleNodes baseNodes
  ordered : compareCombinationInput first second = .lt
  disjoint : ∀ arg ∈ first.args, arg ∉ second.args
  family : cfg.requireDifferentFamily = true → first.family ≠ second.family
  action : cfg.allowSameAction = false → first.actionId ≠ second.actionId
  allowed : cfg.mode ≠ "force" → cfg.pairAllowed protocolKey first.family second.family = true

theorem not_ordered_swap {m n : StrategyNode} (h : compareCombinationInput m n = .lt) :
    ¬ compareCombinationInput n m = .lt := by
  intro hswap
  rw [compareCombinationInput_swap, h] at hswap
  cases hswap

theorem id_ne_of_ordered {baseNodes : List StrategyNode} (hids : (baseNodes.map (·.id)).Nodup)
    {m n : StrategyNode} (hm : m ∈ baseNodes) (hn : n ∈ baseNodes)
    (h : compareCombinationInput m n = .lt) : m.id ≠ n.id := by
  intro hid
  obtain rfl := eq_of_id hids hm hn hid
  exact not_ordered_swap h h

/-- The filters of the loop, on two different nodes. -/
theorem combinable_iff_of_ne {protocolKey : String} {cfg : StrategyCombinationConfig}
    {first second : StrategyNode} (hid : first.id ≠ second.id) :
    combinable protocolKey cfg (first, second) = true ↔
      (∀ arg ∈ first.args, arg ∉ second.args) ∧
      (cfg.requireDifferentFamily = true → first.family ≠ second.family) ∧
      (cfg.allowSameAction = false → first.actionId ≠ second.actionId) ∧
      (cfg.mode ≠ "force" → cfg.pairAllowed protocolKey first.family second.family = true) := by
  rw [combinable_iff, argsIntersect_eq_false_iff]
  constructor
  · rintro ⟨-, hfamily, haction, hargs, hallowed⟩
    exact ⟨hargs, fun hr hf => hfamily ⟨hr, hf⟩, fun hs ha => haction ⟨hs, ha⟩,
      fun hmode => hallowed.resolve_left hmode⟩
  · rintro ⟨hargs, hfamily, haction, hallowed⟩
    refine ⟨hid, fun h => hfamily h.1 h.2, fun h => haction h.1 h.2, hargs, ?_⟩
    by_cases hmode : cfg.mode = "force"
    · exact Or.inl hmode
    · exact Or.inr (hallowed hmode)

/-- The pairs the loop comes to, as base nodes. -/
theorem mem_admittedPairs_iff {protocolKey : String} {cfg : StrategyCombinationConfig}
    {baseNodes : List StrategyNode} (hids : (baseNodes.map (·.id)).Nodup)
    (henabled : cfg.enabled = true) {pair : StrategyNode × StrategyNode} :
    pair ∈ admittedPairs protocolKey baseNodes cfg ↔
      ∃ first second, Combination protocolKey cfg baseNodes first second ∧
        pair = (normalizeSingleNode first, normalizeSingleNode second) := by
  obtain ⟨a, b⟩ := pair
  rw [admittedPairs, if_pos henabled, List.mem_filter,
    mem_pairs_iff (fun _ _ => not_ordered_swap) (pairwise_combinationInput hids), mem_combinationInput,
    mem_combinationInput]
  constructor
  · rintro ⟨⟨⟨first, hfirst, rfl⟩, ⟨second, hsecond, rfl⟩, hlt⟩, hcomb⟩
    rw [compareCombinationInput_normalize] at hlt
    have hid := id_ne_of_ordered hids (mem_singleNodes.mp hfirst).1 (mem_singleNodes.mp hsecond).1
      hlt
    rw [combinable_iff_of_ne (by simpa using hid)] at hcomb
    simp only [normalizeSingleNode_args, normalizeSingleNode_family,
      normalizeSingleNode_actionId] at hcomb
    obtain ⟨hargs, hfamily, haction, hallowed⟩ := hcomb
    exact ⟨first, second, ⟨hfirst, hsecond, hlt, hargs, hfamily, haction, hallowed⟩, rfl⟩
  · rintro ⟨first, second, h, he⟩
    obtain ⟨rfl, rfl⟩ := Prod.mk.inj he
    have hid := id_ne_of_ordered hids (mem_singleNodes.mp h.first_mem).1
      (mem_singleNodes.mp h.second_mem).1 h.ordered
    refine ⟨⟨⟨first, h.first_mem, rfl⟩, ⟨second, h.second_mem, rfl⟩, ?_⟩, ?_⟩
    · rw [compareCombinationInput_normalize]
      exact h.ordered
    · rw [combinable_iff_of_ne (by simpa using hid)]
      simp only [normalizeSingleNode_args, normalizeSingleNode_family,
        normalizeSingleNode_actionId]
      exact ⟨h.disjoint, h.family, h.action, h.allowed⟩

theorem map_args_generateCombinedNodes (protocolKey : String) (baseNodes : List StrategyNode)
    (cfg : StrategyCombinationConfig) :
    (generateCombinedNodes protocolKey baseNodes cfg).map (·.args) =
      (combinedPairs protocolKey baseNodes cfg).map combinedArgs := by
  have hargs : ∀ i pair, (combinedNode protocolKey i pair).args = combinedArgs pair :=
    fun _ _ => rfl
  rw [generateCombinedNodes_eq]
  exact map_mapIdx_of_forall hargs _

/-- A combination has arguments, and none of them contains a NUL. -/
theorem Combination.keyed {protocolKey : String} {cfg : StrategyCombinationConfig}
    {baseNodes : List StrategyNode}
    (hargs : ∀ n ∈ baseNodes, n.args ≠ [] ∧ ∀ arg ∈ n.args, '\x00' ∉ arg.toList)
    {first second : StrategyNode} (h : Combination protocolKey cfg baseNodes first second) :
    first.args ++ second.args ≠ [] ∧ ∀ arg ∈ first.args ++ second.args, '\x00' ∉ arg.toList := by
  obtain ⟨hne, hnul⟩ := hargs _ (mem_singleNodes.mp h.first_mem).1
  obtain ⟨-, hnul'⟩ := hargs _ (mem_singleNodes.mp h.second_mem).1
  refine ⟨fun he => hne (List.append_eq_nil_iff.mp he).1, fun arg harg => ?_⟩
  rcases List.mem_append.mp harg with harg | harg
  · exact hnul arg harg
  · exact hnul' arg harg

/--
**The combinations are exact.** The argument lists of the combined nodes are those of the pairs of
base nodes that are to be combined, each once, and the order of the base nodes does not matter.
-/
theorem combinations_exact {protocolKey : String} {cfg : StrategyCombinationConfig}
    {baseNodes : List StrategyNode} (hids : (baseNodes.map (·.id)).Nodup)
    (hargs : ∀ n ∈ baseNodes, n.args ≠ [] ∧ ∀ arg ∈ n.args, '\x00' ∉ arg.toList)
    (henabled : cfg.enabled = true) :
    ((generateCombinedNodes protocolKey baseNodes cfg).map (·.args)).Nodup ∧
      (∀ args, args ∈ (generateCombinedNodes protocolKey baseNodes cfg).map (·.args) ↔
        ∃ first second, Combination protocolKey cfg baseNodes first second ∧
          args = first.args ++ second.args) ∧
      ∀ baseNodes', baseNodes.Perm baseNodes' →
        generateCombinedNodes protocolKey baseNodes' cfg =
          generateCombinedNodes protocolKey baseNodes cfg := by
  refine ⟨?_, fun args => ?_, fun baseNodes' hperm => ?_⟩
  · rw [map_args_generateCombinedNodes]
    have hnodup := nodup_combinedPairs protocolKey baseNodes cfg
    rw [map_argsKey] at hnodup
    exact List.Nodup.of_map argsKey hnodup
  · rw [map_args_generateCombinedNodes, List.mem_map]
    constructor
    · rintro ⟨pair, hpair, rfl⟩
      have hadmitted := (firstOf_sublist _ _ _).subset hpair
      obtain ⟨first, second, h, rfl⟩ := (mem_admittedPairs_iff hids henabled).mp hadmitted
      exact ⟨first, second, h, by simp [combinedArgs]⟩
    · rintro ⟨first, second, h, rfl⟩
      -- the loop comes to the pair, and collects its key with the first pair that has it
      have hadmitted := (mem_admittedPairs_iff hids henabled).mpr ⟨first, second, h, rfl⟩
      have hkey : argsKey (first.args ++ second.args) ∈
          (combinedPairs protocolKey baseNodes cfg).map fun pair => argsKey (combinedArgs pair) := by
        refine key_mem_firstOf_iff.mpr ⟨List.mem_map.mpr ⟨_, hadmitted, ?_⟩, List.not_mem_nil⟩
        simp [combinedArgs]
      obtain ⟨pair, hpair, he⟩ := List.mem_map.mp hkey
      obtain ⟨first', second', h', rfl⟩ :=
        (mem_admittedPairs_iff hids henabled).mp ((firstOf_sublist _ _ _).subset hpair)
      refine ⟨_, hpair, ?_⟩
      simp only [combinedArgs, normalizeSingleNode_args] at he ⊢
      exact argsKey_inj (h'.keyed hargs).1 (h.keyed hargs).1 (h'.keyed hargs).2 (h.keyed hargs).2 he
  · unfold generateCombinedNodes
    rw [combinationInput_perm hids hperm]

/-- Settings that let the families `fake` and `wsize` be combined. -/
def fakeWsizeConfig : StrategyCombinationConfig where
  enabled := true
  requireDifferentFamily := true
  allowSameAction := false
  mode := "pairwise"
  allowed := [{ protocols := ["tls12"], families := ["wsize", "fake"] }]

theorem combinations_exact_fakeWsize :
    let out := generateCombinedNodes "tls12" [wsizeNode 0, fakeNode 1] fakeWsizeConfig
    (out.map (·.args)).Nodup ∧
      (∀ args, args ∈ out.map (·.args) ↔
        ∃ first second, Combination "tls12" fakeWsizeConfig [wsizeNode 0, fakeNode 1]
          first second ∧ args = first.args ++ second.args) ∧
      ∀ baseNodes', [wsizeNode 0, fakeNode 1].Perm baseNodes' →
        generateCombinedNodes "tls12" baseNodes' fakeWsizeConfig = out :=
  combinations_exact (by decide) (by decide +kernel) rfl

end ZapretChecker.Graph
