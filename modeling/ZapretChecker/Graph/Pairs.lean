import ZapretChecker.Graph.Catalog

/-!
# Which nodes are combined

`combinedPairs` are the pairs behind the combined nodes: every two base nodes that pass the filters,
in a fixed order, without those whose arguments an earlier pair has.
-/

namespace ZapretChecker.Graph

open SortBy Collect

/-! ## Pairs of a list -/

section Pairs

variable {α : Type*}

theorem mem_of_mem_pairs {l : List α} {a b : α} (h : (a, b) ∈ pairs l) : a ∈ l ∧ b ∈ l := by
  induction l with
  | nil => exact absurd h List.not_mem_nil
  | cons x l ih =>
    rw [pairs, List.mem_append, List.mem_map] at h
    rcases h with ⟨y, hy, he⟩ | h
    · obtain ⟨rfl, rfl⟩ := Prod.mk.inj he
      exact ⟨List.mem_cons_self, List.mem_cons_of_mem _ hy⟩
    · exact ⟨List.mem_cons_of_mem x (ih h).1, List.mem_cons_of_mem x (ih h).2⟩

/-- Two different elements are a pair, in one order or the other. -/
theorem mem_pairs_or {l : List α} {a b : α} (ha : a ∈ l) (hb : b ∈ l) (hne : a ≠ b) :
    (a, b) ∈ pairs l ∨ (b, a) ∈ pairs l := by
  induction l with
  | nil => exact absurd ha List.not_mem_nil
  | cons x l ih =>
    rw [pairs, List.mem_append, List.mem_append, List.mem_map, List.mem_map]
    rcases List.mem_cons.mp ha with rfl | ha'
    · have hb' := (List.mem_cons.mp hb).resolve_left (Ne.symm hne)
      exact Or.inl (Or.inl ⟨b, hb', rfl⟩)
    · rcases List.mem_cons.mp hb with rfl | hb'
      · exact Or.inr (Or.inl ⟨a, ha', rfl⟩)
      · rcases ih ha' hb' with h | h
        · exact Or.inl (Or.inr h)
        · exact Or.inr (Or.inr h)

/-- The pairs of a list keep its order. -/
theorem rel_of_mem_pairs {r : α → α → Prop} {l : List α} (hl : l.Pairwise r) {a b : α}
    (h : (a, b) ∈ pairs l) : r a b := by
  induction l with
  | nil => exact absurd h List.not_mem_nil
  | cons x l ih =>
    obtain ⟨hx, hl⟩ := List.pairwise_cons.mp hl
    rw [pairs, List.mem_append, List.mem_map] at h
    rcases h with ⟨y, hy, he⟩ | h
    · obtain ⟨rfl, rfl⟩ := Prod.mk.inj he
      exact hx _ hy
    · exact ih hl h

end Pairs

/-! ## The combined pairs -/

/-- The pairs that pass the filters. -/
def admittedPairs (protocolKey : String) (baseNodes : List StrategyNode)
    (cfg : StrategyCombinationConfig) : List (StrategyNode × StrategyNode) :=
  if cfg.enabled then (pairs (combinationInput baseNodes)).filter (combinable protocolKey cfg)
  else []

/-- Those whose arguments no earlier pair has. -/
def combinedPairs (protocolKey : String) (baseNodes : List StrategyNode)
    (cfg : StrategyCombinationConfig) : List (StrategyNode × StrategyNode) :=
  firstOf (fun pair => argsKey (combinedArgs pair)) [] (admittedPairs protocolKey baseNodes cfg)

theorem compareCombinationInput_swap (a b : StrategyNode) :
    compareCombinationInput b a = (compareCombinationInput a b).swap :=
  Std.OrientedCmp.eq_swap

/-- The nodes are sorted before they are paired, so the pairs are in order already. -/
theorem map_orderedComponents_pairs (l : List StrategyNode) :
    (pairs (sortBy compareCombinationInput l)).map (fun (a, b) => orderedComponents a b) =
      pairs (sortBy compareCombinationInput l) := by
  conv_rhs => rw [← List.map_id (pairs (sortBy compareCombinationInput l))]
  apply List.map_congr_left
  rintro ⟨a, b⟩ h
  -- sorted: the left node does not belong behind the right one
  have hle := rel_of_mem_pairs (pairwise_sortBy compareCombinationInput l) h
  have hgt : compareCombinationInput a b ≠ .gt := by
    intro hgt
    rw [NotAfter, hgt] at hle
    cases hle
  change orderedComponents a b = (a, b)
  rw [orderedComponents, if_neg hgt]

theorem generateCombinedNodes_eq (protocolKey : String) (baseNodes : List StrategyNode)
    (cfg : StrategyCombinationConfig) :
    generateCombinedNodes protocolKey baseNodes cfg =
      (combinedPairs protocolKey baseNodes cfg).mapIdx (combinedNode protocolKey) := by
  unfold generateCombinedNodes combinedPairs admittedPairs
  cases cfg.enabled with
  | false => rfl
  | true =>
    simp only [Bool.not_true, Bool.false_eq_true, if_false, if_true]
    rw [foldl_push_out]
    unfold combinationInput
    rw [map_orderedComponents_pairs]
    simp [Acc.empty]

theorem mem_generateCombinedNodes {protocolKey : String} {baseNodes : List StrategyNode}
    {cfg : StrategyCombinationConfig} {n : StrategyNode} :
    n ∈ generateCombinedNodes protocolKey baseNodes cfg ↔
      ∃ i, ∃ h : i < (combinedPairs protocolKey baseNodes cfg).length,
        n = combinedNode protocolKey i (combinedPairs protocolKey baseNodes cfg)[i] := by
  rw [generateCombinedNodes_eq, List.mem_mapIdx]
  simp only [eq_comm]

/-- A combined pair passes the filters. -/
theorem mem_combinedPairs {protocolKey : String} {baseNodes : List StrategyNode}
    {cfg : StrategyCombinationConfig} {pair : StrategyNode × StrategyNode}
    (h : pair ∈ combinedPairs protocolKey baseNodes cfg) :
    pair ∈ pairs (combinationInput baseNodes) ∧ combinable protocolKey cfg pair = true := by
  have hadmitted := (firstOf_sublist _ _ _).subset h
  unfold admittedPairs at hadmitted
  split at hadmitted
  · exact List.mem_filter.mp hadmitted
  · exact absurd hadmitted List.not_mem_nil

theorem nodup_combinedPairs (protocolKey : String) (baseNodes : List StrategyNode)
    (cfg : StrategyCombinationConfig) :
    ((combinedPairs protocolKey baseNodes cfg).map fun pair => argsKey (combinedArgs pair)).Nodup :=
  nodup_map_firstOf _ _ _

/-! ## The filters -/

theorem argsIntersect_eq_false_iff {a b : List String} :
    argsIntersect a b = false ↔ ∀ arg ∈ a, arg ∉ b := by
  unfold argsIntersect
  rw [List.any_eq_false]
  simp only [List.contains_iff_mem]
  exact ⟨fun h arg ha hb => h arg hb ha, fun h arg hb ha => h arg ha hb⟩

theorem argsIntersect_comm (a b : List String) : argsIntersect a b = argsIntersect b a := by
  have hiff : argsIntersect a b = false ↔ argsIntersect b a = false := by
    rw [argsIntersect_eq_false_iff, argsIntersect_eq_false_iff]
    exact ⟨fun h arg hb ha => h arg ha hb, fun h arg ha hb => h arg hb ha⟩
  cases ha : argsIntersect a b <;> cases hb : argsIntersect b a <;> simp_all

/-- What the filters ask of a pair. -/
theorem combinable_iff {protocolKey : String} {cfg : StrategyCombinationConfig}
    {first second : StrategyNode} : combinable protocolKey cfg (first, second) = true ↔
      first.id ≠ second.id ∧
      ¬ (cfg.requireDifferentFamily = true ∧ first.family = second.family) ∧
      ¬ (cfg.allowSameAction = false ∧ first.actionId = second.actionId) ∧
      argsIntersect first.args second.args = false ∧
      (cfg.mode = "force" ∨ cfg.pairAllowed protocolKey first.family second.family = true) := by
  simp only [combinable, Bool.and_eq_true, Bool.not_eq_true', Bool.and_eq_false_iff,
    Bool.or_eq_true, bne_iff_ne, beq_iff_eq, Bool.not_eq_false', beq_eq_false_iff_ne, not_and,
    and_assoc, ne_eq]
  constructor
  · rintro ⟨hid, hfamily, haction, hargs, hallowed⟩
    refine ⟨hid, fun hr hf => ?_, fun hs ha => ?_, hargs, hallowed⟩
    · rcases hfamily with h | h
      · rw [h] at hr
        cases hr
      · exact h hf
    · rcases haction with h | h
      · rw [h] at hs
        cases hs
      · exact h ha
  · rintro ⟨hid, hfamily, haction, hargs, hallowed⟩
    refine ⟨hid, ?_, ?_, hargs, hallowed⟩
    · cases hr : cfg.requireDifferentFamily
      · exact Or.inl rfl
      · exact Or.inr (hfamily hr)
    · cases hs : cfg.allowSameAction
      · exact Or.inr (haction hs)
      · exact Or.inl rfl

/-! ## Nodes of a catalog -/

/-- The nodes of a catalog may all be combined, as they are. -/
theorem combinationInput_eq {protocolKey : String} {nodes : List StrategyNode}
    (h : ∀ n ∈ nodes, CatalogNode protocolKey n) :
    combinationInput nodes = sortBy compareCombinationInput nodes := by
  have hfilter : nodes.filter (fun n => !n.isCombined && !isLegacy n.actionId) = nodes := by
    rw [List.filter_eq_self]
    intro n hn
    simp [(h n hn).isSingle, (h n hn).action]
  have hnormal : nodes.map normalizeSingleNode = nodes := by
    rw [List.map_congr_left (g := id), List.map_id]
    intro n hn
    rw [normalizeSingleNode, if_pos]
    · rfl
    · simp [(h n hn).components]
  rw [combinationInput, hfilter, hnormal]

/-- The nodes of a combined pair are base nodes. -/
theorem mem_of_mem_combinedPairs {protocolKey key : String} {nodes : List StrategyNode}
    (hnodes : ∀ n ∈ nodes, CatalogNode protocolKey n) {cfg : StrategyCombinationConfig}
    {pair : StrategyNode × StrategyNode} (h : pair ∈ combinedPairs key nodes cfg) :
    pair.1 ∈ nodes ∧ pair.2 ∈ nodes := by
  have hpairs := (mem_combinedPairs h).1
  rw [combinationInput_eq hnodes] at hpairs
  obtain ⟨hfirst, hsecond⟩ := mem_of_mem_pairs hpairs
  exact ⟨mem_sortBy.mp hfirst, mem_sortBy.mp hsecond⟩

end ZapretChecker.Graph
