import ZapretChecker.Graph.Load
import ZapretChecker.Graph.Args
import ZapretChecker.Graph.Selected

/-!
# The nodes of a catalog

What `parseCatalogStrategies` gives to the selection, and what every node it returns is.

* `catalogNodes` — the nodes before the selection: the variants of the plan, without repetitions
* `CatalogNode` — a single node with a rendered argument list
-/

namespace ZapretChecker.Graph

open Collect

/-- The variants of the planned families. -/
def planVariants (input : RenderInput) (catalog : List CatalogFamily)
    (plan : List (String × Option Value)) : List Variant :=
  plan.flatMap fun (familyId, candidate) => familyVariants input catalog familyId candidate

/-- The nodes of the planned families. -/
def catalogNodes (input : RenderInput) (catalog : List CatalogFamily)
    (plan : List (String × Option Value)) : List StrategyNode :=
  (firstOf (fun v => argsKey v.args) [] (planVariants input catalog plan)).mapIdx
    (variantNode input.protocolKey)

theorem foldl_appendFamilyActions (input : RenderInput) (catalog : List CatalogFamily)
    (plan : List (String × Option Value)) :
    (plan.foldl (fun acc (familyId, candidate) =>
      appendFamilyActions input catalog acc familyId candidate) Acc.empty).out =
        catalogNodes input catalog plan := by
  have hflat : plan.foldl (fun acc (familyId, candidate) =>
      appendFamilyActions input catalog acc familyId candidate) Acc.empty =
        (planVariants input catalog plan).foldl
          (Acc.push (fun v => argsKey v.args) (variantNode input.protocolKey)) Acc.empty := by
    rw [planVariants, List.foldl_flatMap]
    rfl
  rw [hflat, foldl_push_out]
  simp [Acc.empty, catalogNodes]

/-- The candidates are the nodes of the plan. -/
theorem catalogCandidates_eq_ok {env : Env} {root : Value} {options : GraphLoadOptions}
    {nodes : List StrategyNode} (h : catalogCandidates env root options = .ok nodes) :
    ∃ families plan, valueSeq root "families" = some families ∧
      familyPlan root families options.protocolKey options.searchMode = .ok plan ∧
      nodes = catalogNodes (renderInput env root options) (catalogFamilies families) plan := by
  unfold catalogCandidates at h
  cases hfamilies : valueSeq root "families" with
  | none =>
    rw [hfamilies] at h
    cases h
  | some families =>
    cases hplan : familyPlan root families options.protocolKey options.searchMode with
    | error e =>
      simp only [hfamilies, hplan] at h
      cases h
    | ok plan =>
      simp only [hfamilies, hplan, foldl_appendFamilyActions, bind, Except.bind] at h
      refine ⟨families, plan, rfl, hplan, ?_⟩
      split at h
      · cases h
      · exact (Except.ok.inj h).symm

/-- A catalog loads the selection of its candidates. -/
theorem parseCatalogStrategies_eq_ok {env : Env} {root : Value} {options : GraphLoadOptions}
    {out : List StrategyNode} (h : parseCatalogStrategies env root options = .ok out) :
    ∃ families plan, valueSeq root "families" = some families ∧
      familyPlan root families options.protocolKey options.searchMode = .ok plan ∧
      out = selectDiverseNodes
        (catalogNodes (renderInput env root options) (catalogFamilies families) plan)
        options.protocolKey options.limits := by
  unfold parseCatalogStrategies at h
  cases hcandidates : catalogCandidates env root options with
  | error e =>
    rw [hcandidates] at h
    cases h
  | ok nodes =>
    rw [hcandidates] at h
    obtain ⟨families, plan, hfamilies, hplan, rfl⟩ := catalogCandidates_eq_ok hcandidates
    exact ⟨families, plan, hfamilies, hplan, (Except.ok.inj h).symm⟩

/-! ## What the nodes are -/

/-- A single node whose argument list was rendered. -/
structure CatalogNode (protocolKey : String) (n : StrategyNode) : Prop where
  isSingle : n.isCombined = false
  components : n.components = [componentOf n]
  action : isLegacy n.actionId = false
  rendered : ∃ lua, unresolved lua = false ∧ n.args = finalizeArgs protocolKey lua

theorem unresolved_of_mem_renderLuaDesyncVariants {input : RenderInput} {action : CatalogAction}
    {overrides : Option Value} {lua : String}
    (h : lua ∈ renderLuaDesyncVariants input action overrides) : unresolved lua = false := by
  obtain ⟨combo, -, h⟩ := List.mem_filterMap.mp h
  simp only [Option.ite_none_left_eq_some, Option.some.injEq] at h
  obtain ⟨hresolved, rfl⟩ := h
  simpa using hresolved

/-- A variant comes from a used action of an enabled family. -/
theorem mem_familyVariants {input : RenderInput} {catalog : List CatalogFamily} {familyId : String}
    {candidate : Option Value} {v : Variant} :
    v ∈ familyVariants input catalog familyId candidate ↔
      findFamily catalog familyId = some v.family ∧ v.family.enabled = true ∧
      protocolMatches v.family.protocols input.protocolKey "" = true ∧
      ∃ action ∈ v.family.actions,
        actionSelected input.protocolKey (actionFilter candidate) action = true ∧
        v.actionId = action.id ∧
        ∃ lua ∈ renderLuaDesyncVariants input action (candidate.bind (·.get "params")),
          v.args = finalizeArgs input.protocolKey lua := by
  unfold familyVariants
  cases hfind : findFamily catalog familyId with
  | none => simp
  | some family =>
    dsimp only
    constructor
    · intro h
      split at h
      · exact absurd h List.not_mem_nil
      · rename_i hused
        obtain ⟨action, haction, hv⟩ := List.mem_flatMap.mp h
        obtain ⟨haction, hselected⟩ := List.mem_filter.mp haction
        obtain ⟨lua, hlua, rfl⟩ := List.mem_map.mp hv
        simp only [Bool.or_eq_true, Bool.not_eq_true', not_or, Bool.not_eq_false] at hused
        exact ⟨rfl, hused.1, hused.2, action, haction, hselected, rfl, lua, hlua, rfl⟩
    · rintro ⟨hfamily, henabled, hmatches, action, haction, hselected, hid, lua, hlua, hargs⟩
      have hfamily : family = v.family := Option.some.inj hfamily
      subst hfamily
      rw [henabled, hmatches, Bool.not_true, Bool.or_self, if_neg Bool.false_ne_true,
        List.mem_flatMap]
      refine ⟨action, List.mem_filter.mpr ⟨haction, hselected⟩, List.mem_map.mpr ⟨lua, hlua, ?_⟩⟩
      rw [← hargs, ← hid]

theorem catalogNode_variantNode {input : RenderInput} {catalog : List CatalogFamily}
    {plan : List (String × Option Value)} {v : Variant} (hv : v ∈ planVariants input catalog plan)
    (i : Nat) : CatalogNode input.protocolKey (variantNode input.protocolKey i v) := by
  obtain ⟨⟨familyId, candidate⟩, -, hv⟩ := List.mem_flatMap.mp hv
  obtain ⟨-, -, -, action, -, hselected, hid, lua, hlua, hargs⟩ := mem_familyVariants.mp hv
  rw [actionSelected, Bool.and_eq_true, Bool.and_eq_true, Bool.not_eq_true', ← hid] at hselected
  exact {
    isSingle := rfl
    components := rfl
    action := hselected.1.1
    rendered := ⟨lua, unresolved_of_mem_renderLuaDesyncVariants hlua, hargs⟩ }

/-- Numbering changes nothing but the id of a single node. -/
theorem reindexNode_eq {protocolKey : String} {n : StrategyNode} (hn : CatalogNode protocolKey n)
    (key : String) (i : Nat) : reindexNode key i n = { n with
      id := key ++ "_" ++ n.family ++ "_" ++ n.actionId ++ "_" ++ toString i } := by
  rw [reindexNode, if_neg (by simp [hn.isSingle]), normalizeSingleNode, if_pos]
  simp [hn.components]

theorem CatalogNode.reindexNode {protocolKey : String} {n : StrategyNode}
    (hn : CatalogNode protocolKey n) (key : String) (i : Nat) :
    CatalogNode protocolKey (reindexNode key i n) := by
  rw [reindexNode_eq hn]
  exact ⟨hn.isSingle, hn.components, hn.action, hn.rendered⟩

theorem catalogNode_of_mem_catalogNodes {input : RenderInput} {catalog : List CatalogFamily}
    {plan : List (String × Option Value)} {n : StrategyNode}
    (h : n ∈ catalogNodes input catalog plan) : CatalogNode input.protocolKey n := by
  obtain ⟨i, hi, rfl⟩ := List.mem_mapIdx.mp h
  exact catalogNode_variantNode ((firstOf_sublist _ _ _).subset (List.getElem_mem hi)) i

/-- Every node a catalog loads is a single node with a rendered argument list. -/
theorem catalogNode_of_parseCatalogStrategies {env : Env} {root : Value}
    {options : GraphLoadOptions} {out : List StrategyNode} {n : StrategyNode}
    (h : parseCatalogStrategies env root options = .ok out) (hn : n ∈ out) :
    CatalogNode options.protocolKey n := by
  obtain ⟨families, plan, -, -, rfl⟩ := parseCatalogStrategies_eq_ok h
  obtain ⟨m, hm, i, rfl⟩ := mem_selectDiverseNodes hn
  exact (catalogNode_of_mem_catalogNodes hm).reindexNode _ i

theorem nodup_map_args_of_keys {nodes : List StrategyNode}
    (h : (nodes.map fun n => argsKey n.args).Nodup) : (nodes.map (·.args)).Nodup := by
  rw [map_argsKey] at h
  exact h.of_map _

/-- What a catalog loads: different argument lists, different ids, no more than the limit. -/
theorem nodup_of_parseCatalogStrategies {env : Env} {root : Value} {options : GraphLoadOptions}
    {out : List StrategyNode} (h : parseCatalogStrategies env root options = .ok out) :
    (out.map (·.args)).Nodup ∧ (out.map (·.id)).Nodup ∧
      out.length ≤ options.limits.maxCandidates := by
  obtain ⟨families, plan, -, -, rfl⟩ := parseCatalogStrategies_eq_ok h
  exact ⟨nodup_map_args_of_keys (nodup_selectDiverseNodes _ _ _),
    nodup_ids_selectDiverseNodes _ _ _, length_selectDiverseNodes_le _ _ _⟩

theorem map_args_catalogNodes (input : RenderInput) (catalog : List CatalogFamily)
    (plan : List (String × Option Value)) :
    (catalogNodes input catalog plan).map (·.args) =
      (firstOf (fun v => argsKey v.args) [] (planVariants input catalog plan)).map (·.args) := by
  apply map_mapIdx_of_forall
  intro i v
  rfl

/-- The nodes of a catalog have different argument lists. -/
theorem nodup_catalogNodes (input : RenderInput) (catalog : List CatalogFamily)
    (plan : List (String × Option Value)) :
    ((catalogNodes input catalog plan).map fun n => argsKey n.args).Nodup := by
  rw [map_argsKey, map_args_catalogNodes, ← map_argsKey]
  exact nodup_map_firstOf _ _ _

end ZapretChecker.Graph
