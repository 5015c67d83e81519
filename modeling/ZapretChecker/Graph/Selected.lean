import ZapretChecker.Graph.Select
import ZapretChecker.Lib.Caps

/-!
# What a selection returns

`selectDiverseNodes` is a prefix of one ranking of the nodes that pass the filter, so its limit
`max_candidates` only cuts the ranking off.

* `filterNodes_eq` — the filter is the loop of `Lib.Caps` on nodes with different arguments
* `filterNodes_sublist`, `nodup_filterNodes`, `filterNodes_perm` — what passes the filter
* `turns_perm`, `roundRobinByFamily_eq_take` — the turns of the families
* `selectDiverseNodes_eq`, `ranking_perm` — the selection
-/

namespace ZapretChecker.Graph

open SortBy Collect

/-! ## The filter -/

/-- The limits per family and, in a family, per action. -/
def nodeLimits (maxPerFamily maxPerAction : Nat) : Caps.Limits StrategyNode String String where
  group n := n.family
  sub n := n.actionId
  maxGroup := maxPerFamily
  maxSub := maxPerAction

/-- The nodes that are the first with their arguments, in the order of quality. -/
def distinctNodes (nodes : List StrategyNode) : List StrategyNode :=
  firstOf (fun n => argsKey n.args) [] (sortBy compareNodeQuality nodes)

/-- The counters of a selection count what has passed. -/
structure Selection.Counts (maxPerFamily maxPerAction : Nat) (s : Selection) : Prop where
  family : ∀ f, s.perFamily f = Caps.inGroup (nodeLimits maxPerFamily maxPerAction) f s.filtered
  action : ∀ f a, s.perAction (f, a) =
    Caps.inSub (nodeLimits maxPerFamily maxPerAction) f a s.filtered

/-- The body of the loop: a node with new arguments passes if the limits have room for it. -/
theorem Selection.consider_spec {maxPerFamily maxPerAction : Nat} {s : Selection}
    (hs : s.Counts maxPerFamily maxPerAction) {node : StrategyNode}
    (hnew : argsKey node.args ∉ s.seenArgs) :
    let s' := s.consider maxPerFamily maxPerAction node
    s'.seenArgs = argsKey node.args :: s.seenArgs ∧
      s'.filtered = Caps.push (nodeLimits maxPerFamily maxPerAction) s.filtered node ∧
      s'.Counts maxPerFamily maxPerAction := by
  have hfamily := hs.family node.family
  have haction := hs.action node.family node.actionId
  have hfits : Caps.Fits (nodeLimits maxPerFamily maxPerAction) s.filtered node ↔
      s.perFamily node.family < maxPerFamily ∧
        s.perAction (node.family, node.actionId) < maxPerAction := by
    rw [hfamily, haction]
    rfl
  simp only [Selection.consider, if_neg hnew, Caps.push, hfits]
  split
  · next hfull =>
    rw [if_neg fun h => absurd h.1 (not_lt.mpr hfull)]
    exact ⟨rfl, rfl, hs.family, hs.action⟩
  · next hroom =>
    split
    · next hfull =>
      rw [if_neg fun h => absurd h.2 (not_lt.mpr hfull)]
      exact ⟨rfl, rfl, hs.family, hs.action⟩
    · next hroom' =>
      rw [if_pos ⟨not_le.mp hroom, not_le.mp hroom'⟩]
      refine ⟨rfl, rfl, fun f => ?_, fun f a => ?_⟩
      · rw [Caps.inGroup_append_singleton, ← hs.family]
        dsimp only
        rw [Function.update_apply]
        by_cases hf : f = node.family
        · subst hf
          simp [nodeLimits]
        · simp [nodeLimits, hf, Ne.symm hf]
      · rw [Caps.inSub_append_singleton, ← hs.action]
        dsimp only
        rw [Function.update_apply]
        by_cases hf : f = node.family ∧ a = node.actionId
        · obtain ⟨rfl, rfl⟩ := hf
          simp [nodeLimits]
        · have hne : ¬ (node.family = f ∧ node.actionId = a) :=
            fun h => hf ⟨h.1.symm, h.2.symm⟩
          simp [nodeLimits, hf, hne]

theorem foldl_consider_filtered {maxPerFamily maxPerAction : Nat} (l : List StrategyNode)
    {s : Selection} (hs : s.Counts maxPerFamily maxPerAction) :
    (l.foldl (Selection.consider maxPerFamily maxPerAction) s).filtered =
      (firstOf (fun n => argsKey n.args) s.seenArgs l).foldl
        (Caps.push (nodeLimits maxPerFamily maxPerAction)) s.filtered := by
  induction l generalizing s with
  | nil => rfl
  | cons node l ih =>
    rw [List.foldl_cons, firstOf]
    by_cases hseen : argsKey node.args ∈ s.seenArgs
    · have hskip : s.consider maxPerFamily maxPerAction node = s := by
        simp [Selection.consider, hseen]
      rw [if_pos hseen, hskip]
      exact ih hs
    · obtain ⟨hseenArgs, hfiltered, hcounts⟩ := Selection.consider_spec hs hseen
      rw [if_neg hseen, List.foldl_cons, ← hseenArgs, ← hfiltered]
      exact ih hcounts

/-- The filter keeps what the limits allow of the nodes with different arguments. -/
theorem filterNodes_eq (maxPerFamily maxPerAction : Nat) (nodes : List StrategyNode) :
    filterNodes maxPerFamily maxPerAction nodes =
      Caps.keep (nodeLimits maxPerFamily maxPerAction) (distinctNodes nodes) :=
  foldl_consider_filtered _ ⟨fun _ => rfl, fun _ _ => rfl⟩

theorem nodup_distinctNodes (nodes : List StrategyNode) :
    ((distinctNodes nodes).map fun n => argsKey n.args).Nodup :=
  nodup_map_firstOf _ _ _

theorem filterNodes_sublist (maxPerFamily maxPerAction : Nat) (nodes : List StrategyNode) :
    (filterNodes maxPerFamily maxPerAction nodes).Sublist (sortBy compareNodeQuality nodes) := by
  rw [filterNodes_eq]
  exact (Caps.keep_sublist _).trans (firstOf_sublist _ _ _)

theorem mem_of_mem_filterNodes {maxPerFamily maxPerAction : Nat} {nodes : List StrategyNode}
    {n : StrategyNode} (h : n ∈ filterNodes maxPerFamily maxPerAction nodes) : n ∈ nodes :=
  mem_sortBy.mp ((filterNodes_sublist _ _ _).subset h)

theorem nodup_filterNodes (maxPerFamily maxPerAction : Nat) (nodes : List StrategyNode) :
    ((filterNodes maxPerFamily maxPerAction nodes).map fun n => argsKey n.args).Nodup := by
  rw [filterNodes_eq]
  exact ((Caps.keep_sublist _).map _).nodup (nodup_distinctNodes nodes)

/-- Where no limit can be reached and no argument list repeats, the filter keeps every node. -/
theorem filterNodes_perm {maxPerFamily maxPerAction : Nat} {nodes : List StrategyNode}
    (hnodup : (nodes.map fun n => argsKey n.args).Nodup) (hfamily : nodes.length ≤ maxPerFamily)
    (haction : nodes.length ≤ maxPerAction) :
    (filterNodes maxPerFamily maxPerAction nodes).Perm nodes := by
  have hsort := sortBy_perm compareNodeQuality nodes
  have hdistinct : distinctNodes nodes = sortBy compareNodeQuality nodes :=
    firstOf_eq_self ((hsort.map _).nodup_iff.mpr hnodup) fun _ _ => List.not_mem_nil
  rw [filterNodes_eq, hdistinct, Caps.keep_eq_self]
  · exact hsort
  · rw [hsort.length_eq]
    exact hfamily
  · rw [hsort.length_eq]
    exact haction

/-! ## The turns -/

/-- All turns of the families, without a limit. -/
def turns (nodes : List StrategyNode) : List StrategyNode :=
  RoundRobin.rounds (familyOrder nodes) (familyGroup nodes) nodes.length

theorem nodup_familyOrder (nodes : List StrategyNode) : (familyOrder nodes).Nodup := by
  have hnodup := nodup_map_firstOf id [] (nodes.map (·.family))
  rw [List.map_id] at hnodup
  exact (sortBy_perm _ _).nodup_iff.mpr hnodup

theorem family_mem_familyOrder {nodes : List StrategyNode} {n : StrategyNode} (hn : n ∈ nodes) :
    n.family ∈ familyOrder nodes := by
  have hmem : n.family ∈ (firstOf id [] (nodes.map (·.family))).map id := by
    rw [key_mem_firstOf_iff, List.map_id]
    exact ⟨List.mem_map_of_mem hn, List.not_mem_nil⟩
  rw [List.map_id] at hmem
  exact mem_sortBy.mpr hmem

theorem length_familyGroup_le (nodes : List StrategyNode) (f : String) :
    (familyGroup nodes f).length ≤ nodes.length := by
  rw [familyGroup, (sortBy_perm _ _).length_eq]
  exact List.length_filter_le _ _

theorem turns_perm (nodes : List StrategyNode) : (turns nodes).Perm nodes := by
  have hrounds := RoundRobin.rounds_perm (nodup_familyOrder nodes)
    fun f _ => length_familyGroup_le nodes f
  have hgroups : ((familyOrder nodes).flatMap (familyGroup nodes)).Perm
      ((familyOrder nodes).flatMap fun f => nodes.filter (·.family == f)) :=
    List.Perm.flatMap_left _ fun f _ => sortBy_perm _ _
  have hall := RoundRobin.flatMap_filter_perm (nodup_familyOrder nodes)
    fun n hn => family_mem_familyOrder (n := n) hn
  exact hrounds.trans (hgroups.trans hall)

theorem roundRobinByFamily_eq_take (nodes : List StrategyNode) (maxCandidates : Nat) :
    roundRobinByFamily nodes maxCandidates = (turns nodes).take maxCandidates :=
  RoundRobin.drain_eq_take (nodup_familyOrder nodes) (Nat.zero_le _)
    fun f _ => length_familyGroup_le nodes f

/-! ## The selection -/

/-- The order in which the nodes that passed the filter are selected. -/
def ranking (roundRobinFamilies : Bool) (filtered : List StrategyNode) : List StrategyNode :=
  if roundRobinFamilies then turns filtered else sortBy compareNodeQuality filtered

theorem ranking_perm (roundRobinFamilies : Bool) (filtered : List StrategyNode) :
    (ranking roundRobinFamilies filtered).Perm filtered := by
  unfold ranking
  split
  · exact turns_perm filtered
  · exact sortBy_perm _ _

/-- The selection is the beginning of the ranking, numbered. -/
theorem selectDiverseNodes_eq (nodes : List StrategyNode) (protocolKey : String)
    (limits : SelectLimits) :
    selectDiverseNodes nodes protocolKey limits =
      reindexNodes protocolKey ((ranking limits.roundRobinFamilies
        (filterNodes limits.maxPerFamily limits.maxPerAction nodes)).take limits.maxCandidates) := by
  unfold selectDiverseNodes ranking
  dsimp only
  split
  · rw [roundRobinByFamily_eq_take]
  · rfl

@[simp] theorem normalizeSingleNode_args (n : StrategyNode) :
    (normalizeSingleNode n).args = n.args := by
  unfold normalizeSingleNode
  split <;> rfl

@[simp] theorem reindexNode_args (protocolKey : String) (i : Nat) (n : StrategyNode) :
    (reindexNode protocolKey i n).args = n.args := by
  unfold reindexNode
  split <;> simp

theorem map_args_reindexNodes (protocolKey : String) (nodes : List StrategyNode) :
    (reindexNodes protocolKey nodes).map (·.args) = nodes.map (·.args) :=
  map_mapIdx_of_forall (reindexNode_args protocolKey) nodes

theorem length_selectDiverseNodes_le (nodes : List StrategyNode) (protocolKey : String)
    (limits : SelectLimits) :
    (selectDiverseNodes nodes protocolKey limits).length ≤ limits.maxCandidates := by
  rw [selectDiverseNodes_eq, reindexNodes, List.length_mapIdx]
  exact List.length_take_le _ _

/-- The selected nodes have different argument lists. -/
theorem nodup_selectDiverseNodes (nodes : List StrategyNode) (protocolKey : String)
    (limits : SelectLimits) :
    ((selectDiverseNodes nodes protocolKey limits).map fun n => argsKey n.args).Nodup := by
  have hfilter := nodup_filterNodes limits.maxPerFamily limits.maxPerAction nodes
  have hranking := ((ranking_perm limits.roundRobinFamilies
    (filterNodes limits.maxPerFamily limits.maxPerAction nodes)).map
      fun n => argsKey n.args).nodup_iff.mpr hfilter
  have htake := ((List.take_sublist limits.maxCandidates _).map
    fun (n : StrategyNode) => argsKey n.args).nodup hranking
  rw [selectDiverseNodes_eq, map_argsKey, map_args_reindexNodes, ← map_argsKey]
  exact htake

/-- A selected node is a given one under a new id. -/
theorem mem_selectDiverseNodes {nodes : List StrategyNode} {protocolKey : String}
    {limits : SelectLimits} {n : StrategyNode}
    (h : n ∈ selectDiverseNodes nodes protocolKey limits) :
    ∃ m ∈ nodes, ∃ i, n = reindexNode protocolKey i m := by
  rw [selectDiverseNodes_eq, reindexNodes, List.mem_mapIdx] at h
  obtain ⟨i, hi, rfl⟩ := h
  refine ⟨_, ?_, i, rfl⟩
  have hmem := List.mem_of_mem_take (List.getElem_mem hi)
  exact mem_of_mem_filterNodes ((ranking_perm _ _).mem_iff.mp hmem)

/-- Where no limit can be reached and no argument list repeats, every node is selected. -/
theorem selectDiverseNodes_perm {nodes : List StrategyNode} {protocolKey : String}
    {limits : SelectLimits} (hnodup : (nodes.map fun n => argsKey n.args).Nodup)
    (hfamily : nodes.length ≤ limits.maxPerFamily) (haction : nodes.length ≤ limits.maxPerAction)
    (hmax : nodes.length ≤ limits.maxCandidates) :
    ((selectDiverseNodes nodes protocolKey limits).map (·.args)).Perm (nodes.map (·.args)) := by
  have hperm := (ranking_perm limits.roundRobinFamilies _).trans
    (filterNodes_perm hnodup hfamily haction)
  rw [selectDiverseNodes_eq, map_args_reindexNodes,
    List.take_of_length_le (hperm.length_eq.trans_le hmax)]
  exact hperm.map _

/-! ## The ids -/

theorem reindexNode_id (protocolKey : String) (i : Nat) (n : StrategyNode) :
    ∃ name, (reindexNode protocolKey i n).id = name ++ "_" ++ toString i := by
  unfold reindexNode
  split
  · exact ⟨_, rfl⟩
  · unfold normalizeSingleNode
    split <;> exact ⟨_, rfl⟩

/-- The id of a numbered node tells its position. -/
theorem position_of_id {protocolKey : String} {i j : Nat} {m n : StrategyNode}
    (h : (reindexNode protocolKey i m).id = (reindexNode protocolKey j n).id) : i = j := by
  obtain ⟨p, hp⟩ := reindexNode_id protocolKey i m
  obtain ⟨q, hq⟩ := reindexNode_id protocolKey j n
  rw [hp, hq] at h
  exact (Text.numbered_inj h).2

/-- The selected nodes have different ids. -/
theorem nodup_ids_selectDiverseNodes (nodes : List StrategyNode) (protocolKey : String)
    (limits : SelectLimits) :
    ((selectDiverseNodes nodes protocolKey limits).map (·.id)).Nodup := by
  rw [selectDiverseNodes_eq, reindexNodes, List.nodup_iff_injective_getElem]
  rintro ⟨i, hi⟩ ⟨j, hj⟩ h
  simp only [List.getElem_map, List.getElem_mapIdx] at h
  exact Fin.ext (position_of_id h)

end ZapretChecker.Graph
