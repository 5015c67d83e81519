import ZapretChecker.Graph.Load
import ZapretChecker.Graph.Selected

/-!
# The limits of a selection

`select_diverse_nodes` sorts, drops repeated argument lists, counts families and actions, lets the
families take turns and numbers what is left. Every limit survives the later stages, and the order
of the candidates does not matter. An argument list counts as seen even if a limit drops its node,
so a node may be missing although the limits have room for it.

* `selection_capped` — the limits, the differences and the order
* `droppedForReason_iff` — when every missing node is missing because of a limit
-/

namespace ZapretChecker.Graph

open SortBy Collect

/-! ## The selected nodes -/

/-- What is selected, before it is numbered. -/
def selectedNodes (nodes : List StrategyNode) (limits : SelectLimits) : List StrategyNode :=
  (ranking limits.roundRobinFamilies
    (filterNodes limits.maxPerFamily limits.maxPerAction nodes)).take limits.maxCandidates

theorem selectDiverseNodes_eq_reindex (nodes : List StrategyNode) (protocolKey : String)
    (limits : SelectLimits) :
    selectDiverseNodes nodes protocolKey limits =
      reindexNodes protocolKey (selectedNodes nodes limits) :=
  selectDiverseNodes_eq nodes protocolKey limits

theorem selectedNodes_subperm (nodes : List StrategyNode) (limits : SelectLimits) :
    (selectedNodes nodes limits).Subperm
      (filterNodes limits.maxPerFamily limits.maxPerAction nodes) :=
  (List.take_sublist _ _).subperm.trans (ranking_perm _ _).subperm

theorem filterNodes_subperm (maxPerFamily maxPerAction : Nat) (nodes : List StrategyNode) :
    (filterNodes maxPerFamily maxPerAction nodes).Subperm nodes :=
  (filterNodes_sublist _ _ _).subperm.trans (sortBy_perm _ _).subperm

/-- Without a limit on the candidates, all that pass the filter are selected. -/
theorem selectedNodes_perm {nodes : List StrategyNode} {limits : SelectLimits}
    (h : nodes.length ≤ limits.maxCandidates) :
    (selectedNodes nodes limits).Perm
      (filterNodes limits.maxPerFamily limits.maxPerAction nodes) := by
  have hperm := ranking_perm limits.roundRobinFamilies
    (filterNodes limits.maxPerFamily limits.maxPerAction nodes)
  have hlen := (filterNodes_subperm limits.maxPerFamily limits.maxPerAction nodes).length_le
  rw [selectedNodes, List.take_of_length_le (by rw [hperm.length_eq]; omega)]
  exact hperm

/-! ## Numbering -/

/-- The same node under another id. Components are filled in if there were none. -/
structure Renumbered (m n : StrategyNode) : Prop where
  same : n = { m with id := n.id, components := n.components }
  components : n.components = m.components ∨ m.components = [] ∧ n.components = [componentOf m]

theorem reindexNode_renumbered (protocolKey : String) (i : Nat) (m : StrategyNode) :
    Renumbered m (reindexNode protocolKey i m) := by
  unfold reindexNode
  split
  · exact ⟨rfl, Or.inl rfl⟩
  · unfold normalizeSingleNode
    split
    · exact ⟨rfl, Or.inl rfl⟩
    · next h =>
      have hempty : m.isCombined = false ∧ m.components = [] := by simpa using h
      exact ⟨rfl, Or.inr ⟨hempty.2, rfl⟩⟩

theorem reindexNodes_renumbered (protocolKey : String) (l : List StrategyNode) :
    List.Forall₂ Renumbered l (reindexNodes protocolKey l) := by
  refine List.forall₂_iff_get.mpr ⟨by simp [reindexNodes], fun i _ _ => ?_⟩
  simp only [reindexNodes, List.get_eq_getElem, List.getElem_mapIdx]
  exact reindexNode_renumbered protocolKey i _

theorem Renumbered.family_eq {m n : StrategyNode} (h : Renumbered m n) : n.family = m.family := by
  rw [h.same]

theorem Renumbered.actionId_eq {m n : StrategyNode} (h : Renumbered m n) :
    n.actionId = m.actionId := by
  rw [h.same]

/-- Families and actions are counted before the numbering. -/
theorem countP_reindexNodes (protocolKey : String) (l : List StrategyNode)
    (p : String → String → Bool) :
    (reindexNodes protocolKey l).countP (fun n => p n.family n.actionId) =
      l.countP fun n => p n.family n.actionId := by
  have hmap : (reindexNodes protocolKey l).map (fun n => p n.family n.actionId) =
      l.map fun n => p n.family n.actionId := by
    refine map_mapIdx_of_forall (fun i m => ?_) l
    have h := reindexNode_renumbered protocolKey i m
    rw [h.family_eq, h.actionId_eq]
  have hcount := congrArg (List.countP id) hmap
  rwa [List.countP_map, List.countP_map] at hcount

/-- The nodes of a family in a selection. -/
def familyCount (nodes : List StrategyNode) (family : String) : Nat :=
  nodes.countP fun n => n.family = family

/-- The nodes of an action of a family in a selection. -/
def actionCount (nodes : List StrategyNode) (family actionId : String) : Nat :=
  nodes.countP fun n => n.family = family ∧ n.actionId = actionId

theorem familyCount_reindexNodes (protocolKey : String) (l : List StrategyNode) (family : String) :
    familyCount (reindexNodes protocolKey l) family = familyCount l family :=
  countP_reindexNodes protocolKey l fun f _ => decide (f = family)

theorem actionCount_reindexNodes (protocolKey : String) (l : List StrategyNode)
    (family actionId : String) :
    actionCount (reindexNodes protocolKey l) family actionId = actionCount l family actionId :=
  countP_reindexNodes protocolKey l fun f a => decide (f = family ∧ a = actionId)

/-! ## The limits hold -/

theorem familyCount_filterNodes_le (maxPerFamily maxPerAction : Nat) (nodes : List StrategyNode)
    (family : String) :
    familyCount (filterNodes maxPerFamily maxPerAction nodes) family ≤ maxPerFamily := by
  rw [filterNodes_eq]
  exact Caps.inGroup_keep_le (c := nodeLimits maxPerFamily maxPerAction) family _

theorem actionCount_filterNodes_le (maxPerFamily maxPerAction : Nat) (nodes : List StrategyNode)
    (family actionId : String) :
    actionCount (filterNodes maxPerFamily maxPerAction nodes) family actionId ≤ maxPerAction := by
  rw [filterNodes_eq]
  exact Caps.inSub_keep_le (c := nodeLimits maxPerFamily maxPerAction) family actionId _

/-- With different ids the order of the candidates does not matter. -/
theorem selectDiverseNodes_eq_of_perm {nodes nodes' : List StrategyNode}
    (hids : (nodes.map (·.id)).Nodup) (h : nodes.Perm nodes') (protocolKey : String)
    (limits : SelectLimits) :
    selectDiverseNodes nodes' protocolKey limits = selectDiverseNodes nodes protocolKey limits := by
  have hsort : sortBy compareNodeQuality nodes = sortBy compareNodeQuality nodes' :=
    sortBy_eq_of_perm h fun m hm n hn hcmp =>
      List.inj_on_of_nodup_map hids hm hn (id_eq_of_compareByRank hcmp)
  unfold selectDiverseNodes filterNodes
  rw [hsort]

/--
**A selection keeps its limits.** It has no argument list and no id twice, it consists of given
nodes, none used twice, and with different ids the order of the candidates does not matter.
-/
theorem selection_capped (nodes : List StrategyNode) (protocolKey : String)
    (limits : SelectLimits) :
    let out := selectDiverseNodes nodes protocolKey limits
    out.length ≤ limits.maxCandidates ∧
      (∀ family, familyCount out family ≤ limits.maxPerFamily) ∧
      (∀ family actionId, actionCount out family actionId ≤ limits.maxPerAction) ∧
      (out.map (·.args)).Nodup ∧ (out.map (·.id)).Nodup ∧
      (∃ selected, selected.Subperm nodes ∧ List.Forall₂ Renumbered selected out) ∧
      ((nodes.map (·.id)).Nodup → ∀ nodes', nodes.Perm nodes' →
        selectDiverseNodes nodes' protocolKey limits = out) := by
  intro out
  have hout : out = reindexNodes protocolKey (selectedNodes nodes limits) :=
    selectDiverseNodes_eq_reindex nodes protocolKey limits
  have hsub := selectedNodes_subperm nodes limits
  refine ⟨length_selectDiverseNodes_le nodes protocolKey limits, fun family => ?_,
    fun family actionId => ?_, ?_, nodup_ids_selectDiverseNodes nodes protocolKey limits,
    ⟨selectedNodes nodes limits, ?_, ?_⟩, ?_⟩
  · rw [hout, familyCount_reindexNodes]
    exact (hsub.countP_le _).trans (familyCount_filterNodes_le _ _ nodes family)
  · rw [hout, actionCount_reindexNodes]
    exact (hsub.countP_le _).trans (actionCount_filterNodes_le _ _ nodes family actionId)
  · have hkeys := nodup_selectDiverseNodes nodes protocolKey limits
    rw [map_argsKey] at hkeys
    exact List.Nodup.of_map argsKey hkeys
  · exact hsub.trans (filterNodes_subperm _ _ nodes)
  · rw [hout]
    exact reindexNodes_renumbered protocolKey _
  · exact fun hids nodes' hperm => selectDiverseNodes_eq_of_perm hids hperm protocolKey limits

/-! ## What is missing -/

/-- The output has all the nodes of the family, or of its action, that the limits allow. -/
def Filled (limits : SelectLimits) (out : List StrategyNode) (n : StrategyNode) : Prop :=
  familyCount out n.family = limits.maxPerFamily ∨
    actionCount out n.family n.actionId = limits.maxPerAction

/-- Every candidate whose arguments are missing in the output is missing because of a limit. -/
def DroppedForReason (nodes : List StrategyNode) (protocolKey : String) (limits : SelectLimits) :
    Prop :=
  ∀ n ∈ nodes, n.args ∉ (selectDiverseNodes nodes protocolKey limits).map (·.args) →
    Filled limits (selectDiverseNodes nodes protocolKey limits) n

/-- The limits of a selection, for the loop that counts. -/
def SelectLimits.caps (limits : SelectLimits) : Caps.Limits StrategyNode String String :=
  nodeLimits limits.maxPerFamily limits.maxPerAction

/-- An output without a limit on the candidates is filled where the limits leave no room. -/
theorem filled_iff {nodes : List StrategyNode} {limits : SelectLimits}
    (hmax : nodes.length ≤ limits.maxCandidates) (protocolKey : String) (n : StrategyNode) :
    Filled limits (selectDiverseNodes nodes protocolKey limits) n ↔
      ¬ Caps.Room limits.caps (distinctNodes nodes) n := by
  have hperm := selectedNodes_perm hmax
  rw [filterNodes_eq] at hperm
  rw [← Caps.full_iff, Filled, selectDiverseNodes_eq_reindex, familyCount_reindexNodes,
    actionCount_reindexNodes, familyCount, actionCount, hperm.countP_eq, hperm.countP_eq]
  rfl

theorem nodup_args_distinctNodes (nodes : List StrategyNode) : (distinctNodes nodes).Nodup :=
  List.Nodup.of_map _ (nodup_distinctNodes nodes)

/-- The arguments of the output are those of the distinct nodes there is room for. -/
theorem args_mem_select_iff {nodes : List StrategyNode} {limits : SelectLimits}
    (hmax : nodes.length ≤ limits.maxCandidates) (protocolKey : String) (args : List String) :
    args ∈ (selectDiverseNodes nodes protocolKey limits).map (·.args) ↔
      ∃ m ∈ distinctNodes nodes, m.args = args ∧
        Caps.Room limits.caps (before m (distinctNodes nodes)) m := by
  have hperm := selectedNodes_perm hmax
  rw [filterNodes_eq] at hperm
  rw [selectDiverseNodes_eq_reindex, map_args_reindexNodes, (hperm.map _).mem_iff, List.mem_map]
  constructor
  · rintro ⟨m, hm, rfl⟩
    have hmem := (Caps.keep_sublist _).subset hm
    exact ⟨m, hmem, rfl, (Caps.mem_keep_iff (nodup_args_distinctNodes nodes) hmem).mp hm⟩
  · rintro ⟨m, hmem, rfl, hroom⟩
    exact ⟨m, (Caps.mem_keep_iff (nodup_args_distinctNodes nodes) hmem).mpr hroom, rfl⟩

/-- Every candidate has the arguments of one distinct node. -/
theorem exists_distinctNode {nodes : List StrategyNode}
    (hargs : ∀ n ∈ nodes, n.args ≠ [] ∧ ∀ arg ∈ n.args, '\x00' ∉ arg.toList)
    {n : StrategyNode} (hn : n ∈ nodes) : ∃ m ∈ distinctNodes nodes, m.args = n.args := by
  have hkey : argsKey n.args ∈ (distinctNodes nodes).map fun m => argsKey m.args := by
    refine key_mem_firstOf_iff.mpr ⟨?_, List.not_mem_nil⟩
    exact List.mem_map.mpr ⟨n, mem_sortBy.mpr hn, rfl⟩
  obtain ⟨m, hm, he⟩ := List.mem_map.mp hkey
  have hmem := mem_sortBy.mp ((firstOf_sublist _ _ _).subset hm)
  exact ⟨m, hm, argsKey_inj (hargs m hmem).1 (hargs n hn).1 (hargs m hmem).2 (hargs n hn).2 he⟩

/--
Every missing candidate is missing because of a limit exactly when, for every candidate `n` and the
best candidate `m` with its arguments, the limits leave room for `m` when it comes up, or no room
for `n` in the end.
-/
theorem droppedForReason_iff {nodes : List StrategyNode} {protocolKey : String}
    {limits : SelectLimits}
    (hargs : ∀ n ∈ nodes, n.args ≠ [] ∧ ∀ arg ∈ n.args, '\x00' ∉ arg.toList)
    (hmax : nodes.length ≤ limits.maxCandidates) :
    DroppedForReason nodes protocolKey limits ↔
      ∀ n ∈ nodes, ∀ m ∈ distinctNodes nodes, m.args = n.args →
        Caps.Room limits.caps (before m (distinctNodes nodes)) m ∨
          ¬ Caps.Room limits.caps (distinctNodes nodes) n := by
  unfold DroppedForReason
  refine forall₂_congr fun n hn => ?_
  rw [args_mem_select_iff hmax, filled_iff hmax]
  constructor
  · intro h m hm he
    by_cases hroom : Caps.Room limits.caps (before m (distinctNodes nodes)) m
    · exact Or.inl hroom
    · refine Or.inr (h ?_)
      -- only `m` has these arguments
      rintro ⟨m', hm', he', hroom'⟩
      have heq : m' = m := by
        refine List.inj_on_of_nodup_map (nodup_distinctNodes nodes) hm' hm ?_
        rw [he', he]
      exact hroom (heq ▸ hroom')
  · intro h hmissing
    obtain ⟨m, hm, he⟩ := exists_distinctNode hargs hn
    exact (h m hm he).resolve_left fun hroom => hmissing ⟨m, hm, he, hroom⟩

/-- One node per family. -/
def onePerFamily : SelectLimits where
  maxCandidates := 100
  maxPerFamily := 1
  maxPerAction := 1
  roundRobinFamilies := true

/-- The limit drops one node of `split`, and `fake` has its own arguments. -/
theorem droppedForReason_ownArgs : DroppedForReason
    [smallNode 0 "split" "a" ["1"], smallNode 1 "split" "b" ["2"], smallNode 2 "fake" "c" ["3"]]
    "tls12" onePerFamily :=
  (droppedForReason_iff (by decide +kernel) (by decide)).mpr (by decide +kernel)

/-- The limit drops a node of `split`, and with it the only node of `fake`, which has the same
arguments. -/
theorem not_droppedForReason_sharedArgs : ¬ DroppedForReason
    [smallNode 0 "split" "a" ["1"], smallNode 1 "split" "b" ["2"], smallNode 2 "fake" "c" ["2"]]
    "tls12" onePerFamily := by
  intro h
  have hfilled := h (smallNode 2 "fake" "c" ["2"]) (by decide +kernel) (by decide +kernel)
  revert hfilled
  unfold Filled
  decide +kernel

end ZapretChecker.Graph
