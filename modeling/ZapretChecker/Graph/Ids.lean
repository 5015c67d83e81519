import ZapretChecker.Graph.Configured

/-!
# The ids of a loaded graph

An id ends in the position of its node: in the selection for a base node, among the combined nodes
for a combined one. It names a strategy within the loads that select alike.

* `sameId_of_baseNodes` — the same id is the same position
* `ids_positional` — what the same id means in one graph and across two loads
* `sameId_inOneGraph` — a base node of a family `combined_…` and a combined node with the same id
-/

namespace ZapretChecker.Graph

/-! ## The selection without its limit -/

/-- The nodes that are selected from. -/
def candidateNodes (env : Env) (root : Value) (options : GraphLoadOptions) :
    Except String (List StrategyNode) :=
  match valueSeq root "strategies" with
  | some strategies => parseSimpleStrategies env strategies
  | none => catalogCandidates env root options

/-- Every node the selection would number if there were no limit on the candidates. -/
def numberedNodes (nodes : List StrategyNode) (options : GraphLoadOptions) : List StrategyNode :=
  reindexNodes options.protocolKey (ranking options.limits.roundRobinFamilies
    (filterNodes options.limits.maxPerFamily options.limits.maxPerAction nodes))

/-- The base nodes are the beginning of the numbered candidates. -/
theorem baseNodes_eq_ok {env : Env} {root : Value} {options : GraphLoadOptions}
    {base : List StrategyNode} (h : baseNodes env root options = .ok base) :
    ∃ nodes, candidateNodes env root options = .ok nodes ∧
      base = (numberedNodes nodes options).take options.limits.maxCandidates := by
  have htake : ∀ nodes : List StrategyNode,
      selectDiverseNodes nodes options.protocolKey options.limits =
        (numberedNodes nodes options).take options.limits.maxCandidates := by
    intro nodes
    rw [selectDiverseNodes_eq, numberedNodes]
    apply List.ext_getElem
    · simp [reindexNodes]
    · intro i _ _
      simp [reindexNodes]
  unfold baseNodes at h
  unfold candidateNodes
  cases hsimple : valueSeq root "strategies" with
  | some strategies =>
    simp only [hsimple] at h ⊢
    cases hnodes : parseSimpleStrategies env strategies with
    | error e =>
      rw [hnodes] at h
      cases h
    | ok nodes =>
      rw [hnodes] at h
      exact ⟨nodes, rfl, by rw [← htake]; exact (Except.ok.inj h).symm⟩
  | none =>
    simp only [hsimple, parseCatalogStrategies] at h ⊢
    cases hnodes : catalogCandidates env root options with
    | error e =>
      rw [hnodes] at h
      cases h
    | ok nodes =>
      rw [hnodes] at h
      exact ⟨nodes, rfl, by rw [← htake]; exact (Except.ok.inj h).symm⟩

theorem getElem?_of_take {α : Type*} {l : List α} {k i : Nat} {a : α}
    (h : (l.take k)[i]? = some a) : l[i]? = some a := by
  rw [List.getElem?_take] at h
  split at h
  · exact h
  · cases h

/-! ## Base nodes -/

/-- The loads differ at most in `max_candidates` and in the combinations. -/
structure SameSelection (o o' : GraphLoadOptions) : Prop where
  protocolKey : o.protocolKey = o'.protocolKey
  searchMode : o.searchMode = o'.searchMode
  maxPerFamily : o.limits.maxPerFamily = o'.limits.maxPerFamily
  maxPerAction : o.limits.maxPerAction = o'.limits.maxPerAction
  roundRobinFamilies : o.limits.roundRobinFamilies = o'.limits.roundRobinFamilies
  payloadAliases : o.payloadAliases = o'.payloadAliases
  strategyValues : o.strategyValues = o'.strategyValues

theorem SameSelection.candidateNodes {o o' : GraphLoadOptions} (h : SameSelection o o') (env : Env)
    (root : Value) : candidateNodes env root o = candidateNodes env root o' := by
  unfold Graph.candidateNodes catalogCandidates renderInput
  rw [h.protocolKey, h.searchMode, h.payloadAliases, h.strategyValues]

theorem SameSelection.numberedNodes {o o' : GraphLoadOptions} (h : SameSelection o o')
    (nodes : List StrategyNode) : numberedNodes nodes o = numberedNodes nodes o' := by
  unfold Graph.numberedNodes
  rw [h.protocolKey, h.maxPerFamily, h.maxPerAction, h.roundRobinFamilies]

/-- A base node is numbered by its position. -/
theorem getElem_of_mem_baseNodes {env : Env} {root : Value} {options : GraphLoadOptions}
    {base : List StrategyNode} (h : baseNodes env root options = .ok base) {n : StrategyNode}
    (hn : n ∈ base) :
    ∃ (i : Nat) (m : StrategyNode), base[i]? = some n ∧
      n = reindexNode options.protocolKey i m := by
  obtain ⟨nodes, -, rfl⟩ := baseNodes_eq_ok h
  obtain ⟨i, hi, rfl⟩ := List.getElem_of_mem hn
  have hnumbered : ∃ m, ((numberedNodes nodes options).take options.limits.maxCandidates)[i] =
      reindexNode options.protocolKey i m := by
    simp only [numberedNodes, reindexNodes, List.getElem_take, List.getElem_mapIdx]
    exact ⟨_, rfl⟩
  obtain ⟨m, hm⟩ := hnumbered
  exact ⟨i, m, List.getElem?_eq_getElem hi, hm⟩

/-- Base nodes of any two loads with the same id have the same position. -/
theorem sameId_of_baseNodes {env : Env} {root : Value} {o o' : GraphLoadOptions}
    {base base' : List StrategyNode} (hbase : baseNodes env root o = .ok base)
    (hbase' : baseNodes env root o' = .ok base') {n m : StrategyNode} (hn : n ∈ base)
    (hm : m ∈ base') (hid : n.id = m.id) :
    ∃ i : Nat, base[i]? = some n ∧ base'[i]? = some m := by
  obtain ⟨i, n', hi, hn'⟩ := getElem_of_mem_baseNodes hbase hn
  obtain ⟨j, m', hj, hm'⟩ := getElem_of_mem_baseNodes hbase' hm
  obtain ⟨p, hp⟩ := reindexNode_id o.protocolKey i n'
  obtain ⟨q, hq⟩ := reindexNode_id o'.protocolKey j m'
  rw [hn', hm', hp, hq] at hid
  obtain ⟨-, rfl⟩ := Text.numbered_inj hid
  exact ⟨i, hi, hj⟩

/-- Where the loads select alike, base nodes with the same id are the same node. -/
theorem eq_of_sameId_of_sameSelection {env : Env} {root : Value} {o o' : GraphLoadOptions}
    {base base' : List StrategyNode} (hbase : baseNodes env root o = .ok base)
    (hbase' : baseNodes env root o' = .ok base') (hsame : SameSelection o o')
    {n m : StrategyNode} (hn : n ∈ base) (hm : m ∈ base') (hid : n.id = m.id) : n = m := by
  obtain ⟨i, hi, hj⟩ := sameId_of_baseNodes hbase hbase' hn hm hid
  obtain ⟨nodes, hnodes, rfl⟩ := baseNodes_eq_ok hbase
  obtain ⟨nodes', hnodes', rfl⟩ := baseNodes_eq_ok hbase'
  rw [hsame.candidateNodes, hnodes'] at hnodes
  obtain rfl := Except.ok.inj hnodes
  rw [hsame.numberedNodes] at hi
  exact Option.some.inj ((getElem?_of_take hi).symm.trans (getElem?_of_take hj))

/-! ## Combined nodes -/

/-- A combined node is made of a pair, and its id has the position of the pair. -/
theorem getElem_of_mem_combinedNodes {options : GraphLoadOptions} {base : List StrategyNode}
    {n : StrategyNode} (hn : n ∈ combinedNodes options base) :
    ∃ cfg, options.strategyCombinations = some cfg ∧ ∃ i pair,
      (combinedPairs options.protocolKey base cfg)[i]? = some pair ∧
      n = combinedNode options.protocolKey i pair := by
  unfold combinedNodes at hn
  cases hcfg : options.strategyCombinations with
  | none =>
    rw [hcfg] at hn
    exact absurd hn List.not_mem_nil
  | some cfg =>
    rw [hcfg] at hn
    obtain ⟨i, hi, rfl⟩ := mem_generateCombinedNodes.mp (List.mem_of_mem_take hn)
    exact ⟨cfg, rfl, i, _, List.getElem?_eq_getElem hi, rfl⟩

theorem combinedNode_id (protocolKey : String) (i : Nat) (pair : StrategyNode × StrategyNode) :
    (combinedNode protocolKey i pair).id =
      protocolKey ++ "_combined_" ++ pair.1.family ++ "_" ++ pair.2.family ++ "_" ++ toString i :=
  rfl

/-- Where the base nodes and the settings agree, so do combined nodes with the same id. -/
theorem eq_of_sameId_of_combinedNodes {o o' : GraphLoadOptions} {base : List StrategyNode}
    (hkey : o.protocolKey = o'.protocolKey)
    (hcombinations : o.strategyCombinations = o'.strategyCombinations) {n m : StrategyNode}
    (hn : n ∈ combinedNodes o base) (hm : m ∈ combinedNodes o' base) (hid : n.id = m.id) :
    n = m := by
  obtain ⟨cfg, hcfg, i, pair, hi, rfl⟩ := getElem_of_mem_combinedNodes hn
  obtain ⟨cfg', hcfg', j, pair', hj, rfl⟩ := getElem_of_mem_combinedNodes hm
  obtain rfl := Option.some.inj (hcfg.symm.trans (hcombinations.trans hcfg'))
  rw [combinedNode_id, combinedNode_id] at hid
  obtain ⟨-, rfl⟩ := Text.numbered_inj hid
  rw [hkey] at hi ⊢
  rw [Option.some.inj (hi.symm.trans hj)]

/-! ## Base nodes and combined nodes -/

/-- What stands between the protocol and the number in the id of a base node. -/
theorem baseNode_id {env : Env} {root : Value} {options : GraphLoadOptions}
    {base : List StrategyNode} (h : baseNodes env root options = .ok base) {n : StrategyNode}
    (hn : n ∈ base) : ∃ i : Nat, n.id = options.protocolKey ++ "_" ++ n.family ++ "_" ++ toString i ∨
      n.id = options.protocolKey ++ "_" ++ n.family ++ "_" ++ n.actionId ++ "_" ++ toString i := by
  obtain ⟨i, m, -, rfl⟩ := getElem_of_mem_baseNodes h hn
  refine ⟨i, ?_⟩
  unfold reindexNode normalizeSingleNode
  split
  · exact Or.inl rfl
  · split <;> exact Or.inr rfl

/-- The family is `combined` or starts with `combined_`. -/
def CombinedName (family : String) : Prop :=
  family = "combined" ∨ Text.startsWith family "combined_" = true

instance (family : String) : Decidable (CombinedName family) :=
  inferInstanceAs (Decidable (_ ∨ _))

/-- A family that goes on like `combined_…` is `combined`, or has the underscore itself. -/
theorem combinedName_of_append {family : String} {tail rest : List Char}
    (h : family.toList ++ '_' :: tail = "combined".toList ++ '_' :: rest) :
    CombinedName family := by
  rcases List.append_eq_append_iff.mp h with ⟨l, hl, htail⟩ | ⟨l, hl, hrest⟩
  -- a shorter family would leave an underscore inside the word
  · cases l with
    | nil =>
      rw [List.append_nil] at hl
      exact Or.inl (String.toList_inj.mp hl.symm)
    | cons c l =>
      have hc : c = '_' := (List.cons.inj htail).1.symm
      have hmem : '_' ∈ "combined".toList := by
        rw [hl, hc]
        simp
      exact absurd hmem (by decide)
  · cases l with
    | nil =>
      rw [List.append_nil] at hl
      exact Or.inl (String.toList_inj.mp hl)
    | cons c l =>
      have hc : c = '_' := (List.cons.inj hrest).1.symm
      refine Or.inr (Text.startsWith_iff.mpr ⟨l, ?_⟩)
      rw [hl, hc]
      simp

/-- A base node whose family is no such name shares no id with a combined node. -/
theorem id_ne_of_family {env : Env} {root : Value} {options : GraphLoadOptions}
    {base : List StrategyNode} (h : baseNodes env root options = .ok base) {n m : StrategyNode}
    (hn : n ∈ base) (hfamily : ¬CombinedName n.family)
    (hm : m ∈ combinedNodes options base) : n.id ≠ m.id := by
  obtain ⟨cfg, -, j, pair, -, rfl⟩ := getElem_of_mem_combinedNodes hm
  intro hid
  rw [combinedNode_id] at hid
  refine hfamily ?_
  -- the id of a combined base node, which only a plain list can have, leaves out the action
  obtain ⟨i, hi | hi⟩ := baseNode_id h hn
  · rw [hi] at hid
    have hname := congrArg String.toList (Text.numbered_inj hid).1
    have hlist : n.family.toList = "combined_".toList ++
        (pair.1.family.toList ++ '_' :: pair.2.family.toList) := by
      simpa [List.append_assoc] using hname
    refine Or.inr (Text.startsWith_iff.mpr ?_)
    rw [hlist]
    exact List.prefix_append _ _
  · rw [hi] at hid
    have hname := congrArg String.toList (Text.numbered_inj hid).1
    have hlist : n.family.toList ++ '_' :: n.actionId.toList = "combined".toList ++
        '_' :: (pair.1.family.toList ++ '_' :: pair.2.family.toList) := by
      simpa [List.append_assoc] using hname
    exact combinedName_of_append hlist

/-! ## What the same id means -/

/--
Ids are positional.

The same id is the same position in the selections of any two loads. Where the loads select alike it
is the same base node; with the same base nodes and settings it is the same combined node. In one
graph no two nodes share an id, unless a family of a base node is `combined` or starts with
`combined_`.
-/
theorem ids_positional {env : Env} {root : Value} {o o' : GraphLoadOptions}
    {base base' : List StrategyNode} (hbase : baseNodes env root o = .ok base)
    (hbase' : baseNodes env root o' = .ok base') :
    (∀ n ∈ base, ∀ m ∈ base', n.id = m.id →
      ∃ i : Nat, base[i]? = some n ∧ base'[i]? = some m) ∧
    (SameSelection o o' → ∀ n ∈ base, ∀ m ∈ base', n.id = m.id → n = m) ∧
    (base = base' → o.protocolKey = o'.protocolKey →
      o.strategyCombinations = o'.strategyCombinations →
      ∀ n ∈ combinedNodes o base, ∀ m ∈ combinedNodes o' base', n.id = m.id → n = m) ∧
    ∀ graph, loadForProtocolMode env root o = .ok graph →
      (∀ n ∈ base, ¬CombinedName n.family) →
      ∀ n ∈ graph.nodes, ∀ m ∈ graph.nodes, n.id = m.id → n = m := by
  refine ⟨fun n hn m hm => sameId_of_baseNodes hbase hbase' hn hm,
    fun hsame n hn m hm => eq_of_sameId_of_sameSelection hbase hbase' hsame hn hm, ?_, ?_⟩
  · rintro rfl hkey hcombinations n hn m hm hid
    exact eq_of_sameId_of_combinedNodes hkey hcombinations hn hm hid
  · intro graph hload hfamily n hn m hm hid
    rw [loadForProtocolMode_nodes hbase hload, List.mem_append] at hn hm
    rcases hn with hn | hn
    · rcases hm with hm | hm
      · exact eq_of_sameId_of_sameSelection hbase hbase ⟨rfl, rfl, rfl, rfl, rfl, rfl, rfl⟩ hn hm
          hid
      · exact absurd hid (id_ne_of_family hbase hn (hfamily n hn) hm)
    · rcases hm with hm | hm
      · exact absurd hid.symm (id_ne_of_family hbase hm (hfamily m hm) hn)
      · exact eq_of_sameId_of_combinedNodes rfl rfl hn hm hid

/-- With `pos` overridden in the settings. -/
def overridingOptions (pos : String) : GraphLoadOptions :=
  { smallOptions "force" with
    strategyValues := some { mode := "override", http := [], tls := [("pos", [pos])], quic := [] } }

/-- The first candidate alone and all candidates: the first node keeps its id and its arguments. -/
theorem ids_positional_splitWsize :
    ∃ base base',
      baseNodes catalogEnv (smallCatalog [splitFamily, wsizeFamily] [])
        { smallOptions "force" with limits := { noLimits with maxCandidates := 1 } } = .ok base ∧
      baseNodes catalogEnv (smallCatalog [splitFamily, wsizeFamily] [])
        (smallOptions "force") = .ok base' ∧
      base.length = 1 ∧ base'.length = 2 ∧
      ∀ n ∈ base, ∀ m ∈ base', n.id = m.id → n = m := by
  have hbase : baseNodes catalogEnv (smallCatalog [splitFamily, wsizeFamily] [])
      { smallOptions "force" with limits := { noLimits with maxCandidates := 1 } } =
        .ok [splitNode 0] := by decide +kernel
  have hbase' : baseNodes catalogEnv (smallCatalog [splitFamily, wsizeFamily] [])
      (smallOptions "force") = .ok [splitNode 0, wsizeNode 1] := by decide +kernel
  exact ⟨_, _, hbase, hbase', rfl, rfl,
    (ids_positional hbase hbase').2.1 ⟨rfl, rfl, rfl, rfl, rfl, rfl, rfl⟩⟩

/-- Four families, the last of which is named like the combined nodes of `b`. -/
def combinedNameCatalog : Value :=
  smallCatalog [smallFamily "a" "x" "wsize:wsize=1" [], smallFamily "b" "y" "wsize:wsize=2" [],
    smallFamily "c" "z" "wsize:wsize=3" [], smallFamily "combined_b" "c" "wsize:wsize=4" []] []

/-- The last base node and the node that combines `b` and `c` are both `tls12_combined_b_c_3`. -/
theorem sameId_inOneGraph :
    ∃ graph, loadForProtocolMode catalogEnv combinedNameCatalog
        { smallOptions "force" with
          strategyCombinations := some { smallCombinations "b" "c" with mode := "force" } } =
        .ok graph ∧
      ∃ n ∈ graph.nodes, ∃ m ∈ graph.nodes, n.id = m.id ∧ n.args ≠ m.args := by
  have hmap : (loadForProtocolMode catalogEnv combinedNameCatalog
      { smallOptions "force" with
        strategyCombinations := some { smallCombinations "b" "c" with mode := "force" } }).map
      (fun graph => decide (∃ n ∈ graph.nodes, ∃ m ∈ graph.nodes, n.id = m.id ∧ n.args ≠ m.args)) =
        .ok true := by decide +kernel
  generalize loadForProtocolMode catalogEnv combinedNameCatalog _ = load at hmap ⊢
  cases load with
  | error e => cases hmap
  | ok graph => exact ⟨graph, rfl, of_decide_eq_true (Except.ok.inj hmap)⟩

/-- Two loads that differ in their strategy values give one id to different strategies. -/
theorem sameId_differentArgs : ∃ graph graph',
    loadForProtocolMode catalogEnv (smallCatalog [splitFamily] []) (smallOptions "force") =
      .ok graph ∧
    loadForProtocolMode catalogEnv (smallCatalog [splitFamily] []) (overridingOptions "2") =
      .ok graph' ∧
    ∃ n ∈ graph.nodes, ∃ m ∈ graph'.nodes, n.id = m.id ∧ n.args ≠ m.args := by
  have hload : loadForProtocolMode catalogEnv (smallCatalog [splitFamily] [])
      (smallOptions "force") = .ok ⟨[splitNode 0]⟩ := by decide +kernel
  have hload' : loadForProtocolMode catalogEnv (smallCatalog [splitFamily] [])
      (overridingOptions "2") = .ok ⟨[smallNode 0 "split" "multisplit_tls"
        ["--payload=tls_client_hello", "--lua-desync=multisplit:pos=2"]]⟩ := by decide +kernel
  exact ⟨_, _, hload, hload', _, List.mem_singleton_self _, _, List.mem_singleton_self _, rfl,
    by decide⟩

end ZapretChecker.Graph
