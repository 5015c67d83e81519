import ZapretChecker.Graph.Configured

/-!
# Payload filters of combined nodes

A `--payload` option of nfqws2 filters the `--lua-desync` options after it, up to the next `--payload`.
A combined node is the concatenation of its components, so the second one can fall under the filter
of the first.

* `payloadScopes` — the `--lua-desync` options of an argument list, each with its filter
* `filtersPreserved_combinedNode` — one combined node
* `filtersPreserved_iff` — all nodes that are combined
-/

namespace ZapretChecker.Graph

/-- Every `--lua-desync` option with the filter in effect there; `current` is the one before. -/
def payloadScopes : Option String → List String → List (String × Option String)
  | _, [] => []
  | current, arg :: args =>
    match Text.stripPrefix arg "--payload=" with
    | some payload => payloadScopes (some payload) args
    | none =>
      if isOption "--lua-desync" arg then (arg, current) :: payloadScopes current args
      else payloadScopes current args

/-- Every `--lua-desync` option has the filter it has in its component. -/
def FiltersPreserved (n : StrategyNode) : Prop :=
  payloadScopes none n.args = n.components.flatMap fun c => payloadScopes none c.args

instance (n : StrategyNode) : Decidable (FiltersPreserved n) :=
  inferInstanceAs (Decidable (_ = _))

/-- The node has a `--payload` option, as `ensurePayloadOption` asks. -/
def hasPayload (args : List String) : Bool := args.any (isOption "--payload")

/-! ## Single strategies -/

theorem payloadScopes_cons_payload (current : Option String) (payload : String)
    (args : List String) :
    payloadScopes current (("--payload=" ++ payload) :: args) =
      payloadScopes (some payload) args := by
  have hstrip : Text.stripPrefix ("--payload=" ++ payload) "--payload=" = some payload :=
    stripPrefix_append _ _
  rw [payloadScopes, hstrip]

theorem payloadScopes_cons_lua (current : Option String) (lua : String) (args : List String) :
    payloadScopes current (("--lua-desync=" ++ lua) :: args) =
      ("--lua-desync=" ++ lua, current) :: payloadScopes current args := by
  have hstrip : Text.stripPrefix ("--lua-desync=" ++ lua) "--payload=" = none :=
    stripPrefix_eq_none (isOption_payload_lua lua)
  rw [payloadScopes, hstrip]
  simp

theorem payloadScopes_append_blobs (current : Option String) (blobs args : List String) :
    payloadScopes current (blobs.map ("--blob=" ++ ·) ++ args) = payloadScopes current args := by
  induction blobs with
  | nil => rfl
  | cons blob blobs ih =>
    have hstrip : Text.stripPrefix ("--blob=" ++ blob) "--payload=" = none :=
      stripPrefix_eq_none (isOption_payload_blob blob)
    rw [List.map_cons, List.cons_append, payloadScopes, hstrip]
    simpa using ih

/-- A single strategy has one `--lua-desync` option, under its own filter if it has one. -/
theorem payloadScopes_toArgs_append (current : Option String) (s : SingleArgs)
    (args : List String) :
    payloadScopes current (s.toArgs ++ args) =
      ("--lua-desync=" ++ s.lua, s.filter.or current) ::
        payloadScopes (s.filter.or current) args := by
  unfold SingleArgs.toArgs
  rw [List.append_assoc, List.append_assoc, payloadScopes_append_blobs]
  cases hfilter : s.filter with
  | none =>
    rw [Option.toList_none, List.map_nil, List.nil_append, List.singleton_append,
      payloadScopes_cons_lua, Option.none_or]
  | some payload =>
    rw [Option.toList_some, List.map_singleton, List.singleton_append, List.singleton_append,
      payloadScopes_cons_payload, payloadScopes_cons_lua, Option.some_or]

theorem payloadScopes_toArgs (s : SingleArgs) :
    payloadScopes none s.toArgs = [("--lua-desync=" ++ s.lua, s.filter)] := by
  have happend := payloadScopes_toArgs_append none s []
  rwa [List.append_nil, Option.or_none] at happend

theorem hasPayload_toArgs (s : SingleArgs) : hasPayload s.toArgs = s.filter.isSome := by
  unfold hasPayload SingleArgs.toArgs
  cases s.filter <;> simp

/-! ## Combined nodes -/

/-- The filters are preserved unless only the first component has one. -/
theorem filtersPreserved_combinedNode {protocolKey key : String} {first second : StrategyNode}
    (hfirst : CatalogNode protocolKey first) (hsecond : CatalogNode protocolKey second) (i : Nat) :
    FiltersPreserved (combinedNode key i (first, second)) ↔
      (hasPayload first.args = true → hasPayload second.args = true) := by
  obtain ⟨s, hs⟩ := hfirst.exists_toArgs
  obtain ⟨t, ht⟩ := hsecond.exists_toArgs
  have hargs : payloadScopes none (combinedNode key i (first, second)).args =
      [("--lua-desync=" ++ s.lua, s.filter), ("--lua-desync=" ++ t.lua, t.filter.or s.filter)] := by
    have htail := payloadScopes_toArgs_append s.filter t []
    change payloadScopes none (first.args ++ second.args) = _
    rw [hs, ht, payloadScopes_toArgs_append, Option.or_none]
    rw [List.append_nil] at htail
    rw [htail]
    rfl
  have hcomponents : ((combinedNode key i (first, second)).components.flatMap fun c =>
      payloadScopes none c.args) =
        [("--lua-desync=" ++ s.lua, s.filter), ("--lua-desync=" ++ t.lua, t.filter)] := by
    change payloadScopes none first.args ++ (payloadScopes none second.args ++ []) = _
    rw [hs, ht, payloadScopes_toArgs, payloadScopes_toArgs]
    rfl
  -- the two lists differ only in the filter of the second option
  rw [FiltersPreserved, hargs, hcomponents, hs, ht, hasPayload_toArgs, hasPayload_toArgs]
  cases hsf : s.filter <;> cases htf : t.filter <;> simp

/--
In the combinations of a catalog's nodes every `--lua-desync` option keeps its payload filter exactly
when no two base nodes are combined of which only the first has a `--payload` option.
-/
theorem filtersPreserved_iff {env : Env} {root : Value} {options : GraphLoadOptions}
    {base : List StrategyNode} (hbase : parseCatalogStrategies env root options = .ok base)
    (cfg : StrategyCombinationConfig) :
    (∀ n ∈ generateCombinedNodes options.protocolKey base cfg, FiltersPreserved n) ↔
      ∀ first second, Combines options.protocolKey base cfg first second →
        hasPayload first.args = true → hasPayload second.args = true := by
  have hnodes := fun n hn => catalogNode_of_parseCatalogStrategies (n := n) hbase hn
  constructor
  · intro h first second hcombines
    obtain ⟨i, hi, he⟩ := List.getElem_of_mem ((mem_combinedPairs_iff hnodes).mpr hcombines)
    have hpreserved := h _ (mem_generateCombinedNodes.mpr ⟨i, hi, rfl⟩)
    rw [he] at hpreserved
    exact (filtersPreserved_combinedNode (hnodes _ hcombines.first_mem)
      (hnodes _ hcombines.second_mem) i).mp hpreserved
  · intro h n hn
    obtain ⟨i, hi, rfl⟩ := mem_generateCombinedNodes.mp hn
    have hcombines := (mem_combinedPairs_iff hnodes).mp (List.getElem_mem hi)
    exact (filtersPreserved_combinedNode (hnodes _ hcombines.first_mem)
      (hnodes _ hcombines.second_mem) i).mpr (h _ _ hcombines)

/-- `ipfrag` comes before `split` and has no filter, so both keep theirs. -/
theorem filtersPreserved_iff_ipfragSplit :
    parseCatalogStrategies catalogEnv (smallCatalog [splitFamily, ipfragFamily] [])
      (smallOptions "force") = .ok [splitNode 0, ipfragNode 1] ∧
    generateCombinedNodes "tls12" [splitNode 0, ipfragNode 1]
      (smallCombinations "split" "ipfrag") ≠ [] ∧
    ∀ n ∈ generateCombinedNodes "tls12" [splitNode 0, ipfragNode 1]
      (smallCombinations "split" "ipfrag"), FiltersPreserved n := by
  have hbase : parseCatalogStrategies catalogEnv (smallCatalog [splitFamily, ipfragFamily] [])
      (smallOptions "force") = .ok [splitNode 0, ipfragNode 1] := by decide +kernel
  refine ⟨hbase, by decide +kernel, ?_⟩
  refine (filtersPreserved_iff hbase (smallCombinations "split" "ipfrag")).mpr ?_
  have hinOrder : ∀ first ∈ [splitNode 0, ipfragNode 1], ∀ second ∈ [splitNode 0, ipfragNode 1],
      orderedComponents first second = (first, second) →
        hasPayload first.args = true → hasPayload second.args = true := by decide +kernel
  exact fun first second h => hinOrder first h.first_mem second h.second_mem h.inOrder

/--
`wsize` alone has no filter. After `split` it is applied to the payload `tls_client_hello` only.
-/
theorem not_filtersPreserved_splitWsize :
    parseCatalogStrategies catalogEnv (smallCatalog [splitFamily, wsizeFamily] [])
      (smallOptions "force") = .ok [splitNode 0, wsizeNode 1] ∧
    ∃ n ∈ generateCombinedNodes "tls12" [splitNode 0, wsizeNode 1]
      (smallCombinations "wsize" "split"),
      n.components = [componentOf (splitNode 0), componentOf (wsizeNode 1)] ∧
      payloadScopes none (wsizeNode 1).args = [("--lua-desync=wsize:wsize=1", none)] ∧
      payloadScopes none n.args =
        [("--lua-desync=multisplit:pos=1", some "tls_client_hello"),
          ("--lua-desync=wsize:wsize=1", some "tls_client_hello")] ∧
      ¬ FiltersPreserved n := by
  decide +kernel

end ZapretChecker.Graph
