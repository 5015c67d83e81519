import Mathlib.Data.List.Perm.Subperm
import Mathlib.Data.List.Flatten
import ZapretChecker.Graph.Catalog

/-!
# Expanding a catalog

In the modes `force` and `expand` a load without limits gives exactly the argument lists that the
used actions of the families render, each of them once.

* `expansion` — the argument lists of a family
* `select_exact` — what is selected, from the families a plan names
* `force_exact`, `expand_exact` — the two modes
-/

namespace ZapretChecker.Graph

open Collect

/-- The finalized argument lists of the variants of a family. -/
def expansion (input : RenderInput) (family : CatalogFamily) : List (List String) :=
  if family.enabled && protocolMatches family.protocols input.protocolKey "" then
    let actions := family.actions.filter fun action =>
      !isLegacy action.id && protocolMatches action.protocols input.protocolKey action.template
    actions.flatMap fun action =>
      (renderLuaDesyncVariants input action none).map (finalizeArgs input.protocolKey)
  else []

/-- The argument lists of all families. -/
def expansions (input : RenderInput) (families : List CatalogFamily) : List (List String) :=
  families.flatMap (expansion input)

/-- The names in the `family_order` of the protocol. -/
def familyOrderNames (root : Value) (protocolKey : String) : List String :=
  ((expandFamilyOrder root protocolKey).getD []).filterMap Value.asStr

/-- The families the `family_order` of the protocol names. -/
def expandFamilies (root : Value) (protocolKey : String) (families : List CatalogFamily) :
    List CatalogFamily :=
  families.filter fun family => (familyOrderNames root protocolKey).contains family.id

/-- No limit of a selection can be reached by `count` nodes. -/
structure Unlimited (limits : SelectLimits) (count : Nat) : Prop where
  candidates : count ≤ limits.maxCandidates
  perFamily : count ≤ limits.maxPerFamily
  perAction : count ≤ limits.maxPerAction

/-! ## Families by their ids -/

theorem findFamily_eq_some_iff {catalog : List CatalogFamily} (hids : (catalog.map (·.id)).Nodup)
    {familyId : String} {family : CatalogFamily} :
    findFamily catalog familyId = some family ↔ family ∈ catalog ∧ family.id = familyId := by
  unfold findFamily
  constructor
  · intro h
    exact ⟨List.mem_reverse.mp (List.mem_of_find?_eq_some h), by simpa using List.find?_some h⟩
  · rintro ⟨hmem, rfl⟩
    cases hfind : catalog.reverse.find? (·.id == family.id) with
    | none =>
      have hnone := List.find?_eq_none.mp hfind family (List.mem_reverse.mpr hmem)
      simp at hnone
    | some other =>
      have hother := List.mem_reverse.mp (List.mem_of_find?_eq_some hfind)
      have hid : other.id = family.id := by simpa using List.find?_some hfind
      rw [List.inj_on_of_nodup_map hids hother hmem hid]

theorem catalogFamilies_ids (families : List Value) :
    (families.filterMap fun family => (family.get "id").bind Value.asStr) =
      (catalogFamilies families).map (·.id) := by
  unfold catalogFamilies
  rw [List.map_filterMap]
  apply List.filterMap_congr
  intro family _
  cases hid : (family.get "id").bind Value.asStr <;> simp [catalogFamily, hid]

/-! ## A load without limits -/

/-- The variants of a family are its expansion. -/
theorem exists_mem_familyVariants {input : RenderInput} {catalog : List CatalogFamily}
    {familyId : String} {args : List String} :
    (∃ v ∈ familyVariants input catalog familyId none, v.args = args) ↔
      ∃ family, findFamily catalog familyId = some family ∧ args ∈ expansion input family := by
  constructor
  · rintro ⟨v, hv, rfl⟩
    obtain ⟨hfind, henabled, hmatches, action, haction, hselected, -, lua, hlua, hargs⟩ :=
      mem_familyVariants.mp hv
    refine ⟨v.family, hfind, ?_⟩
    rw [expansion, henabled, hmatches, Bool.and_self, if_pos rfl, List.mem_flatMap]
    refine ⟨action, List.mem_filter.mpr ⟨haction, ?_⟩, List.mem_map.mpr ⟨lua, hlua, hargs.symm⟩⟩
    simpa [actionSelected, actionFilter] using hselected
  · rintro ⟨family, hfind, hargs⟩
    unfold expansion at hargs
    split at hargs
    · rename_i hused
      rw [Bool.and_eq_true] at hused
      obtain ⟨action, haction, hargs⟩ := List.mem_flatMap.mp hargs
      obtain ⟨haction, hselected⟩ := List.mem_filter.mp haction
      obtain ⟨lua, hlua, rfl⟩ := List.mem_map.mp hargs
      refine ⟨⟨family, action.id, finalizeArgs input.protocolKey lua⟩, ?_, rfl⟩
      refine mem_familyVariants.mpr ⟨hfind, hused.1, hused.2, action, haction, ?_, rfl, lua, hlua,
        rfl⟩
      simpa [actionSelected, actionFilter] using hselected
    · exact absurd hargs List.not_mem_nil

/-- The variants of a plan without candidates are the expansions of the families it names. -/
theorem exists_mem_planVariants {input : RenderInput} {catalog : List CatalogFamily}
    (hids : (catalog.map (·.id)).Nodup) {names : List String} {args : List String} :
    (∃ v ∈ planVariants input catalog (names.map fun name => (name, none)), v.args = args) ↔
      args ∈ expansions input (catalog.filter fun family => names.contains family.id) := by
  unfold planVariants expansions
  constructor
  · rintro ⟨v, hv, hargs⟩
    obtain ⟨⟨familyId, candidate⟩, hplan, hv⟩ := List.mem_flatMap.mp hv
    obtain ⟨name, hname, hpair⟩ := List.mem_map.mp hplan
    obtain ⟨rfl, rfl⟩ := Prod.mk.inj hpair
    obtain ⟨family, hfind, hmem⟩ := exists_mem_familyVariants.mp ⟨v, hv, hargs⟩
    obtain ⟨hfamily, hid⟩ := (findFamily_eq_some_iff hids).mp hfind
    refine List.mem_flatMap.mpr ⟨family, List.mem_filter.mpr ⟨hfamily, ?_⟩, hmem⟩
    rw [hid]
    simpa using hname
  · intro hargs
    obtain ⟨family, hfamily, hargs⟩ := List.mem_flatMap.mp hargs
    obtain ⟨hfamily, hname⟩ := List.mem_filter.mp hfamily
    have hfind := (findFamily_eq_some_iff hids).mpr ⟨hfamily, rfl⟩
    obtain ⟨v, hv, hargs⟩ := exists_mem_familyVariants.mpr ⟨family, hfind, hargs⟩
    refine ⟨v, List.mem_flatMap.mpr ⟨(family.id, none), ?_, hv⟩, hargs⟩
    exact List.mem_map.mpr ⟨family.id, by simpa using hname, rfl⟩

theorem ne_nil_of_mem_expansions {input : RenderInput} {families : List CatalogFamily}
    {args : List String} (h : args ∈ expansions input families) : args ≠ [] := by
  obtain ⟨family, -, h⟩ := List.mem_flatMap.mp h
  unfold expansion at h
  split at h
  · obtain ⟨action, -, h⟩ := List.mem_flatMap.mp h
    obtain ⟨lua, -, rfl⟩ := List.mem_map.mp h
    exact finalizeArgs_ne_nil _ _
  · exact absurd h List.not_mem_nil

/-- The argument lists before the selection are those of the families the plan names. -/
theorem mem_map_args_catalogNodes {input : RenderInput} {catalog : List CatalogFamily}
    (hids : (catalog.map (·.id)).Nodup) {names : List String}
    (hnul : ∀ args ∈ expansions input (catalog.filter fun family => names.contains family.id),
      ∀ arg ∈ args, '\x00' ∉ arg.toList) {args : List String} :
    args ∈ (catalogNodes input catalog (names.map fun name => (name, none))).map (·.args) ↔
      args ∈ expansions input (catalog.filter fun family => names.contains family.id) := by
  rw [map_args_catalogNodes, ← exists_mem_planVariants hids, List.mem_map]
  constructor
  · rintro ⟨v, hv, hargs⟩
    exact ⟨v, (firstOf_sublist _ _ _).subset hv, hargs⟩
  · rintro ⟨v, hv, rfl⟩
    -- The first variant with the key of `v` is collected; without a NUL it has the same arguments.
    have hkey : argsKey v.args ∈ (firstOf (fun v => argsKey v.args) []
        (planVariants input catalog (names.map fun name => (name, none)))).map
          fun v => argsKey v.args :=
      key_mem_firstOf_iff.mpr ⟨List.mem_map.mpr ⟨v, hv, rfl⟩, List.not_mem_nil⟩
    obtain ⟨w, hw, he⟩ := List.mem_map.mp hkey
    have hv' := (exists_mem_planVariants hids).mp ⟨v, hv, rfl⟩
    have hw' := (exists_mem_planVariants hids).mp ⟨w, (firstOf_sublist _ _ _).subset hw, rfl⟩
    exact ⟨w, hw, argsKey_inj (ne_nil_of_mem_expansions hw') (ne_nil_of_mem_expansions hv')
      (hnul _ hw') (hnul _ hv') he⟩

/-- The strategies file is a catalog of these families, which have different ids. -/
structure IsCatalog (root : Value) (families : List CatalogFamily) : Prop where
  noList : valueSeq root "strategies" = none
  parsed : (valueSeq root "families").map catalogFamilies = some families
  ids : (families.map (·.id)).Nodup

/-- Without combinations a catalog loads the selected nodes of its plan. -/
theorem loadForProtocolMode_eq_ok {env : Env} {root : Value} {options : GraphLoadOptions}
    {families : List CatalogFamily} {graph : StrategyGraph} (hcatalog : IsCatalog root families)
    (hcombinations : options.strategyCombinations = none)
    (hload : loadForProtocolMode env root options = .ok graph) :
    ∃ values plan, catalogFamilies values = families ∧
      familyPlan root values options.protocolKey options.searchMode = .ok plan ∧
      graph.nodes = selectDiverseNodes (catalogNodes (renderInput env root options) families plan)
        options.protocolKey options.limits := by
  have hparse : parseCatalogStrategies env root options = .ok graph.nodes := by
    unfold loadForProtocolMode baseNodes at hload
    rw [hcatalog.noList] at hload
    cases hnodes : parseCatalogStrategies env root options with
    | error e => simp [hnodes, bind, Except.bind] at hload
    | ok nodes =>
      simp only [hnodes, bind, Except.bind, combinedNodes, hcombinations, List.append_nil] at hload
      rw [← Except.ok.inj hload]
  obtain ⟨values, plan, hvalues, hplan, hgraph⟩ := parseCatalogStrategies_eq_ok hparse
  have hfamilies : catalogFamilies values = families := by
    have hparsed := hcatalog.parsed
    rw [hvalues, Option.map_some] at hparsed
    exact Option.some.inj hparsed
  rw [hfamilies] at hgraph
  exact ⟨values, plan, hfamilies, hplan, hgraph⟩

/-- The selection of a plan that names families, without limits. -/
theorem select_exact {input : RenderInput} {protocolKey : String} {limits : SelectLimits}
    {families : List CatalogFamily} {names : List String} (hids : (families.map (·.id)).Nodup)
    (hlimits : Unlimited limits
      (expansions input (families.filter fun family => names.contains family.id)).length)
    (hnul : ∀ args ∈ expansions input (families.filter fun family => names.contains family.id),
      ∀ arg ∈ args, '\x00' ∉ arg.toList)
    {nodes : List StrategyNode} (hnodes : nodes = selectDiverseNodes
      (catalogNodes input families (names.map fun name => (name, none))) protocolKey limits) :
    (nodes.map (·.args)).Nodup ∧ ∀ args, args ∈ nodes.map (·.args) ↔
      args ∈ expansions input (families.filter fun family => names.contains family.id) := by
  have hkeys := nodup_catalogNodes input families (names.map fun name => (name, none))
  have hargs := nodup_map_args_of_keys hkeys
  have hmem := fun args : List String => (mem_map_args_catalogNodes hids hnul : args ∈ _ ↔ _)
  have hlen := (hargs.subperm fun args h => (hmem args).mp h).length_le
  rw [List.length_map] at hlen
  have hperm : (nodes.map (·.args)).Perm _ := hnodes ▸ selectDiverseNodes_perm hkeys
    (hlen.trans hlimits.perFamily) (hlen.trans hlimits.perAction) (hlen.trans hlimits.candidates)
  exact ⟨hperm.nodup_iff.mpr hargs, fun args => hperm.mem_iff.trans (hmem args)⟩

/-! ## Both modes -/

theorem filter_all_ids (families : List CatalogFamily) :
    (families.filter fun family => (families.map (·.id)).contains family.id) = families := by
  rw [List.filter_eq_self]
  intro family hfamily
  simpa using ⟨family, hfamily, rfl⟩

theorem expandFamilies_sublist (root : Value) (protocolKey : String)
    (families : List CatalogFamily) :
    (expandFamilies root protocolKey families).Sublist families :=
  List.filter_sublist

/-- What the mode `expand` renders is part of what `force` renders. -/
theorem expansions_expandFamilies_sublist (input : RenderInput) (root : Value)
    (protocolKey : String) (families : List CatalogFamily) :
    (expansions input (expandFamilies root protocolKey families)).Sublist
      (expansions input families) :=
  (expandFamilies_sublist root protocolKey families).flatMap _

section Exact

variable {env : Env} {root : Value} {options : GraphLoadOptions} {families : List CatalogFamily}
  {graph : StrategyGraph} (hcatalog : IsCatalog root families)
  (hcombinations : options.strategyCombinations = none)
  (hlimits : Unlimited options.limits
    (expansions (renderInput env root (options.withMode "force")) families).length)
  (hnul : ∀ args ∈ expansions (renderInput env root (options.withMode "force")) families,
    ∀ arg ∈ args, '\x00' ∉ arg.toList)
include hcatalog hcombinations hlimits hnul

theorem force_exact
    (hload : loadForProtocolMode env root (options.withMode "force") = .ok graph) :
    (graph.nodes.map (·.args)).Nodup ∧ ∀ args, args ∈ graph.nodes.map (·.args) ↔
      args ∈ expansions (renderInput env root (options.withMode "force")) families := by
  have hnone : (options.withMode "force").strategyCombinations = none := hcombinations
  obtain ⟨values, plan, hvalues, hplan, hgraph⟩ := loadForProtocolMode_eq_ok hcatalog hnone hload
  have hplan : plan = (families.map (·.id)).map fun name => (name, none) := by
    rw [← hvalues, ← catalogFamilies_ids]
    exact (Except.ok.inj hplan).symm
  subst hplan
  have hall := filter_all_ids families
  have hexact := select_exact hcatalog.ids (by rw [hall]; exact hlimits) (by rw [hall]; exact hnul)
    hgraph
  rwa [hall] at hexact

theorem expand_exact
    (hload : loadForProtocolMode env root (options.withMode "expand") = .ok graph) :
    (graph.nodes.map (·.args)).Nodup ∧ ∀ args, args ∈ graph.nodes.map (·.args) ↔
      args ∈ expansions (renderInput env root (options.withMode "expand"))
        (expandFamilies root options.protocolKey families) := by
  -- Both modes use the values of the actions, so they render alike.
  have hinput : renderInput env root (options.withMode "expand") =
      renderInput env root (options.withMode "force") := rfl
  have hsub := expansions_expandFamilies_sublist
    (renderInput env root (options.withMode "force")) root options.protocolKey families
  have hnone : (options.withMode "expand").strategyCombinations = none := hcombinations
  obtain ⟨values, plan, hvalues, hplan, hgraph⟩ := loadForProtocolMode_eq_ok hcatalog hnone hload
  have hplan : plan = (familyOrderNames root options.protocolKey).map fun name => (name, none) := by
    have hplan : familyPlan root values options.protocolKey "expand" = .ok plan := hplan
    rw [familyOrderNames]
    cases horder : expandFamilyOrder root options.protocolKey with
    | none => simp [familyPlan, horder] at hplan
    | some order =>
      simp only [familyPlan, horder, Except.ok.injEq] at hplan
      exact hplan.symm
  subst hplan
  refine select_exact hcatalog.ids ?_ ?_ hgraph
  · have hlen := hsub.length_le
    exact ⟨hlen.trans hlimits.candidates, hlen.trans hlimits.perFamily,
      hlen.trans hlimits.perAction⟩
  · exact fun args hargs => hnul args (hsub.subset hargs)

end Exact

/--
Catalog expansion loses and invents nothing.

With different family ids and no limit, a load in the mode `force` gives each argument list that the
used actions of the enabled families render, once. A load in the mode `expand` gives those of the
families that `family_order` names.
-/
theorem expansion_exact {env : Env} {root : Value} {options : GraphLoadOptions}
    {families : List CatalogFamily} (hcatalog : IsCatalog root families)
    (hcombinations : options.strategyCombinations = none)
    (hlimits : Unlimited options.limits
      (expansions (renderInput env root (options.withMode "force")) families).length)
    (hnul : ∀ args ∈ expansions (renderInput env root (options.withMode "force")) families,
      ∀ arg ∈ args, '\x00' ∉ arg.toList) :
    (∀ graph, loadForProtocolMode env root (options.withMode "force") = .ok graph →
      (graph.nodes.map (·.args)).Nodup ∧ ∀ args, args ∈ graph.nodes.map (·.args) ↔
        args ∈ expansions (renderInput env root (options.withMode "force")) families) ∧
    (∀ graph, loadForProtocolMode env root (options.withMode "expand") = .ok graph →
      (graph.nodes.map (·.args)).Nodup ∧ ∀ args, args ∈ graph.nodes.map (·.args) ↔
        args ∈ expansions (renderInput env root (options.withMode "expand"))
          (expandFamilies root options.protocolKey families)) ∧
    ∀ forced expanded, loadForProtocolMode env root (options.withMode "force") = .ok forced →
      loadForProtocolMode env root (options.withMode "expand") = .ok expanded →
        expanded.nodes.map (·.args) ⊆ forced.nodes.map (·.args) := by
  refine ⟨fun graph h => force_exact hcatalog hcombinations hlimits hnul h,
    fun graph h => expand_exact hcatalog hcombinations hlimits hnul h, ?_⟩
  intro forced expanded hforced hexpanded args hargs
  rw [(force_exact hcatalog hcombinations hlimits hnul hforced).2]
  have hargs := ((expand_exact hcatalog hcombinations hlimits hnul hexpanded).2 args).mp hargs
  exact (expansions_expandFamilies_sublist _ _ _ _).subset hargs

/-- In a catalog where `family_order` leaves `fake` out, the mode `force` gives its node too. -/
theorem expansion_exact_smallCatalog :
    ∃ forced expanded,
      loadForProtocolMode catalogEnv (smallCatalog [fakeFamily, wsizeFamily] ["wsize"])
        ((smallOptions "force").withMode "force") = .ok forced ∧
      loadForProtocolMode catalogEnv (smallCatalog [fakeFamily, wsizeFamily] ["wsize"])
        ((smallOptions "force").withMode "expand") = .ok expanded ∧
      forced.nodes.length = 2 ∧ expanded.nodes.length = 1 ∧
      (forced.nodes.map (·.args)).Nodup ∧
      expanded.nodes.map (·.args) ⊆ forced.nodes.map (·.args) := by
  have hcatalog : IsCatalog (smallCatalog [fakeFamily, wsizeFamily] ["wsize"])
      (catalogFamilies [fakeFamily, wsizeFamily]) := ⟨rfl, rfl, by decide⟩
  have hlen : (expansions (renderInput catalogEnv (smallCatalog [fakeFamily, wsizeFamily] ["wsize"])
      ((smallOptions "force").withMode "force"))
      (catalogFamilies [fakeFamily, wsizeFamily])).length ≤ noStrategyLimit := by decide +kernel
  have hnul : ∀ args ∈ expansions (renderInput catalogEnv
      (smallCatalog [fakeFamily, wsizeFamily] ["wsize"]) ((smallOptions "force").withMode "force"))
      (catalogFamilies [fakeFamily, wsizeFamily]), ∀ arg ∈ args, '\x00' ∉ arg.toList := by
    decide +kernel
  obtain ⟨hforce, hexpand, hsub⟩ := expansion_exact hcatalog rfl ⟨hlen, hlen, hlen⟩ hnul
  have hforced : ((loadForProtocolMode catalogEnv
      (smallCatalog [fakeFamily, wsizeFamily] ["wsize"])
      ((smallOptions "force").withMode "force")).map (·.nodes.length)) = .ok 2 := by decide +kernel
  have hexpanded : ((loadForProtocolMode catalogEnv
      (smallCatalog [fakeFamily, wsizeFamily] ["wsize"])
      ((smallOptions "force").withMode "expand")).map (·.nodes.length)) = .ok 1 := by decide +kernel
  cases hf : loadForProtocolMode catalogEnv (smallCatalog [fakeFamily, wsizeFamily] ["wsize"])
      ((smallOptions "force").withMode "force") with
  | error e =>
    rw [hf] at hforced
    cases hforced
  | ok forced =>
    cases he : loadForProtocolMode catalogEnv (smallCatalog [fakeFamily, wsizeFamily] ["wsize"])
        ((smallOptions "force").withMode "expand") with
    | error e =>
      rw [he] at hexpanded
      cases hexpanded
    | ok expanded =>
      rw [hf] at hforced
      rw [he] at hexpanded
      exact ⟨forced, expanded, rfl, rfl, Except.ok.inj hforced, Except.ok.inj hexpanded,
        (hforce forced hf).1, hsub forced expanded hf he⟩

end ZapretChecker.Graph
