import ZapretChecker.Graph.Render
import ZapretChecker.Lib.Assignments
import ZapretChecker.Lib.Template

/-!
# Rendering as a substitution

The renderer replaces the name of one parameter after the other, then those of the suffixes, and
drops what has a bracket left. For a template whose only brackets are those of its placeholders this
is one substitution for each choice of the values.

* `placeholderValue` — what a placeholder stands for
* `mergedParamValues_perm` — the order of the parameters is the order of the merged ones
* `rendering_simultaneous` — the candidates, in order
-/

namespace ZapretChecker.Graph

open Templates Assignments

/-! ## Placeholders -/

/-- The brackets of a placeholder. -/
def curly : Brackets where
  opening := '\x7b'
  closing := '\x7d'
  distinct := by decide

/-- The placeholders that every template may have. -/
def suffixNames : List String :=
  ["fooling_suffix", "tls_mod_suffix", "pattern_suffix", "seqovl_pattern_suffix", "rstack_suffix",
    "midhost_suffix", "disorder_after_suffix", "ipfrag_suffix"]

/-- What a placeholder stands for: the value of its parameter, or a suffix. -/
def placeholderValue (combo : List (String × String)) (name : String) : Option String :=
  (combo.lookup name).or ((suffixes combo).lookup name)

theorem slot_curly (name : String) : curly.slot name = placeholder name := rfl

theorem fill_eq_foldl (rendered : String) (values : List (String × String)) :
    fill rendered values =
      values.foldl (fun text p => Text.replace text (curly.slot p.1) p.2) rendered := rfl

theorem map_fst_suffixes (combo : List (String × String)) :
    (suffixes combo).map (·.1) = suffixNames := rfl

theorem suffixNames_plain : ∀ name ∈ suffixNames, curly.Plain name := by
  decide

theorem plain_lookup {values : List (String × String)} (h : ∀ p ∈ values, curly.Plain p.2)
    {name value : String} (hvalue : values.lookup name = some value) : curly.Plain value := by
  obtain ⟨before, after, rfl, -⟩ := List.lookup_eq_some_iff.mp hvalue
  exact h (name, value) (List.mem_append_right _ List.mem_cons_self)

theorem plain_getD {combo : List (String × String)} (h : ∀ p ∈ combo, curly.Plain p.2)
    {name default : String} (hdefault : curly.Plain default) :
    curly.Plain ((combo.lookup name).getD default) := by
  cases hvalue : combo.lookup name with
  | none => exact hdefault
  | some value => exact plain_lookup h hvalue

/-- No suffix has a bracket if no value has one. -/
theorem suffixes_plain {combo : List (String × String)} (h : ∀ p ∈ combo, curly.Plain p.2) :
    ∀ p ∈ suffixes combo, curly.Plain p.2 := by
  have hnone : curly.Plain "none" := by decide
  simp only [suffixes, List.forall_mem_cons]
  refine ⟨?_, ?_, ?_, ?_, ?_, ?_, ?_, ?_, List.forall_mem_nil _⟩
  · split <;> decide
  · split <;> decide
  · split <;> decide
  · split <;> decide
  · split <;> decide
  · split
    · decide
    · exact Brackets.Plain.append (by decide) (plain_getD h hnone)
  · split
    · decide
    · exact Brackets.Plain.append (by decide) (plain_getD h hnone)
  · decide

/-! ## One combination -/

theorem unresolved_iff {s : String} :
    unresolved s = true ↔
      [curly.opening, curly.opening] <:+: s.toList ∨
        [curly.closing, curly.closing] <:+: s.toList := by
  rw [unresolved, Bool.or_eq_true, Text.contains_iff, Text.contains_iff]
  rfl

/-- The template with the values of a combination is substituted at once. -/
theorem render_eq_substitute (template : curly.Template) {combo : List (String × String)}
    (hnames : ∀ p ∈ combo, ¬ curly.Straddles p.1) (hvalues : ∀ p ∈ combo, curly.Plain p.2) :
    (if unresolved (applySuffixes (fill template.text combo) combo) then none
      else some (applySuffixes (fill template.text combo) combo)) =
    substitute (placeholderValue combo) template.pieces := by
  have hall : ∀ p ∈ combo ++ suffixes combo, ¬ curly.Straddles p.1 ∧ curly.Plain p.2 := by
    intro p hp
    rcases List.mem_append.mp hp with hp | hp
    · exact ⟨hnames p hp, hvalues p hp⟩
    · have hname : p.1 ∈ suffixNames := by
        rw [← map_fst_suffixes combo]
        exact List.mem_map_of_mem hp
      exact ⟨(suffixNames_plain _ hname).not_straddles, suffixes_plain hvalues p hp⟩
  have hlookup : placeholderValue combo = fun name => (combo ++ suffixes combo).lookup name := by
    funext name
    exact List.lookup_append.symm
  have hrendered : applySuffixes (fill template.text combo) combo =
      curly.text (template.pieces.map (Piece.fill (placeholderValue combo))) := by
    rw [applySuffixes, fill_eq_foldl, fill_eq_foldl, ← List.foldl_append, hlookup]
    exact Brackets.foldl_replace_text (fun p hp => (hall p hp).1) (fun p hp => (hall p hp).2)
      template.plain
  have hplain (name value : String) (h : placeholderValue combo name = some value) :
      curly.Plain value := by
    rw [hlookup] at h
    exact plain_lookup (fun p hp => (hall p hp).2) h
  rw [hrendered]
  cases hsubstitute : substitute (placeholderValue combo) template.pieces with
  | none =>
    exact if_pos (unresolved_iff.mpr (Or.inl (Brackets.contains_of_substitute hsubstitute)))
  | some s =>
    obtain ⟨htext, hs⟩ := Brackets.text_of_substitute hplain template.plain hsubstitute
    rw [htext, if_neg]
    rw [unresolved_iff, not_or]
    exact ⟨hs.not_opening, hs.not_closing⟩

/-- The value is missing of a placeholder that is neither a parameter nor a suffix. -/
theorem placeholderValue_eq_none_iff {combo : List (String × String)} {name : String} :
    placeholderValue combo name = none ↔ name ∉ combo.map (·.1) ∧ name ∉ suffixNames := by
  have hlookup (values : List (String × String)) :
      values.lookup name = none ↔ name ∉ values.map (·.1) := by
    rw [List.lookup_eq_none_iff]
    constructor
    · intro h hname
      obtain ⟨p, hp, rfl⟩ := List.mem_map.mp hname
      simpa using h p hp
    · intro h p hp
      rw [bne_iff_ne]
      rintro rfl
      exact h (List.mem_map_of_mem hp)
  rw [placeholderValue, Option.or_eq_none_iff, hlookup, hlookup, map_fst_suffixes]

/-! ## The parameters -/

/-- The entries of a map of parameters. -/
def paramEntries (params : Option Value) : List (Value × Value) :=
  (params.bind Value.asMapping).getD []

/-- No two keys of the map have the same text. -/
def KeysDistinct (entries : List (Value × Value)) : Prop :=
  (entries.filterMap fun e => e.1.asStr).Nodup

/-- The same parameters, in any order. -/
structure Reordered (params params' : Option Value) : Prop where
  perm : (paramEntries params).Perm (paramEntries params')
  distinct : KeysDistinct (paramEntries params)

theorem asStr_of_isKey {key : String} {v : Value} (h : Value.isKey key v = true) :
    v.asStr = some key := by
  cases v with
  | string s =>
    rw [show s = key from beq_iff_eq.mp h]
    rfl
  | _ => cases h

theorem lookup_perm {entries entries' : List (Value × Value)} (h : entries.Perm entries')
    (hdistinct : KeysDistinct entries) (key : String) :
    Value.lookup entries key = Value.lookup entries' key := by
  unfold Value.lookup
  congr 1
  induction h with
  | nil => rfl
  | cons e _ ih =>
    have hrest : KeysDistinct _ := hdistinct.sublist ((List.sublist_cons_self e _).filterMap _)
    rw [List.find?_cons, List.find?_cons, ih hrest]
  | swap e f entries =>
    simp only [List.find?_cons]
    cases he : Value.isKey key e.1 with
    | false => rfl
    | true =>
      cases hf : Value.isKey key f.1 with
      | false => rfl
      | true =>
        -- the key would be there twice
        simp [KeysDistinct, asStr_of_isKey he, asStr_of_isKey hf] at hdistinct
  | trans hfirst _ ihfirst ihsecond =>
    rw [ihfirst hdistinct]
    exact ihsecond ((hfirst.filterMap _).nodup_iff.mp hdistinct)

/-- The values of a parameter of the action. -/
def actionValues (input : RenderInput) (overrides : List (Value × Value)) (name : String)
    (paramDef : Value) : List String :=
  finishParamValues input name <|
    match Value.lookup overrides name with
    | some value => valuesFromYaml value
    | none => paramValuesFromAction input.root paramDef input.useActionValues

/-- The values of a parameter that only the candidate names. -/
def overrideValues (input : RenderInput) (seen : List String) (name : String) (value : Value) :
    List String :=
  if seen.contains name then [] else finishParamValues input name (valuesFromYaml value)

theorem mergedParamValues_eq (input : RenderInput) (actionParams overrides : Option Value) :
    mergedParamValues input actionParams overrides =
      namedParams (paramEntries actionParams) (actionValues input (paramEntries overrides)) ++
        namedParams (paramEntries overrides) (overrideValues input
          ((namedParams (paramEntries actionParams)
            (actionValues input (paramEntries overrides))).map (·.1))) := by
  have hlookup (name : String) :
      ((overrides.bind Value.asMapping).bind fun m => Value.lookup m name) =
        Value.lookup (paramEntries overrides) name := by
    unfold paramEntries
    cases overrides.bind Value.asMapping with
    | none => rfl
    | some entries => rfl
  unfold mergedParamValues
  simp only [hlookup]
  rfl

theorem namedParams_cons (key value : Value) (entries : List (Value × Value))
    (values : String → Value → List String) :
    namedParams ((key, value) :: entries) values =
      match key.asStr with
      | none => namedParams entries values
      | some name =>
        if (values name value).isEmpty then namedParams entries values
        else (name, values name value) :: namedParams entries values := by
  unfold namedParams
  rw [List.filterMap_cons]
  simp only [Option.bind_eq_bind]
  cases key.asStr with
  | none => rfl
  | some name =>
    simp only [Option.bind_some]
    by_cases hvalues : (values name value).isEmpty = true
    · simp only [if_pos hvalues]
    · simp only [if_neg hvalues]

theorem map_fst_namedParams_sublist (entries : List (Value × Value))
    (values : String → Value → List String) :
    ((namedParams entries values).map (·.1)).Sublist (entries.filterMap fun e => e.1.asStr) := by
  induction entries with
  | nil => exact List.Sublist.refl _
  | cons e entries ih =>
    obtain ⟨key, value⟩ := e
    rw [namedParams_cons, List.filterMap_cons]
    cases key.asStr with
    | none => exact ih
    | some name =>
      show (List.map _ (if _ then _ else _)).Sublist (name :: _)
      split
      · exact ih.cons name
      · exact ih.cons_cons name

/-- A parameter that is given to be seen has no values of its own there. -/
theorem notMem_seen {input : RenderInput} {seen : List String} {entries : List (Value × Value)}
    {p : String × List String} (h : p ∈ namedParams entries (overrideValues input seen)) :
    p.1 ∉ seen := by
  obtain ⟨⟨key, value⟩, -, hsome⟩ := List.mem_filterMap.mp h
  simp only [Option.bind_eq_bind, Option.bind_eq_some_iff] at hsome
  obtain ⟨name, -, hvalues⟩ := hsome
  split at hvalues
  · cases hvalues
  · next hne =>
    obtain rfl := Option.some.inj hvalues
    intro hseen
    refine hne ?_
    rw [overrideValues, if_pos (List.contains_iff_mem.mpr hseen)]
    rfl

/-- Every parameter is merged once. -/
theorem nodup_mergedParamValues (input : RenderInput) {actionParams overrides : Option Value}
    (hparams : KeysDistinct (paramEntries actionParams))
    (hoverrides : KeysDistinct (paramEntries overrides)) :
    ((mergedParamValues input actionParams overrides).map (·.1)).Nodup := by
  rw [mergedParamValues_eq, List.map_append, List.nodup_append]
  refine ⟨hparams.sublist (map_fst_namedParams_sublist _ _),
    hoverrides.sublist (map_fst_namedParams_sublist _ _), ?_⟩
  rintro name hname _ hother rfl
  obtain ⟨p, hp, rfl⟩ := List.mem_map.mp hother
  exact notMem_seen hp hname

/-- The parameters are merged in the order they have in the maps. -/
theorem mergedParamValues_perm (input : RenderInput)
    {actionParams actionParams' overrides overrides' : Option Value}
    (hparams : Reordered actionParams actionParams') (hoverrides : Reordered overrides overrides') :
    (mergedParamValues input actionParams overrides).Perm
      (mergedParamValues input actionParams' overrides') := by
  have haction : actionValues input (paramEntries overrides) =
      actionValues input (paramEntries overrides') := by
    funext name paramDef
    rw [actionValues, actionValues, lookup_perm hoverrides.perm hoverrides.distinct]
  rw [mergedParamValues_eq, mergedParamValues_eq, haction]
  have hfirst : (namedParams (paramEntries actionParams)
      (actionValues input (paramEntries overrides'))).Perm
      (namedParams (paramEntries actionParams')
        (actionValues input (paramEntries overrides'))) := hparams.perm.filterMap _
  refine hfirst.append ?_
  have hseen {seen seen' : List String} (h : seen.Perm seen') :
      overrideValues input seen = overrideValues input seen' := by
    funext name value
    rw [overrideValues, overrideValues, List.contains_eq_mem, List.contains_eq_mem]
    simp only [h.mem_iff]
  rw [hseen (hfirst.map (·.1))]
  exact hoverrides.perm.filterMap _

/-! ## The candidates -/

/-- The choices of the values, the last parameter varying fastest. -/
theorem paramCombinations_eq_assignments (input : RenderInput)
    (actionParams overrides : Option Value) :
    paramCombinations input actionParams overrides =
      assignments (mergedParamValues input actionParams overrides) := by
  refine (foldl_extend _ [[]]).trans ?_
  rw [List.flatMap_singleton]
  exact List.map_id' _

/-- What stands for the placeholders is read off the values that are assigned. -/
theorem placeholderValue_factorsThrough :
    placeholderValue.FactorsThrough (@assigned String String _) := by
  intro combo combo' h
  have hlookup : ∀ name, combo.lookup name = combo'.lookup name := congrFun h
  funext name
  simp only [placeholderValue, suffixes, hlookup]

theorem renderLuaDesyncVariants_eq {input : RenderInput} {action : CatalogAction}
    {overrides : Option Value} (template : curly.Template)
    (htemplate : action.template = template.text)
    (hnames : ∀ p ∈ mergedParamValues input action.params overrides, ¬ curly.Straddles p.1)
    (hvalues : ∀ p ∈ mergedParamValues input action.params overrides, ∀ v ∈ p.2, curly.Plain v) :
    renderLuaDesyncVariants input action overrides =
      (assignments (mergedParamValues input action.params overrides)).filterMap fun combo =>
        substitute (placeholderValue combo) template.pieces := by
  rw [renderLuaDesyncVariants, paramCombinations_eq_assignments, htemplate]
  refine List.filterMap_congr fun combo hcombo => render_eq_substitute template ?_ ?_
  · intro a ha
    obtain ⟨p, hp, hname, -⟩ := exists_of_mem hcombo ha
    rw [hname]
    exact hnames p hp
  · intro a ha
    obtain ⟨p, hp, -, hvalue⟩ := exists_of_mem hcombo ha
    exact hvalues p hp _ hvalue

/--
**Rendering is simultaneous substitution.** In the order of the product there is a candidate for
every choice of values, the template with all placeholders replaced at once, unless a placeholder is
neither a parameter nor a suffix. Parameters in another order give the candidates in another order.
-/
theorem rendering_simultaneous {input : RenderInput} {action : CatalogAction}
    {overrides : Option Value} (template : curly.Template)
    (htemplate : action.template = template.text)
    (hnames : ∀ p ∈ mergedParamValues input action.params overrides, ¬ curly.Straddles p.1)
    (hvalues : ∀ p ∈ mergedParamValues input action.params overrides, ∀ v ∈ p.2, curly.Plain v) :
    renderLuaDesyncVariants input action overrides =
        (assignments (mergedParamValues input action.params overrides)).filterMap (fun combo =>
          substitute (placeholderValue combo) template.pieces) ∧
      (∀ combo ∈ assignments (mergedParamValues input action.params overrides),
        substitute (placeholderValue combo) template.pieces = none ↔
          ∃ name, .slot name ∈ template.pieces ∧
            name ∉ (mergedParamValues input action.params overrides).map (·.1) ∧
            name ∉ suffixNames) ∧
      ∀ params' overrides', Reordered action.params params' → Reordered overrides overrides' →
        (renderLuaDesyncVariants input { action with params := params' } overrides').Perm
          (renderLuaDesyncVariants input action overrides) := by
  have hrender := renderLuaDesyncVariants_eq template htemplate hnames hvalues
  refine ⟨hrender, ?_, ?_⟩
  · intro combo hcombo
    rw [substitute_eq_none_iff, ← keys_of_mem hcombo]
    simp only [placeholderValue_eq_none_iff]
  · intro params' overrides' hparams hoverrides
    have hperm := mergedParamValues_perm input hparams hoverrides
    have hrender' : renderLuaDesyncVariants input { action with params := params' } overrides' =
        (assignments (mergedParamValues input params' overrides')).filterMap fun combo =>
          substitute (placeholderValue combo) template.pieces :=
      renderLuaDesyncVariants_eq template htemplate
        (fun p hp => hnames p (hperm.mem_iff.mpr hp)) fun p hp => hvalues p (hperm.mem_iff.mpr hp)
    rw [hrender, hrender']
    refine (perm_filterMap hperm (nodup_mergedParamValues input hparams.distinct
      hoverrides.distinct) ?_).symm
    intro combo combo' h
    exact congrArg (substitute · template.pieces) (placeholderValue_factorsThrough h)

/-! ## Examples -/

/-- No catalog around the action, no aliases and no configured values. -/
def bareInput : RenderInput where
  env := { readDir := fun _ => [], nodeFromValue := fun _ => .error "" }
  root := .null
  protocolKey := "tls12"
  useActionValues := true
  payloadAliases := none
  strategyValues := none

def posTemplate : curly.Template where
  pieces := [.literal "fake:pos=", .slot "pos", .slot "fooling_suffix"]
  plain := by
    simp only [List.forall_mem_cons]
    refine ⟨?_, ?_, ?_, List.forall_mem_nil _⟩
    all_goals
      show curly.Plain _
      decide

def posParams : List (Value × Value) :=
  [(.string "pos", .sequence [.int 1, .int 2]), (.string "fooling", .string "badsum")]

def posAction : CatalogAction where
  id := "fake"
  protocols := ["tls12"]
  template := posTemplate.text
  params := some (.mapping posParams)

theorem rendering_simultaneous_pos :
    renderLuaDesyncVariants bareInput posAction none =
        (assignments (mergedParamValues bareInput posAction.params none)).filterMap (fun combo =>
          substitute (placeholderValue combo) posTemplate.pieces) ∧
      (renderLuaDesyncVariants bareInput
        { posAction with params := some (.mapping posParams.reverse) } none).Perm
        (renderLuaDesyncVariants bareInput posAction none) := by
  have hmerged : mergedParamValues bareInput posAction.params none =
      [("pos", ["1", "2"]), ("fooling", ["badsum"])] := by decide +kernel
  have hnames : ∀ p ∈ mergedParamValues bareInput posAction.params none,
      ¬ curly.Straddles p.1 := by
    rw [hmerged]
    simp only [List.forall_mem_cons]
    exact ⟨Brackets.Plain.not_straddles (by decide), Brackets.Plain.not_straddles (by decide),
      List.forall_mem_nil _⟩
  have hvalues : ∀ p ∈ mergedParamValues bareInput posAction.params none,
      ∀ v ∈ p.2, curly.Plain v := by
    rw [hmerged]
    decide
  have hparams : Reordered posAction.params (some (.mapping posParams.reverse)) :=
    ⟨(List.reverse_perm posParams).symm, by
      show (["pos", "fooling"] : List String).Nodup
      decide⟩
  have h := rendering_simultaneous posTemplate rfl hnames hvalues
  exact ⟨h.1, h.2.2 _ none hparams ⟨List.Perm.refl _, List.nodup_nil⟩⟩

def pairTemplate : curly.Template where
  pieces := [.slot "a", .slot "b"]
  plain := by
    simp only [List.forall_mem_cons]
    refine ⟨?_, ?_, List.forall_mem_nil _⟩
    all_goals
      show curly.Plain _
      decide

/-- A parameter whose name is what stands between the outer brackets of two placeholders. -/
def straddlingAction : CatalogAction where
  id := "fake"
  protocols := ["tls12"]
  template := pairTemplate.text
  params := some (.mapping
    [(.string "a\x7d\x7d\x7b\x7bb", .string "x"), (.string "a", .int 1), (.string "b", .int 2)])

/-- Two keys with one text. -/
def twiceAction : CatalogAction where
  id := "fake"
  protocols := ["tls12"]
  template := pairTemplate.text
  params := some (.mapping
    [(.string "a", .int 1), (.tagged "t" (.string "a"), .int 2), (.string "b", .int 3)])

/-- Such a name is replaced across the two, and of two keys with one text the first one counts. -/
theorem not_rendering_simultaneous :
    ((∀ p ∈ mergedParamValues bareInput straddlingAction.params none,
        p.1 ∉ suffixNames ∧ ∀ v ∈ p.2, curly.Plain v) ∧
      renderLuaDesyncVariants bareInput straddlingAction none = ["x"] ∧
      (assignments (mergedParamValues bareInput straddlingAction.params none)).filterMap
        (fun combo => substitute (placeholderValue combo) pairTemplate.pieces) = ["12"]) ∧
    (∀ p ∈ mergedParamValues bareInput twiceAction.params none,
        p.1 ∉ suffixNames ∧ ∀ v ∈ p.2, curly.Plain v) ∧
      renderLuaDesyncVariants bareInput twiceAction none = ["13"] ∧
      renderLuaDesyncVariants bareInput
        { twiceAction with
          params := some (.mapping ((paramEntries twiceAction.params).reverse)) } none =
        ["23"] := by
  have hstraddling : mergedParamValues bareInput straddlingAction.params none =
      [("a\x7d\x7d\x7b\x7bb", ["x"]), ("a", ["1"]), ("b", ["2"])] := by decide +kernel
  have htwice : mergedParamValues bareInput twiceAction.params none =
      [("a", ["1"]), ("a", ["2"]), ("b", ["3"])] := by decide +kernel
  rw [hstraddling, htwice]
  refine ⟨⟨by decide, by decide +kernel, by decide +kernel⟩, by decide, by decide +kernel,
    by decide +kernel⟩

end ZapretChecker.Graph
