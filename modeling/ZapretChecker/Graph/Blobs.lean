import ZapretChecker.Graph.References
import ZapretChecker.Graph.Invariant

/-!
# Blob files

`applyBlobFileOptions` takes the references of a rendered text apart: the name stays in the
`--lua-desync`, and a `--blob` option binds it to the path.

* `Resolves` — the name of a file is bound to its path, and to no other
* `resolves_iff` — when it is, in a loaded node
-/

namespace ZapretChecker.Graph

/-! ## Options -/

/-- The option that binds a blob name to a file. -/
def blobOption (name path : String) : String := "--blob=" ++ name ++ ":@" ++ path

theorem toList_blobOption (name path : String) : (blobOption name path).toList =
    "--blob=".toList ++ (name.toList ++ ':' :: '@' :: path.toList) := by
  simp [blobOption]

/-- The name ends at the first colon. -/
theorem blobOption_inj {name name' path path' : String} (h : ':' ∉ name.toList)
    (h' : ':' ∉ name'.toList) (he : blobOption name path = blobOption name' path') :
    name = name' ∧ path = path' := by
  rw [← String.toList_inj, toList_blobOption, toList_blobOption, List.append_right_inj] at he
  obtain ⟨hname, -, hpath⟩ := append_cons_inj (p := (· == ':'))
    (fun c hc => by simpa using ne_of_mem_of_not_mem hc h)
    (fun c hc => by simpa using ne_of_mem_of_not_mem hc h') rfl rfl he
  exact ⟨String.toList_inj.mp hname, String.toList_inj.mp (List.cons.inj hpath).2⟩

/-- The options of a variant that bind a name are those `replaceBlobFileSentinels` finds. -/
theorem blobOption_mem_finalizeArgs {protocolKey lua name path : String} :
    blobOption name path ∈ finalizeArgs protocolKey lua ↔
      blobOption name path ∈ (replaceBlobFileSentinels lua).2 := by
  obtain ⟨s, hs, hblobs, -⟩ := finalizeArgs_eq protocolKey lua
  have hfilter : blobOption name path ∉ s.filter.toList.map ("--payload=" ++ ·) := by
    intro h
    obtain ⟨x, -, hx⟩ := List.mem_map.mp h
    simp [← String.toList_inj, toList_blobOption] at hx
  have hlua : blobOption name path ∉ ["--lua-desync=" ++ s.lua] := by
    intro h
    rw [List.mem_singleton] at h
    simp [← String.toList_inj, toList_blobOption] at h
  rw [hs, SingleArgs.toArgs, List.mem_append, List.mem_append, or_iff_left hlua,
    or_iff_left hfilter, hblobs, dedupPreserveOrder, List.mem_eraseDups]

/-- A name is bound to what a part of the text refers to. -/
theorem FakeFile.blobOption_mem_iff (f : FakeFile) {protocolKey lua path : String} :
    blobOption f.name path ∈ finalizeArgs protocolKey lua ↔
      path ≠ "" ∧ referencePart f.name path ∈ Text.split lua ':' := by
  rw [blobOption_mem_finalizeArgs]
  constructor
  · intro h
    obtain ⟨part, hpart, name, path', hblob, hoption⟩ := blob_of_mem_replaceBlobFileSentinels h
    obtain ⟨rfl, -, -, hpath⟩ := blobFileOfPart_eq_some_iff.mp hblob
    -- the name stands in a part, where there is no colon
    have hname : ':' ∉ name.toList := by
      intro hmem
      apply Text.notMem_of_mem_split hpart
      rw [toList_referencePart]
      exact List.mem_append_right _ (List.mem_append_left _ hmem)
    have hbind : blobOption f.name path = blobOption name path' := by
      rw [hoption]
      simp only [blobOption, String.append_assoc]
    obtain ⟨rfl, rfl⟩ := blobOption_inj f.colon_notMem_name hname hbind
    exact ⟨hpath, hpart⟩
  · rintro ⟨hpath, hpart⟩
    exact List.mem_filterMap.mpr ⟨_, hpart, by rw [f.blobFileOfPart hpath]; rfl⟩

/-! ## References -/

theorem takeWhile_eq_nil_iff_ended {after : List Char} :
    after.takeWhile (· ≠ ':') = [] ↔ after = [] ∨ after.head? = some ':' := by
  cases after with
  | nil => simp
  | cons c rest => simp [List.takeWhile_cons]

/-- The name of the file is bound to its path, and to nothing else. -/
structure Resolves (args : List String) (f : FakeFile) : Prop where
  referred : ∃ lua, "--lua-desync=" ++ lua ∈ args ∧ "blob=" ++ f.name ∈ Text.split lua ':'
  bound : blobOption f.name f.path ∈ args
  unique : ∀ path, blobOption f.name path ∈ args → path = f.path

/-- The reference is the whole part, and no other part has the name with another path. -/
structure Unambiguous (luas : List String) (f : FakeFile) (after : List Char) : Prop where
  whole : ':' ∉ f.path.toList
  ended : after = [] ∨ after.head? = some ':'
  distinct : ∀ lua ∈ luas, ∀ path, path ≠ "" →
    referencePart f.name path ∈ Text.split lua ':' → path = f.path

/-- The parts of a text with its references taken apart. -/
theorem split_resolvedLua {lua part : String} (hpart : part ∈ Text.split lua ':') {f : FakeFile}
    (hblob : blobFileOfPart part = some (f.name, f.path)) :
    "blob=" ++ f.name ∈ Text.split (resolvedLua lua) ':' := by
  have hfound : (replaceBlobFileSentinels lua).2.isEmpty = false := by
    rw [List.isEmpty_eq_false_iff]
    apply List.ne_nil_of_mem (a := blobOption f.name f.path)
    exact List.mem_filterMap.mpr ⟨part, hpart, by rw [hblob]; rfl⟩
  rw [resolvedLua, hfound, if_neg Bool.false_ne_true, replaceBlobFileSentinels]
  dsimp only
  rw [show ":" = String.ofList [':'] from rfl, Text.split_join]
  · exact List.mem_map.mpr ⟨part, hpart, by rw [hblob]⟩
  · simp [Text.split]
  · intro p hp
    obtain ⟨q, hq, rfl⟩ := List.mem_map.mp hp
    have hcolon := Text.notMem_of_mem_split hq
    split
    · rename_i name path hsome
      rw [(blobFileOfPart_eq_some_iff.mp hsome).1, toList_referencePart] at hcolon
      rw [String.toList_append, List.mem_append, not_or]
      refine ⟨by decide, fun hname => hcolon ?_⟩
      exact List.mem_append_right _ (List.mem_append_left _ hname)
    · exact hcolon

theorem lua_mem_finalizeArgs (protocolKey lua : String) :
    "--lua-desync=" ++ resolvedLua lua ∈ finalizeArgs protocolKey lua := by
  obtain ⟨s, hs, -, -, hlua⟩ := finalizeArgs_eq protocolKey lua
  rw [hs, SingleArgs.toArgs, hlua]
  exact List.mem_append_right _ (List.mem_singleton.mpr rfl)

/-- What is rendered from the given texts resolves a reference that is not ambiguous in them. -/
theorem resolves_flatMap_iff {protocolKey lua : String} {luas : List String} (hlua : lua ∈ luas)
    {f : FakeFile} {after : List Char} (h : Mentions lua f after) :
    Resolves (luas.flatMap (finalizeArgs protocolKey)) f ↔ Unambiguous luas f after := by
  have hoption (path : String) : blobOption f.name path ∈ luas.flatMap (finalizeArgs protocolKey) ↔
      ∃ lua ∈ luas, path ≠ "" ∧ referencePart f.name path ∈ Text.split lua ':' := by
    rw [List.mem_flatMap]
    exact exists_congr fun lua => and_congr_right fun _ => f.blobOption_mem_iff
  constructor
  · intro hresolves
    obtain ⟨lua', -, -, hpart⟩ := (hoption _).mp hresolves.bound
    have hwhole : ':' ∉ f.path.toList := by
      intro hmem
      apply Text.notMem_of_mem_split hpart
      rw [toList_referencePart]
      exact List.mem_append_right _ (List.mem_append_right _ (List.mem_cons_of_mem _ hmem))
    refine ⟨hwhole, ?_, fun lua hlua path hne hpart =>
      hresolves.unique path ((hoption path).mpr ⟨lua, hlua, hne, hpart⟩)⟩
    -- what follows the path in its part is bound to the name as well
    have hne : f.path ++ String.ofList (after.takeWhile (· ≠ ':')) ≠ "" :=
      fun he => f.path_ne_empty (String.append_eq_empty_iff.mp he).1
    have hpath := hresolves.unique _
      ((hoption _).mpr ⟨lua, hlua, hne, h.mem_split_of_whole hwhole⟩)
    rw [← takeWhile_eq_nil_iff_ended]
    simpa [← String.toList_inj] using hpath
  · rintro ⟨hwhole, hended, hdistinct⟩
    have hpart := h.mem_split_of_whole hwhole
    rw [takeWhile_eq_nil_iff_ended.mpr hended, String.ofList_nil, String.append_empty] at hpart
    constructor
    case referred =>
      refine ⟨resolvedLua lua, List.mem_flatMap.mpr ⟨lua, hlua, lua_mem_finalizeArgs _ _⟩, ?_⟩
      exact split_resolvedLua hpart (f.blobFileOfPart f.path_ne_empty)
    case bound => exact (hoption _).mpr ⟨lua, hlua, f.path_ne_empty, hpart⟩
    case unique =>
      intro path hpath
      obtain ⟨lua', hlua', hne, hpart'⟩ := (hoption path).mp hpath
      exact hdistinct lua' hlua' path hne hpart'

/-- A file does not resolve beside another one whose name is sanitized to the same. -/
theorem not_resolves_of_sameName {protocolKey : String} {luas : List String} {lua lua' : String}
    (hlua : lua ∈ luas) (hlua' : lua' ∈ luas) {f g : FakeFile} (hf : Mentions lua f [])
    (hg : Mentions lua' g []) (hname : g.name = f.name) (hpath : g.path ≠ f.path)
    (hcolon : ':' ∉ g.path.toList) :
    ¬ Resolves (luas.flatMap (finalizeArgs protocolKey)) f := by
  intro hresolves
  have hpart := hg.mem_split_of_whole hcolon
  rw [List.takeWhile_nil, String.ofList_nil, String.append_empty, hname] at hpart
  have hdistinct := ((resolves_flatMap_iff hlua hf).mp hresolves).distinct
  exact hpath (hdistinct lua' hlua' g.path g.path_ne_empty hpart)

/-! ## Loaded nodes -/

/-- The texts the components of a node were rendered as. -/
def RenderedAs (protocolKey : String) (n : StrategyNode) (luas : List String) : Prop :=
  n.components.map (·.args) = luas.map (finalizeArgs protocolKey)

theorem RenderedAs.args {protocolKey : String} {n : StrategyNode} {luas : List String}
    (h : RenderedAs protocolKey n luas) (hn : LoadedNode n) :
    n.args = luas.flatMap (finalizeArgs protocolKey) := by
  rw [hn.concatenated, List.flatMap_def, h, List.flatMap_def]

/-- A node of a catalog was rendered from the template of an action. -/
theorem exists_rendered_of_parseCatalogStrategies {env : Env} {root : Value}
    {options : GraphLoadOptions} {base : List StrategyNode} {n : StrategyNode}
    (h : parseCatalogStrategies env root options = .ok base) (hn : n ∈ base) :
    ∃ action overrides, ∃ lua ∈ renderLuaDesyncVariants (renderInput env root options) action
      overrides, n.args = finalizeArgs options.protocolKey lua := by
  have hnode := catalogNode_of_parseCatalogStrategies h hn
  obtain ⟨families, plan, -, -, rfl⟩ := parseCatalogStrategies_eq_ok h
  obtain ⟨m, hm, i, rfl⟩ := mem_selectDiverseNodes hn
  rw [reindexNode_eq (catalogNode_of_mem_catalogNodes hm)]
  obtain ⟨j, hj, rfl⟩ := List.mem_mapIdx.mp hm
  have hv := (Collect.firstOf_sublist _ _ _).subset (List.getElem_mem hj)
  obtain ⟨⟨familyId, candidate⟩, -, hv⟩ := List.mem_flatMap.mp hv
  obtain ⟨-, -, -, action, -, -, -, lua, hlua, hargs⟩ := mem_familyVariants.mp hv
  exact ⟨action, _, lua, hlua, hargs⟩

/-- Every loaded node was rendered as some texts, each from the template of an action. -/
theorem exists_renderedAs {env : Env} {root : Value} {options : GraphLoadOptions}
    {graph : StrategyGraph} (hcatalog : valueSeq root "strategies" = none)
    (hload : loadForProtocolMode env root options = .ok graph) {n : StrategyNode}
    (hn : n ∈ graph.nodes) : ∃ luas, RenderedAs options.protocolKey n luas ∧
      ∀ lua ∈ luas, ∃ action overrides,
        lua ∈ renderLuaDesyncVariants (renderInput env root options) action overrides := by
  obtain ⟨base, hparse, hgraph⟩ := exists_base_of_load hcatalog hload
  rw [hgraph] at hn
  rcases mem_nodes_cases hparse hn with hn | ⟨i, first, hfirst, second, hsecond, -, rfl⟩
  · have hcomponents := (catalogNode_of_parseCatalogStrategies hparse hn).components
    obtain ⟨action, overrides, lua, hlua, hargs⟩ :=
      exists_rendered_of_parseCatalogStrategies hparse hn
    refine ⟨[lua], ?_, ?_⟩
    · rw [RenderedAs, hcomponents, List.map_singleton, List.map_singleton, ← hargs]
      rfl
    · rintro _ hmem
      rw [List.mem_singleton.mp hmem]
      exact ⟨action, overrides, hlua⟩
  · obtain ⟨a, o, lua, hlua, hargs⟩ := exists_rendered_of_parseCatalogStrategies hparse hfirst
    obtain ⟨a', o', lua', hlua', hargs'⟩ := exists_rendered_of_parseCatalogStrategies hparse hsecond
    refine ⟨[lua, lua'], ?_, ?_⟩
    · simp [RenderedAs, combinedNode, componentOf, hargs, hargs']
    · intro text hmem
      rcases List.mem_pair.mp hmem with rfl | rfl
      · exact ⟨a, o, hlua⟩
      · exact ⟨a', o', hlua'⟩

/--
In a loaded node the reference to a file resolves exactly when its path has no colon, it ends with
its part, and no other reference of the node has the same name with another path.
-/
theorem resolves_iff {env : Env} {root : Value} {options : GraphLoadOptions}
    {graph : StrategyGraph} (hcatalog : valueSeq root "strategies" = none)
    (hload : loadForProtocolMode env root options = .ok graph) {n : StrategyNode}
    (hn : n ∈ graph.nodes) {luas : List String} (hluas : RenderedAs options.protocolKey n luas)
    {lua : String} (hlua : lua ∈ luas) {f : FakeFile} {after : List Char}
    (h : Mentions lua f after) : Resolves n.args f ↔ Unambiguous luas f after := by
  rw [hluas.args (loadedNode_of_load hcatalog hload hn)]
  exact resolves_flatMap_iff hlua h

/-! ## A directory with one file -/

/-- A directory with the given file, and no other. -/
def oneFileEnv (f : FakeFile) : Env where
  readDir dir := if dir = f.dir then [f.entry] else []
  nodeFromValue _ := .error ""

/-- A family whose action refers to the files of a marker. -/
def blobFamily (marker : String) : Value :=
  smallFamily "fake" "fake_tls" ("fake:blob=" ++ placeholder "blob")
    [(.string "blob", .mapping [(.string "values", .sequence [.string marker])])]

def fakeFile (dir : String) : FakeFile where
  kind := .all
  dir := dir
  entry := { name := "a", utf8 := true }
  named := by decide

/-- The load of a family whose marker names the directory of the file. -/
def loadOneFile (dir : String) : Except String StrategyGraph :=
  loadForProtocolMode (oneFileEnv (fakeFile dir))
    (smallCatalog [blobFamily ("fake_dir_all:" ++ dir)] []) (smallOptions "force")

/-- In a plain directory the reference resolves. -/
theorem resolves_plainDir : ∃ graph n, loadOneFile "/f" = .ok graph ∧ n ∈ graph.nodes ∧
    Resolves n.args (fakeFile "/f") := by
  let n := smallNode 0 "fake" "fake_tls" ["--blob=fake_fake_a:@/f/a",
    "--payload=tls_client_hello", "--lua-desync=fake:blob=fake_fake_a"]
  let lua := "fake:blob=" ++ (fakeFile "/f").value
  have hload : loadOneFile "/f" = .ok ⟨[n]⟩ := by decide +kernel
  have hmentions : Mentions lua (fakeFile "/f") [] :=
    ⟨"fake:".toList, by decide +kernel, by decide⟩
  have hsplit : Text.split lua ':' = ["fake", "blob=" ++ (fakeFile "/f").value] := by
    decide +kernel
  have hrendered : RenderedAs "tls12" n [lua] := by
    unfold RenderedAs
    decide +kernel
  refine ⟨_, n, hload, List.mem_cons_self,
    (resolves_iff rfl hload List.mem_cons_self hrendered List.mem_cons_self hmentions).mpr ?_⟩
  refine ⟨by decide +kernel, Or.inl rfl, ?_⟩
  intro text htext path hne hpart
  rw [List.mem_singleton.mp htext, hsplit] at hpart
  rcases List.mem_pair.mp hpart with he | he
  · have hlist := congrArg String.toList he
    simp [toList_referencePart] at hlist
  · rw [FakeFile.blob_value] at he
    exact referencePart_inj he

/-- A colon in the directory ends the path there. -/
theorem not_resolves_colonDir : ∃ graph n lua, loadOneFile "/f:v2" = .ok graph ∧
    n ∈ graph.nodes ∧ RenderedAs "tls12" n [lua] ∧ Mentions lua (fakeFile "/f:v2") [] ∧
    ¬ Resolves n.args (fakeFile "/f:v2") := by
  let n := smallNode 0 "fake" "fake_tls" ["--blob=fake_fake_a:@/f",
    "--payload=tls_client_hello", "--lua-desync=fake:blob=fake_fake_a:v2/a"]
  have hload : loadOneFile "/f:v2" = .ok ⟨[n]⟩ := by decide +kernel
  have hoption : blobOption (fakeFile "/f:v2").name (fakeFile "/f:v2").path ∉ n.args := by
    decide +kernel
  refine ⟨_, n, "fake:blob=" ++ (fakeFile "/f:v2").value, hload, List.mem_cons_self, ?_,
    ⟨"fake:".toList, by decide +kernel, by decide⟩, fun h => hoption h.bound⟩
  unfold RenderedAs
  decide +kernel

end ZapretChecker.Graph
