import Mathlib.Data.Set.List
import ZapretChecker.Graph.Render

/-!
# What a rendered argument list looks like

`finalizeArgs` gives `--blob` options, then at most one `--payload` filter, then the one
`--lua-desync`. No bracket of a placeholder is left in any of them.
-/

namespace ZapretChecker.Graph

/-! ## Options -/

theorem prefix_before_char {c : Char} {a b x : List Char} (ha : c ∉ a) (hb : c ∉ b) :
    a ++ [c] <+: b ++ c :: x ↔ a = b := by
  constructor
  · intro h
    induction a generalizing b with
    | nil =>
      cases b with
      | nil => rfl
      | cons d b =>
        have hd := (List.cons_prefix_cons.mp h).1
        exact absurd (hd ▸ List.mem_cons_self) hb
    | cons d a ih =>
      rw [List.mem_cons, not_or] at ha
      cases b with
      | nil =>
        have hd := (List.cons_prefix_cons.mp h).1
        exact absurd hd.symm ha.1
      | cons e b =>
        rw [List.mem_cons, not_or] at hb
        obtain ⟨hd, h⟩ := List.cons_prefix_cons.mp h
        rw [hd, ih ha.2 hb.2 h]
  · rintro rfl
    exact ⟨x, by simp⟩

/-- An option with a value is the option it names and no other. -/
theorem isOption_append (name other : String) (hname : '=' ∉ name.toList)
    (hother : '=' ∉ other.toList) (x : String) :
    isOption name (other ++ "=" ++ x) = (name == other) := by
  have hne : other ++ "=" ++ x ≠ name := by
    intro he
    apply hname
    rw [← he]
    simp
  have hprefix : Text.startsWith (other ++ "=" ++ x) (name ++ "=") = true ↔ name = other := by
    rw [Text.startsWith_iff, String.toList_append, String.toList_append, String.toList_append,
      List.append_assoc]
    exact (prefix_before_char hname hother).trans String.toList_inj
  rw [isOption, beq_eq_false_iff_ne.mpr hne, Bool.false_or, Bool.eq_iff_iff, hprefix, beq_iff_eq]

@[simp] theorem isOption_lua_lua (x : String) :
    isOption "--lua-desync" ("--lua-desync=" ++ x) = true :=
  isOption_append "--lua-desync" "--lua-desync" (by decide) (by decide) x

@[simp] theorem isOption_lua_blob (x : String) :
    isOption "--lua-desync" ("--blob=" ++ x) = false :=
  isOption_append "--lua-desync" "--blob" (by decide) (by decide) x

@[simp] theorem isOption_lua_payload (x : String) :
    isOption "--lua-desync" ("--payload=" ++ x) = false :=
  isOption_append "--lua-desync" "--payload" (by decide) (by decide) x

@[simp] theorem isOption_payload_lua (x : String) :
    isOption "--payload" ("--lua-desync=" ++ x) = false :=
  isOption_append "--payload" "--lua-desync" (by decide) (by decide) x

@[simp] theorem isOption_payload_blob (x : String) :
    isOption "--payload" ("--blob=" ++ x) = false :=
  isOption_append "--payload" "--blob" (by decide) (by decide) x

@[simp] theorem isOption_payload_payload (x : String) :
    isOption "--payload" ("--payload=" ++ x) = true :=
  isOption_append "--payload" "--payload" (by decide) (by decide) x

@[simp] theorem stripPrefix_append (pat x : String) : Text.stripPrefix (pat ++ x) pat = some x :=
  Text.stripPrefix_eq_some_iff.mpr rfl

/-- An argument that is not the option does not start with it. -/
theorem stripPrefix_eq_none {name arg : String} (h : isOption name arg = false) :
    Text.stripPrefix arg (name ++ "=") = none := by
  rw [Option.eq_none_iff_forall_ne_some]
  intro x hx
  rw [Text.stripPrefix_eq_some_iff] at hx
  rw [isOption, Bool.or_eq_false_iff] at h
  have hstart : Text.startsWith arg (name ++ "=") = true := by
    rw [Text.startsWith_iff, hx]
    exact ⟨x.toList, by simp⟩
  rw [hstart] at h
  cases h.2

/-! ## The shape -/

/-- The options of a single strategy. -/
structure SingleArgs where
  blobs : List String
  filter : Option String
  lua : String

def SingleArgs.toArgs (s : SingleArgs) : List String :=
  s.blobs.map ("--blob=" ++ ·) ++ s.filter.toList.map ("--payload=" ++ ·) ++
    ["--lua-desync=" ++ s.lua]

theorem SingleArgs.isOption_blobs_filter (s : SingleArgs) :
    ∀ arg ∈ s.blobs.map ("--blob=" ++ ·) ++ s.filter.toList.map ("--payload=" ++ ·),
      isOption "--lua-desync" arg = false := by
  intro arg harg
  rcases List.mem_append.mp harg with harg | harg
  · obtain ⟨x, -, rfl⟩ := List.mem_map.mp harg
    exact isOption_lua_blob x
  · obtain ⟨x, -, rfl⟩ := List.mem_map.mp harg
    exact isOption_lua_payload x

/-- A list is cut in one way before the first element with a property. -/
theorem append_cons_inj {α : Type*} {p : α → Bool} {x y : α} {a b l m : List α}
    (ha : ∀ z ∈ a, p z = false) (hb : ∀ z ∈ b, p z = false) (hx : p x = true) (hy : p y = true)
    (h : a ++ x :: l = b ++ y :: m) : a = b ∧ x = y ∧ l = m := by
  induction a generalizing b with
  | nil =>
    cases b with
    | nil => exact ⟨rfl, List.cons.inj h⟩
    | cons z b =>
      have hz := hb z List.mem_cons_self
      rw [← (List.cons.inj h).1, hx] at hz
      cases hz
  | cons z a ih =>
    cases b with
    | nil =>
      have hz := ha z List.mem_cons_self
      rw [(List.cons.inj h).1, hy] at hz
      cases hz
    | cons w b =>
      obtain ⟨hzw, h⟩ := List.cons.inj h
      obtain ⟨hab, hrest⟩ := ih (fun v hv => ha v (List.mem_cons_of_mem z hv))
        (fun v hv => hb v (List.mem_cons_of_mem w hv)) h
      exact ⟨by rw [hzw, hab], hrest⟩

/-- The argument lists of two single strategies can be told apart when one follows the other. -/
theorem SingleArgs.append_inj {s t : SingleArgs} {l m : List String}
    (h : s.toArgs ++ l = t.toArgs ++ m) : s.toArgs = t.toArgs ∧ l = m := by
  unfold SingleArgs.toArgs at h ⊢
  rw [List.append_assoc _ _ l, List.append_assoc _ _ m] at h
  obtain ⟨hbefore, hlua, hrest⟩ := append_cons_inj s.isOption_blobs_filter t.isOption_blobs_filter
    (isOption_lua_lua s.lua) (isOption_lua_lua t.lua) h
  exact ⟨by rw [hbefore, hlua], hrest⟩

theorem insertBeforeLua_append {before : List String} (extra : List String) (lua : String)
    (h : ∀ arg ∈ before, isOption "--lua-desync" arg = false) :
    insertBeforeLua (before ++ ["--lua-desync=" ++ lua]) extra =
      before ++ extra ++ ["--lua-desync=" ++ lua] := by
  have hbefore : ∀ arg ∈ before, (!isOption "--lua-desync" arg) = true := by
    intro arg harg
    rw [h arg harg, Bool.not_false]
  have htake :
      ["--lua-desync=" ++ lua].takeWhile (fun arg => !isOption "--lua-desync" arg) = [] := by
    simp
  have hdrop : ["--lua-desync=" ++ lua].dropWhile (fun arg => !isOption "--lua-desync" arg) =
      ["--lua-desync=" ++ lua] := by
    simp
  unfold insertBeforeLua
  rw [List.span_eq_takeWhile_dropWhile, List.takeWhile_append_of_pos hbefore,
    List.dropWhile_append_of_pos hbefore, htake, hdrop, List.append_nil]

theorem luaDesyncValues_append {before : List String} (lua : String)
    (h : ∀ arg ∈ before, isOption "--lua-desync" arg = false) :
    luaDesyncValues (before ++ ["--lua-desync=" ++ lua]) = [lua] := by
  induction before with
  | nil => simp [luaDesyncValues]
  | cons arg before ih =>
    have harg := h arg List.mem_cons_self
    have hstrip : Text.stripPrefix arg "--lua-desync=" = none := stripPrefix_eq_none harg
    have hne : (arg == "--lua-desync") = false := by
      rw [isOption, Bool.or_eq_false_iff] at harg
      exact harg.1
    have ih := ih fun a ha => h a (List.mem_cons_of_mem arg ha)
    cases before with
    | nil => simp [luaDesyncValues, hstrip, hne]
    | cons next before => simpa [luaDesyncValues, hstrip, hne] using ih

/-- The value of the `--lua-desync` after the blob files are resolved. -/
def resolvedLua (lua : String) : String :=
  if (replaceBlobFileSentinels lua).2.isEmpty then lua else (replaceBlobFileSentinels lua).1

theorem blob_of_mem_replaceBlobFileSentinels {lua arg : String}
    (h : arg ∈ (replaceBlobFileSentinels lua).2) :
    ∃ part ∈ Text.split lua ':', ∃ name path, blobFileOfPart part = some (name, path) ∧
      arg = "--blob=" ++ (name ++ ":@" ++ path) := by
  obtain ⟨part, hmem, hpart⟩ := List.mem_filterMap.mp h
  rw [Option.map_eq_some_iff] at hpart
  obtain ⟨⟨name, path⟩, hblob, rfl⟩ := hpart
  refine ⟨part, hmem, name, path, hblob, ?_⟩
  simp only [String.append_assoc]

theorem applyBlobFileOptions_eq (lua : String) :
    applyBlobFileOptions ["--lua-desync=" ++ lua] =
      dedupPreserveOrder (replaceBlobFileSentinels lua).2 ++ ["--lua-desync=" ++ resolvedLua lua] := by
  have hstrip : Text.stripPrefix ("--lua-desync=" ++ lua) "--lua-desync=" = some lua :=
    stripPrefix_append _ _
  have hinsert (extra : List String) (x : String) :
      insertBeforeLua ["--lua-desync=" ++ x] extra = extra ++ ["--lua-desync=" ++ x] := by
    simpa using insertBeforeLua_append extra x (List.forall_mem_nil _)
  simp only [applyBlobFileOptions, List.map_cons, List.map_nil, hstrip, List.flatMap_cons,
    List.flatMap_nil, resolvedLua]
  by_cases hd : (replaceBlobFileSentinels lua).2 = []
  · simp [hd, dedupPreserveOrder]
  · have hd' : (replaceBlobFileSentinels lua).2.isEmpty = false := by simpa using hd
    simp [hd', hinsert]

/-- The `--payload` filter of a variant. -/
def luaFilter (protocolKey lua : String) : Option String :=
  let payloads := luaDesyncPayloads ["--lua-desync=" ++ lua] (some protocolKey)
  if payloads.isEmpty then none else some (Text.join "," payloads)

/-- The argument list of a variant has the shape of a single strategy. -/
theorem finalizeArgs_eq (protocolKey lua : String) : ∃ s : SingleArgs,
    finalizeArgs protocolKey lua = s.toArgs ∧
      s.blobs.map ("--blob=" ++ ·) = dedupPreserveOrder (replaceBlobFileSentinels lua).2 ∧
      s.filter = luaFilter protocolKey (resolvedLua lua) ∧ s.lua = resolvedLua lua := by
  obtain ⟨blobs, hblobs⟩ : ∃ blobs : List String,
      blobs.map ("--blob=" ++ ·) = dedupPreserveOrder (replaceBlobFileSentinels lua).2 := by
    have hmem : ∀ arg ∈ dedupPreserveOrder (replaceBlobFileSentinels lua).2,
        ∃ x, "--blob=" ++ x = arg := by
      intro arg harg
      obtain ⟨-, -, name, path, -, rfl⟩ :=
        blob_of_mem_replaceBlobFileSentinels (List.mem_eraseDups.mp harg)
      exact ⟨_, rfl⟩
    have hrange : dedupPreserveOrder (replaceBlobFileSentinels lua).2 ∈
        Set.range (List.map fun x : String => "--blob=" ++ x) := by
      rw [Set.range_list_map]
      exact hmem
    exact hrange
  refine ⟨⟨blobs, luaFilter protocolKey (resolvedLua lua), resolvedLua lua⟩, ?_, hblobs, rfl, rfl⟩
  have hlua : ∀ arg ∈ blobs.map ("--blob=" ++ ·), isOption "--lua-desync" arg = false := by
    intro arg harg
    obtain ⟨x, -, rfl⟩ := List.mem_map.mp harg
    exact isOption_lua_blob x
  have hpayload : (blobs.map ("--blob=" ++ ·) ++ ["--lua-desync=" ++ resolvedLua lua]).any
      (isOption "--payload") = false := by
    simp
  have hvalues : luaDesyncPayloads (blobs.map ("--blob=" ++ ·) ++
      ["--lua-desync=" ++ resolvedLua lua]) (some protocolKey) =
        luaDesyncPayloads ["--lua-desync=" ++ resolvedLua lua] (some protocolKey) := by
    unfold luaDesyncPayloads
    rw [luaDesyncValues_append _ hlua,
      show luaDesyncValues ["--lua-desync=" ++ resolvedLua lua] = [resolvedLua lua] from
        luaDesyncValues_append _ (List.forall_mem_nil _)]
  -- neither the blob options nor the `--lua-desync` is a `--payload`, so one may be inserted
  rw [finalizeArgs, applyBlobFileOptions_eq, ← hblobs, ensurePayloadOption, hpayload, hvalues,
    if_neg Bool.false_ne_true, SingleArgs.toArgs]
  simp only [luaFilter]
  split
  · simp
  · rw [insertBeforeLua_append _ _ hlua]
    simp

theorem finalizeArgs_ne_nil (protocolKey lua : String) : finalizeArgs protocolKey lua ≠ [] := by
  obtain ⟨s, hs, -⟩ := finalizeArgs_eq protocolKey lua
  rw [hs, SingleArgs.toArgs]
  simp

/-! ## No bracket is left -/

theorem unresolved_eq_false_iff {s : String} : unresolved s = false ↔
    ¬ ['\x7b', '\x7b'] <:+: s.toList ∧ ¬ ['\x7d', '\x7d'] <:+: s.toList := by
  rw [unresolved, Bool.or_eq_false_iff, ← Bool.not_eq_true, ← Bool.not_eq_true,
    Text.contains_iff, Text.contains_iff]
  exact Iff.rfl

theorem not_doubled_of_notMem {c : Char} {l : List Char} (h : c ∉ l) : ¬ [c, c] <:+: l :=
  fun hi => h (hi.subset List.mem_cons_self)

theorem option_not_doubled {c : Char} (name : String) {x : String} (hname : c ∉ name.toList)
    (hc : '=' ≠ c) (hx : ¬ [c, c] <:+: x.toList) : ¬ [c, c] <:+: (name ++ "=" ++ x).toList := by
  rw [String.toList_append, String.toList_append, List.append_assoc]
  exact Text.not_doubled_append hc (not_doubled_of_notMem hname) hx

/-- The part of a `--lua-desync` that refers to a file. -/
def referencePart (name path : String) : String :=
  "blob=" ++ (blobFileSentinel ++ (name ++ "@" ++ path))

theorem toList_referencePart (name path : String) : (referencePart name path).toList =
    ("blob=" ++ blobFileSentinel).toList ++ (name.toList ++ '@' :: path.toList) := by
  simp [referencePart]

/-- A part that refers to a file spells its name and its path. -/
theorem blobFileOfPart_eq_some_iff {part name path : String} :
    blobFileOfPart part = some (name, path) ↔
      part = referencePart name path ∧ '@' ∉ name.toList ∧ name ≠ "" ∧ path ≠ "" := by
  constructor
  · intro h
    obtain ⟨value, hvalue, h⟩ := Option.bind_eq_some_iff.mp h
    obtain ⟨rest, hrest, h⟩ := Option.bind_eq_some_iff.mp h
    obtain ⟨⟨n, p⟩, hsplit, h⟩ := Option.bind_eq_some_iff.mp h
    rw [Text.stripPrefix_eq_some_iff] at hvalue hrest
    rw [Text.splitOnce_eq_some_iff] at hsplit
    simp only [Option.ite_none_left_eq_some, Option.some.injEq, Prod.mk.injEq, Bool.or_eq_true,
      String.isEmpty_iff, not_or] at h
    obtain ⟨⟨hname, hpath⟩, rfl, rfl⟩ := h
    refine ⟨?_, hsplit.2, hname, hpath⟩
    rw [hvalue, hrest, referencePart, ← String.toList_inj]
    simp [hsplit.1]
  · rintro ⟨rfl, hat, hname, hpath⟩
    have hsplit : Text.splitOnce (name ++ "@" ++ path) '@' = some (name, path) := by
      rw [Text.splitOnce_eq_some_iff]
      exact ⟨by simp, hat⟩
    have hvalue : Text.stripPrefix (referencePart name path) "blob=" =
        some (blobFileSentinel ++ (name ++ "@" ++ path)) :=
      Text.stripPrefix_eq_some_iff.mpr rfl
    have hrest : Text.stripPrefix (blobFileSentinel ++ (name ++ "@" ++ path)) blobFileSentinel =
        some (name ++ "@" ++ path) :=
      Text.stripPrefix_eq_some_iff.mpr rfl
    simp [blobFileOfPart, parseBlobFileSentinel, hvalue, hrest, hsplit, hname, hpath]

theorem mem_extendMissing {values extra : List String} {x : String} :
    x ∈ extendMissing values extra ↔ x ∈ values ∨ x ∈ extra := by
  unfold extendMissing
  induction extra generalizing values with
  | nil => simp
  | cons y extra ih =>
    rw [List.foldl_cons, ih, List.mem_cons]
    by_cases hy : values.contains y = true
    · have hmem : y ∈ values := by simpa using hy
      rw [if_pos hy]
      constructor
      · tauto
      · rintro (h | rfl | h)
        · exact Or.inl h
        · exact Or.inl hmem
        · exact Or.inr h
    · rw [if_neg hy, List.mem_append, List.mem_singleton, or_assoc]

/-- The standard payloads of the protocols. -/
theorem inferredLuaPayload_mem {lua payload : String} {protocolKey : Option String}
    (h : inferredLuaPayload lua protocolKey = some payload) :
    payload ∈ ["http_req", "tls_client_hello", "quic_initial"] := by
  unfold inferredLuaPayload at h
  split at h
  · cases h
  · split at h <;> simp_all

/-- A payload of a variant is written in it or is a standard payload. -/
theorem mem_luaDesyncPayloads {lua item : String} {protocolKey : Option String}
    (h : item ∈ luaDesyncPayloads ["--lua-desync=" ++ lua] protocolKey) :
    item.toList <:+: lua.toList ∨
      ∃ payload ∈ ["http_req", "tls_client_hello", "quic_initial"],
        item.toList <:+: String.toList payload := by
  have hvalues : luaDesyncValues ["--lua-desync=" ++ lua] = [lua] :=
    luaDesyncValues_append lua (List.forall_mem_nil _)
  rw [luaDesyncPayloads, hvalues, List.foldl_cons, List.foldl_nil] at h
  split at h
  · exact absurd h List.not_mem_nil
  · rename_i payload hpayload
    rw [mem_extendMissing] at h
    have hitem := h.resolve_left List.not_mem_nil
    have hinfix := Text.infix_of_mem_split (List.mem_filter.mp hitem).1
    rw [Option.or_eq_some_iff] at hpayload
    rcases hpayload with hexplicit | ⟨-, hinferred⟩
    · left
      obtain ⟨hfind, -⟩ := Option.filter_eq_some_iff.mp hexplicit
      obtain ⟨part, hpart, hstrip⟩ := List.exists_of_findSome?_eq_some hfind
      rw [Text.stripPrefix_eq_some_iff] at hstrip
      have hsub : payload.toList <:+: part.toList := by
        rw [hstrip, String.toList_append]
        exact (List.suffix_append _ _).isInfix
      exact hinfix.trans (hsub.trans (Text.infix_of_mem_split hpart))
    · exact Or.inr ⟨payload, inferredLuaPayload_mem hinferred, hinfix⟩

section Brackets

variable {c : Char} (hc : c = '\x7b' ∨ c = '\x7d')
include hc

theorem resolvedLua_not_doubled {lua : String} (h : ¬ [c, c] <:+: lua.toList) :
    ¬ [c, c] <:+: (resolvedLua lua).toList := by
  have hcolon : ':' ≠ c := by rcases hc with rfl | rfl <;> decide
  have heq : '=' ≠ c := by rcases hc with rfl | rfl <;> decide
  have hblob : c ∉ "blob".toList := by rcases hc with rfl | rfl <;> decide
  unfold resolvedLua
  split
  · exact h
  · rw [replaceBlobFileSentinels, Text.toList_join]
    apply Text.not_doubled_intercalate hcolon
    intro p hp
    obtain ⟨q, hq, rfl⟩ := List.mem_map.mp hp
    obtain ⟨part, hpart, rfl⟩ := List.mem_map.mp hq
    have hpart : ¬ [c, c] <:+: part.toList := fun hi => h (hi.trans (Text.infix_of_mem_split hpart))
    split
    · rename_i name path hsome
      have hname : ¬ [c, c] <:+: name.toList := by
        intro hi
        apply hpart
        rw [(blobFileOfPart_eq_some_iff.mp hsome).1, toList_referencePart]
        exact hi.trans ((List.prefix_append _ _).isInfix.trans (List.suffix_append _ _).isInfix)
      exact option_not_doubled "blob" hblob heq hname
    · exact hpart

/-- No argument of a variant has a doubled bracket that the rendered template does not have. -/
theorem finalizeArgs_not_doubled {protocolKey lua arg : String} (h : ¬ [c, c] <:+: lua.toList)
    (harg : arg ∈ finalizeArgs protocolKey lua) : ¬ [c, c] <:+: arg.toList := by
  have hcolon : ':' ≠ c := by rcases hc with rfl | rfl <;> decide
  have hat : '@' ≠ c := by rcases hc with rfl | rfl <;> decide
  have hcomma : ',' ≠ c := by rcases hc with rfl | rfl <;> decide
  have heq : '=' ≠ c := by rcases hc with rfl | rfl <;> decide
  have hlua := resolvedLua_not_doubled hc h
  obtain ⟨s, hs, hblobs, hfilter, hslua⟩ := finalizeArgs_eq protocolKey lua
  rw [hs, SingleArgs.toArgs, List.mem_append, List.mem_append] at harg
  rcases harg with (harg | harg) | harg
  -- name and path of a blob stand next to each other in a part of the template
  · rw [hblobs, dedupPreserveOrder, List.mem_eraseDups] at harg
    obtain ⟨part, hpart, name, path, hsome, rfl⟩ := blob_of_mem_replaceBlobFileSentinels harg
    have hpart : ¬ [c, c] <:+: name.toList ++ '@' :: path.toList := by
      intro hi
      apply h
      refine hi.trans (List.IsInfix.trans ?_ (Text.infix_of_mem_split hpart))
      rw [(blobFileOfPart_eq_some_iff.mp hsome).1, toList_referencePart]
      exact (List.suffix_append _ _).isInfix
    have hname : ¬ [c, c] <:+: name.toList :=
      fun hi => hpart (hi.trans (List.prefix_append _ _).isInfix)
    have hpath : ¬ [c, c] <:+: path.toList :=
      fun hi => hpart (hi.trans ((List.suffix_cons _ _).trans (List.suffix_append _ _)).isInfix)
    refine option_not_doubled "--blob" (by rcases hc with rfl | rfl <;> decide) heq ?_
    rw [String.toList_append, String.toList_append, List.append_assoc]
    have hat : ¬ [c, c] <:+: [] ++ '@' :: path.toList :=
      Text.not_doubled_append hat (by simp) hpath
    exact Text.not_doubled_append hcolon hname hat
  -- the items of the filter come from the template or are standard payloads
  · obtain ⟨f, hf, rfl⟩ := List.mem_map.mp harg
    rw [Option.mem_toList, hfilter, luaFilter] at hf
    refine option_not_doubled "--payload" (by rcases hc with rfl | rfl <;> decide) heq ?_
    split at hf
    · cases hf
    · rw [← Option.some.inj hf, Text.toList_join]
      apply Text.not_doubled_intercalate hcomma
      intro p hp
      obtain ⟨item, hitem, rfl⟩ := List.mem_map.mp hp
      rcases mem_luaDesyncPayloads hitem with hi | ⟨payload, hpayload, hi⟩
      · exact fun hd => hlua (hd.trans hi)
      · have hstandard : ∀ p ∈ ["http_req", "tls_client_hello", "quic_initial"],
            c ∉ String.toList p := by
          rcases hc with rfl | rfl <;> decide
        exact fun hd => not_doubled_of_notMem (hstandard payload hpayload) (hd.trans hi)
  · rw [List.mem_singleton] at harg
    rw [harg, hslua]
    exact option_not_doubled "--lua-desync" (by rcases hc with rfl | rfl <;> decide) heq hlua

end Brackets

/-- No argument of a variant has a bracket of a placeholder left. -/
theorem finalizeArgs_resolved {protocolKey lua arg : String} (h : unresolved lua = false)
    (harg : arg ∈ finalizeArgs protocolKey lua) : unresolved arg = false := by
  rw [unresolved_eq_false_iff] at h ⊢
  exact ⟨finalizeArgs_not_doubled (Or.inl rfl) h.1 harg,
    finalizeArgs_not_doubled (Or.inr rfl) h.2 harg⟩

end ZapretChecker.Graph
