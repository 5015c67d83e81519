import ZapretChecker.Payload.Complete

/-!
# Validation and the registry

`AppConfig::validate` checks the names of payloads before any file is looked for. It reads the stems
as they are written and no builtin names; the registry reads the aliases made of the stems, and both.

* `PayloadsAccepted` — what the validation of payloads leaves to rely on
* `AliasesAgree` — what it does not check
* `registry_ok_iff` — an accepted configuration is registered exactly when its aliases agree
-/

namespace ZapretChecker.Payload

open Checked Config

/-! ## What is validated -/

theorem returns_validatePayloadAlias {a : String} {u : Unit} :
    (Config.validatePayloadAlias a).Returns u ↔ ValidAlias a := by
  unfold Config.validatePayloadAlias ValidAlias
  simp only [returns_bind, returns_bailIf]
  simp [or_iff_not_imp_left]

theorem returns_validatePayloadAliasReserved {a : String} {u : Unit} :
    (validatePayloadAliasReserved a).Returns u ↔ a ∉ builtinPayloadAliases := returns_bailIf

/-- The checks of an alias pass, and it is entered. -/
theorem valid_of_validateAlias {protocol a : String} {seen seen' : SeenAliases}
    (h : (validateAlias protocol seen a).Returns seen') :
    ValidAlias a ∧ a ∉ builtinPayloadAliases := by
  unfold validateAlias at h
  simp only [returns_bind, returns_validatePayloadAlias, returns_validatePayloadAliasReserved] at h
  obtain ⟨_, hvalid, _, hreserved, -⟩ := h
  exact ⟨hvalid, hreserved⟩

theorem valid_of_foldlM_validateAlias {protocol : String} {names : List String}
    {seen seen' : SeenAliases} (h : (names.foldlM (validateAlias protocol) seen).Returns seen') :
    ∀ a ∈ names, ValidAlias a ∧ a ∉ builtinPayloadAliases := by
  induction names generalizing seen with
  | nil => exact List.forall_mem_nil _
  | cons a names ih =>
    rw [List.foldlM_cons, returns_bind] at h
    obtain ⟨next, hfirst, hrest⟩ := h
    rw [List.forall_mem_cons]
    exact ⟨valid_of_validateAlias hfirst, ih hrest⟩

/-- What the validation of the payloads leaves to rely on. -/
structure PayloadsAccepted (payloads : PayloadConfig) : Prop where
  max_ne : payloads.maxPerProtocol ≠ 0
  within : ∀ protocol, (protocolConfig payloads protocol).files.length +
    (protocolConfig payloads protocol).aliases.length ≤ payloads.maxPerProtocol
  aliases : ∀ protocol, ∀ entry ∈ (protocolConfig payloads protocol).aliases,
    ValidAlias entry.1 ∧ entry.1 ∉ builtinPayloadAliases

theorem valid_of_validatePayloadProtocolAliases {protocol : String}
    {config : PayloadProtocolConfig} {seen seen' : SeenAliases}
    (h : (validatePayloadProtocolAliases protocol config seen).Returns seen') :
    ∀ entry ∈ config.aliases, ValidAlias entry.1 ∧ entry.1 ∉ builtinPayloadAliases := by
  obtain ⟨next, hnames, -⟩ := returns_bind.mp h
  intro entry hentry
  exact valid_of_foldlM_validateAlias hnames entry.1 (List.mem_map_of_mem hentry)

theorem PayloadsAccepted.of_returns {cfg : AppConfig} (h : (validatePayloads cfg).Returns ()) :
    PayloadsAccepted cfg.payloads := by
  simp only [validatePayloads, validatePayloadProtocolFileLimit, returns_bind, returns_bailIf,
    not_lt] at h
  obtain ⟨_, hmax, _, -, _, hhttp, _, htls, _, hquic, _, hwithin, _, hwithin', hwithin''⟩ := h
  refine ⟨hmax, ?_, ?_⟩
  · intro protocol
    cases protocol with
    | http => exact hwithin
    | tls => exact hwithin'
    | quic => exact hwithin''
  · intro protocol
    cases protocol with
    | http => exact valid_of_validatePayloadProtocolAliases hhttp
    | tls => exact valid_of_validatePayloadProtocolAliases htls
    | quic => exact valid_of_validatePayloadProtocolAliases hquic

theorem PayloadsAccepted.of_validate {build : Build} {socketAddrPort : String → Option UInt16}
    {cfg : AppConfig} (h : (cfg.validate build socketAddrPort).Returns ()) :
    PayloadsAccepted cfg.payloads :=
  .of_returns (Validated.of_returns h).payloads

/-! ## What is not validated -/

/-- The aliases that are registered are fit for it, and none of them is registered twice. -/
structure AliasesAgree (lowercase : Lowercase) (payloads : PayloadConfig) : Prop where
  builtin_valid : ∀ protocol, ∀ a ∈ (protocolConfig payloads protocol).builtin, ValidAlias a
  named : ∀ protocol, ∀ file ∈ (protocolConfig payloads protocol).files,
    fileAlias lowercase file ≠ ""
  not_reserved : ∀ protocol, ∀ file ∈ (protocolConfig payloads protocol).files,
    fileAlias lowercase file ∉ builtinPayloadAliases
  builtin_nodup : (protocols.flatMap fun protocol => (protocolConfig payloads protocol).builtin).Nodup
  builtin_apart : ∀ p q, ∀ a ∈ fileAliases lowercase (protocolConfig payloads p),
    a ∉ (protocolConfig payloads q).builtin
  apart : ∀ p q, p ≠ q → ∀ a ∈ fileAliases lowercase (protocolConfig payloads p),
    a ∉ fileAliases lowercase (protocolConfig payloads q)

/-- Nothing comes twice in the lists of the protocols. -/
theorem nodup_flatMap_protocols_iff {f : PayloadProtocol → List String} :
    (protocols.flatMap f).Nodup ↔
      (∀ p, (f p).Nodup) ∧ ∀ p q, p ≠ q → List.Disjoint (f p) (f q) := by
  have hmem : ∀ p, p ∈ protocols := by
    intro p
    cases p <;> decide
  rw [List.nodup_flatMap]
  refine and_congr ⟨fun h p => h p (hmem p), fun h p _ => h p⟩ ?_
  constructor
  · intro h p q hne
    by_cases hpq : [p, q].Sublist protocols
    · exact List.rel_of_pairwise_cons (h.sublist hpq) List.mem_cons_self
    · have hqp : [q, p].Sublist protocols := by
        cases p <;> cases q <;> first | exact absurd rfl hne | exact absurd (by decide) hpq | decide
      have hdisjoint := List.rel_of_pairwise_cons (h.sublist hqp) List.mem_cons_self
      exact fun a hp hq => hdisjoint hq hp
  · intro h
    have hnodup : protocols.Nodup := by decide
    exact hnodup.imp fun hne => h _ _ hne

theorem map_payloadAlias_registeredDefs (lowercase : Lowercase) (baseDir : String)
    (protocol : PayloadProtocol) (config : PayloadProtocolConfig) :
    (registeredDefs lowercase baseDir protocol config).map PayloadDef.payloadAlias =
      config.builtin ++ (SortedMap.ofEntries (configuredEntries lowercase baseDir config)).keys := by
  rw [registeredDefs, List.map_append, List.map_map, List.map_map]
  have hbuiltin : PayloadDef.payloadAlias ∘ builtinDef protocol = id := rfl
  rw [hbuiltin, List.map_id]
  rfl

theorem mem_keys_configuredEntries {lowercase : Lowercase} {baseDir : String}
    {config : PayloadProtocolConfig} {a : String} :
    a ∈ (SortedMap.ofEntries (configuredEntries lowercase baseDir config)).keys ↔
      a ∈ fileAliases lowercase config := by
  rw [SortedMap.mem_keys_ofEntries, map_fst_configuredEntries]

theorem distinct_allDefs_iff {lowercase : Lowercase} {baseDir : String} {payloads : PayloadConfig} :
    Distinct (allDefs lowercase baseDir payloads) ↔
      (protocols.flatMap fun protocol => (protocolConfig payloads protocol).builtin).Nodup ∧
      (∀ p q, ∀ a ∈ fileAliases lowercase (protocolConfig payloads p),
        a ∉ (protocolConfig payloads q).builtin) ∧
      ∀ p q, p ≠ q → ∀ a ∈ fileAliases lowercase (protocolConfig payloads p),
        a ∉ fileAliases lowercase (protocolConfig payloads q) := by
  have hlist : (allDefs lowercase baseDir payloads).map PayloadDef.payloadAlias =
      protocols.flatMap fun protocol => (protocolConfig payloads protocol).builtin ++
        (SortedMap.ofEntries
          (configuredEntries lowercase baseDir (protocolConfig payloads protocol))).keys := by
    rw [allDefs, List.map_flatMap]
    simp only [map_payloadAlias_registeredDefs]
  unfold Distinct
  rw [hlist, nodup_flatMap_protocols_iff, nodup_flatMap_protocols_iff]
  simp only [List.nodup_append', SortedMap.nodup_keys, List.disjoint_append_left,
    List.disjoint_append_right]
  simp only [List.Disjoint, mem_keys_configuredEntries]
  constructor
  · rintro ⟨hself, hother⟩
    refine ⟨⟨fun p => (hself p).1, fun p q hne => (hother p q hne).1.1⟩, ?_, ?_⟩
    · intro p q a hfile hbuiltin
      by_cases hne : q = p
      · subst hne
        exact (hself q).2.2 hbuiltin hfile
      · exact (hother q p hne).2.1 hbuiltin hfile
    · intro p q hne a hfile hfile'
      exact (hother p q hne).2.2 hfile hfile'
  · rintro ⟨⟨hnodup, hbuiltin⟩, hapart, hfiles⟩
    refine ⟨fun p => ⟨hnodup p, trivial, fun a ha hfile => hapart p p a hfile ha⟩, ?_⟩
    intro p q hne
    refine ⟨⟨hbuiltin p q hne, fun a hfile ha => hapart p q a hfile ha⟩, ?_, ?_⟩
    · intro a ha hfile
      exact hapart q p a hfile ha
    · intro a hfile hfile'
      exact hfiles p q hne a hfile hfile'

/-! ## The registry of an accepted configuration -/

/-- Every configured file is there. -/
def FilesPresent (fs : FileSystem) (baseDir : String) (payloads : PayloadConfig) : Prop :=
  ∀ protocol, (∀ file ∈ (protocolConfig payloads protocol).files,
      fs.Regular (resolvePayloadPath baseDir file)) ∧
    ∀ entry ∈ (protocolConfig payloads protocol).aliases,
      fs.Regular (resolvePayloadPath baseDir entry.2)

/-- **When an accepted configuration is registered.** -/
theorem registry_ok_iff {lowercase : Lowercase} {fs : FileSystem} {cfg : AppConfig}
    {build : Build} {socketAddrPort : String → Option UInt16} {baseDir : String}
    (h : (cfg.validate build socketAddrPort).Returns ()) (hauto : cfg.blobs.autoLoad = true)
    (hbase : cfg.blobs.baseDir = some baseDir)
    (hdir : fs.pathExists baseDir = true ∧ fs.isDir baseDir = true)
    (hfiles : FilesPresent fs baseDir cfg.payloads) :
    (∃ registry, buildPayloadRegistry lowercase fs cfg.blobs cfg.payloads = .ok registry) ↔
      AliasesAgree lowercase cfg.payloads := by
  have haccepted := PayloadsAccepted.of_validate h
  simp only [buildPayloadRegistry_eq_ok_iff hauto hbase, distinct_allDefs_iff]
  constructor
  · rintro ⟨_, -, -, hload, ⟨hnodup, hbuiltin, hapart⟩, -⟩
    exact {
      builtin_valid := fun protocol => (hload protocol).builtin
      named := fun protocol file hfile => ((hload protocol).files file hfile).named
      not_reserved := fun protocol file hfile => ((hload protocol).files file hfile).not_reserved
      builtin_nodup := hnodup
      builtin_apart := hbuiltin
      apart := hapart }
  · intro hagree
    refine ⟨_, haccepted.max_ne, hdir, fun protocol => ?_,
      ⟨hagree.builtin_nodup, hagree.builtin_apart, hagree.apart⟩, rfl⟩
    exact {
      within := haccepted.within protocol
      builtin := hagree.builtin_valid protocol
      files := fun file hfile =>
        ⟨hagree.named protocol file hfile, hagree.not_reserved protocol file hfile,
          (hfiles protocol).1 file hfile⟩
      aliases := fun entry hentry =>
        ⟨(haccepted.aliases protocol entry hentry).1, (haccepted.aliases protocol entry hentry).2,
          (hfiles protocol).2 entry hentry⟩ }

theorem filesPresent_tlsFilesConfig {files : List String} {aliases : List (String × String)}
    (hfiles : ∀ file ∈ files, resolvePayloadPath "payloads" file ≠ "payloads")
    (haliases : ∀ entry ∈ aliases, resolvePayloadPath "payloads" entry.2 ≠ "payloads") :
    FilesPresent payloadFiles "payloads" (tlsFilesConfig files aliases).payloads := by
  intro protocol
  cases protocol with
  | tls =>
    exact ⟨fun file hfile => ⟨rfl, decide_eq_true (hfiles file hfile)⟩,
      fun entry hentry => ⟨rfl, decide_eq_true (haliases entry hentry)⟩⟩
  | _ => exact ⟨List.forall_mem_nil _, List.forall_mem_nil _⟩

theorem registry_ok_hello :
    AliasesAgree someLowercase (tlsFilesConfig ["Hello.bin"] []).payloads := by
  have haccepted : ((tlsFilesConfig ["Hello.bin"] []).validate .debug fun _ => some 443).Returns () :=
    by decide +kernel
  have hbuild : buildPayloadRegistry someLowercase payloadFiles
      (tlsFilesConfig ["Hello.bin"] []).blobs (tlsFilesConfig ["Hello.bin"] []).payloads =
      .ok [builtinDef .http "fake_default_http", builtinDef .tls "fake_default_tls",
        fileDef .tls ("hello", "payloads/Hello.bin"), builtinDef .quic "fake_default_quic"] := by
    decide +kernel
  exact (registry_ok_iff haccepted rfl rfl ⟨rfl, rfl⟩
    (filesPresent_tlsFilesConfig (by decide +kernel) (List.forall_mem_nil _))).mp ⟨_, hbuild⟩

/-- The stem of a file is not reserved as it is written, its alias is. -/
theorem not_registry_ok_reserved :
    (∀ build, ((tlsFilesConfig ["Fake_Default_TLS.bin"] []).validate build
      fun _ => some 443).Returns ()) ∧
    FilesPresent payloadFiles "payloads" (tlsFilesConfig ["Fake_Default_TLS.bin"] []).payloads ∧
    buildPayloadRegistry someLowercase payloadFiles
        (tlsFilesConfig ["Fake_Default_TLS.bin"] []).blobs
        (tlsFilesConfig ["Fake_Default_TLS.bin"] []).payloads =
      .error (.aliasReserved "fake_default_tls") :=
  ⟨fun build => by cases build <;> decide +kernel,
    filesPresent_tlsFilesConfig (by decide +kernel) (List.forall_mem_nil _), by decide +kernel⟩

end ZapretChecker.Payload
