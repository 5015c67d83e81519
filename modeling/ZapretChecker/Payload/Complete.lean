import ZapretChecker.Payload.Registry

/-!
# What the registry loses

Files and aliases of one protocol go into a map under their aliases. Two with the same alias leave
one entry, and no error says so.

* `Complete` — the registry holds what is configured, no more and no less
* `registry_complete_iff` — exactly when no two of one protocol have the same alias
-/

namespace ZapretChecker.Payload

open Config

/-- The payloads of a protocol, as they are configured. -/
def configuredDefs (lowercase : Lowercase) (baseDir : String) (protocol : PayloadProtocol)
    (config : PayloadProtocolConfig) : List PayloadDef :=
  config.builtin.map (builtinDef protocol) ++
    (configuredEntries lowercase baseDir config).map (fileDef protocol)

/-- The option of a file payload. -/
def blobArg (entry : String × String) : String := "--blob=" ++ entry.1 ++ ":@" ++ entry.2

/-- The registered payloads of a protocol. -/
def ofProtocol (protocol : PayloadProtocol) (registry : List PayloadDef) : List PayloadDef :=
  registry.filter fun payload => payload.protocol = protocol

/-- No configured payload is lost. -/
structure Complete (lowercase : Lowercase) (baseDir : String) (payloads : PayloadConfig)
    (registry : List PayloadDef) : Prop where
  distinct : Distinct registry
  entries : ∀ protocol, (ofProtocol protocol registry).Perm
    (configuredDefs lowercase baseDir protocol (protocolConfig payloads protocol))
  registered : ∀ protocol, ((ofProtocol protocol registry).filter fun p => !p.builtin).length =
    (protocolConfig payloads protocol).files.length +
      (protocolConfig payloads protocol).aliases.length
  rendered : ∀ protocol, (renderBlobArgs (ofProtocol protocol registry)).Perm
    ((configuredEntries lowercase baseDir (protocolConfig payloads protocol)).map blobArg)

/-- The aliases under which the files of a protocol go into the map. -/
def fileAliases (lowercase : Lowercase) (config : PayloadProtocolConfig) : List String :=
  config.files.map (fileAlias lowercase) ++ config.aliases.map Prod.fst

theorem map_fst_configuredEntries (lowercase : Lowercase) (baseDir : String)
    (config : PayloadProtocolConfig) :
    (configuredEntries lowercase baseDir config).map Prod.fst = fileAliases lowercase config := by
  rw [configuredEntries, List.map_append, List.map_map, List.map_map]
  rfl

theorem length_configuredEntries (lowercase : Lowercase) (baseDir : String)
    (config : PayloadProtocolConfig) :
    (configuredEntries lowercase baseDir config).length =
      config.files.length + config.aliases.length := by
  rw [configuredEntries, List.length_append, List.length_map, List.length_map]

/-! ## The payloads of one protocol -/

theorem protocol_of_mem_registeredDefs {lowercase : Lowercase} {baseDir : String}
    {protocol : PayloadProtocol} {config : PayloadProtocolConfig} {payload : PayloadDef}
    (h : payload ∈ registeredDefs lowercase baseDir protocol config) :
    payload.protocol = protocol := by
  rcases List.mem_append.mp h with h | h <;>
  · obtain ⟨_, -, rfl⟩ := List.mem_map.mp h
    rfl

theorem ofProtocol_allDefs (lowercase : Lowercase) (baseDir : String) (payloads : PayloadConfig)
    (protocol : PayloadProtocol) :
    ofProtocol protocol (allDefs lowercase baseDir payloads) =
      registeredDefs lowercase baseDir protocol (protocolConfig payloads protocol) := by
  have hself : ∀ p, ofProtocol p (registeredDefs lowercase baseDir p (protocolConfig payloads p)) =
      registeredDefs lowercase baseDir p (protocolConfig payloads p) := fun p =>
    List.filter_eq_self.mpr fun payload h => decide_eq_true (protocol_of_mem_registeredDefs h)
  have hother : ∀ p q, p ≠ q →
      ofProtocol p (registeredDefs lowercase baseDir q (protocolConfig payloads q)) = [] := by
    intro p q hne
    refine List.filter_eq_nil_iff.mpr fun payload h => ?_
    rw [protocol_of_mem_registeredDefs h, decide_eq_true_eq]
    exact hne.symm
  have happend : ofProtocol protocol (allDefs lowercase baseDir payloads) =
      ofProtocol protocol (registeredDefs lowercase baseDir .http (protocolConfig payloads .http)) ++
      ofProtocol protocol (registeredDefs lowercase baseDir .tls (protocolConfig payloads .tls)) ++
      ofProtocol protocol
        (registeredDefs lowercase baseDir .quic (protocolConfig payloads .quic)) := by
    simp only [ofProtocol, allDefs, protocols, List.flatMap_cons, List.flatMap_nil,
      List.filter_append, List.append_nil, List.append_assoc]
  rw [happend]
  cases protocol with
  | http =>
    rw [hself, hother .http .tls (by decide), hother .http .quic (by decide), List.append_nil,
      List.append_nil]
  | tls =>
    rw [hself, hother .tls .http (by decide), hother .tls .quic (by decide), List.nil_append,
      List.append_nil]
  | quic =>
    rw [hself, hother .quic .http (by decide), hother .quic .tls (by decide), List.nil_append,
      List.nil_append]

theorem fileDef_injective (protocol : PayloadProtocol) : Function.Injective (fileDef protocol) := by
  intro entry entry' h
  obtain ⟨-, halias, hpath, -⟩ := PayloadDef.mk.inj h
  exact Prod.ext halias (Option.some.inj hpath)

theorem registeredDefs_perm_iff (lowercase : Lowercase) (baseDir : String)
    (protocol : PayloadProtocol) (config : PayloadProtocolConfig) :
    (registeredDefs lowercase baseDir protocol config).Perm
        (configuredDefs lowercase baseDir protocol config) ↔
      (fileAliases lowercase config).Nodup := by
  rw [registeredDefs, configuredDefs, List.perm_append_left_iff,
    List.map_perm_map_iff (fileDef_injective protocol), SortedMap.ofEntries_perm_iff,
    map_fst_configuredEntries]

/-! ## Counting and rendering -/

theorem filter_file_configuredDefs (lowercase : Lowercase) (baseDir : String)
    (protocol : PayloadProtocol) (config : PayloadProtocolConfig) :
    (configuredDefs lowercase baseDir protocol config).filter (fun p => !p.builtin) =
      (configuredEntries lowercase baseDir config).map (fileDef protocol) := by
  have hbuiltin : (config.builtin.map (builtinDef protocol)).filter (fun p => !p.builtin) = [] := by
    refine List.filter_eq_nil_iff.mpr fun payload h => ?_
    obtain ⟨a, -, rfl⟩ := List.mem_map.mp h
    exact Bool.false_ne_true
  rw [configuredDefs, List.filter_append, hbuiltin, List.nil_append]
  refine List.filter_eq_self.mpr fun payload h => ?_
  obtain ⟨entry, -, rfl⟩ := List.mem_map.mp h
  rfl

theorem renderBlobArgs_configuredDefs (lowercase : Lowercase) (baseDir : String)
    (protocol : PayloadProtocol) (config : PayloadProtocolConfig) :
    renderBlobArgs (configuredDefs lowercase baseDir protocol config) =
      (configuredEntries lowercase baseDir config).map blobArg := by
  have hbuiltin : renderBlobArgs (config.builtin.map (builtinDef protocol)) = [] := by
    refine List.filterMap_eq_nil_iff.mpr fun payload h => ?_
    obtain ⟨a, -, rfl⟩ := List.mem_map.mp h
    rfl
  have hfiles : ∀ entries : List (String × String),
      renderBlobArgs (entries.map (fileDef protocol)) = entries.map blobArg := by
    intro entries
    rw [renderBlobArgs, List.filterMap_map, ← List.filterMap_eq_map]
    rfl
  rw [configuredDefs, renderBlobArgs, List.filterMap_append, ← renderBlobArgs, ← renderBlobArgs,
    hbuiltin, hfiles, List.nil_append]

theorem complete_of_perm {lowercase : Lowercase} {baseDir : String} {payloads : PayloadConfig}
    {registry : List PayloadDef} (hdistinct : Distinct registry)
    (h : ∀ protocol, (ofProtocol protocol registry).Perm
      (configuredDefs lowercase baseDir protocol (protocolConfig payloads protocol))) :
    Complete lowercase baseDir payloads registry where
  distinct := hdistinct
  entries := h
  registered protocol := by
    rw [((h protocol).filter _).length_eq, filter_file_configuredDefs, List.length_map,
      length_configuredEntries]
  rendered protocol := by
    rw [← renderBlobArgs_configuredDefs lowercase baseDir protocol]
    exact (h protocol).filterMap _

/-- **When nothing is lost.** -/
theorem registry_complete_iff {lowercase : Lowercase} {fs : FileSystem} {cfg : AppConfig}
    {baseDir : String} (hauto : cfg.blobs.autoLoad = true)
    (hbase : cfg.blobs.baseDir = some baseDir) {registry : List PayloadDef}
    (h : buildPayloadRegistry lowercase fs cfg.blobs cfg.payloads = .ok registry) :
    Complete lowercase baseDir cfg.payloads registry ↔
      ∀ protocol, (fileAliases lowercase (protocolConfig cfg.payloads protocol)).Nodup := by
  obtain ⟨-, -, -, hdistinct, rfl⟩ := (buildPayloadRegistry_eq_ok_iff hauto hbase).mp h
  constructor
  · intro hcomplete protocol
    have hperm := hcomplete.entries protocol
    rwa [ofProtocol_allDefs, registeredDefs_perm_iff] at hperm
  · intro hnodup
    refine complete_of_perm hdistinct fun protocol => ?_
    rw [ofProtocol_allDefs, registeredDefs_perm_iff]
    exact hnodup protocol

/-- A configuration with files for TLS. -/
def tlsFilesConfig (files : List String) (aliases : List (String × String)) : AppConfig where
  workers := { count := 1 }
  sourcePort := { mode := "os_assigned" }
  probe := { backend := "native" }
  firewall :=
    { backend := "nftables", table := "zapret_checker", hook := "output", priority := "mangle"
      cleanupOnStart := true, cleanupOnExit := true }
  debug := { keepRulesOnFailure := false }
  blobs := { autoLoad := true, baseDir := some "payloads" }
  payloads :=
    { tls := { builtin := ["fake_default_tls"], files := files, aliases := aliases } }

/-- A directory `payloads` that has every file. -/
def payloadFiles : FileSystem where
  pathExists _ := true
  isDir path := path = "payloads"
  isFile path := path ≠ "payloads"

theorem registry_complete_hello :
    Complete someLowercase "payloads"
      (tlsFilesConfig ["Hello.bin"] [("tls_google", "google.bin")]).payloads
      [builtinDef .http "fake_default_http", builtinDef .tls "fake_default_tls",
        fileDef .tls ("hello", "payloads/Hello.bin"),
        fileDef .tls ("tls_google", "payloads/google.bin"),
        builtinDef .quic "fake_default_quic"] := by
  have hbuild : buildPayloadRegistry someLowercase payloadFiles
      (tlsFilesConfig ["Hello.bin"] [("tls_google", "google.bin")]).blobs
      (tlsFilesConfig ["Hello.bin"] [("tls_google", "google.bin")]).payloads =
      .ok [builtinDef .http "fake_default_http", builtinDef .tls "fake_default_tls",
        fileDef .tls ("hello", "payloads/Hello.bin"),
        fileDef .tls ("tls_google", "payloads/google.bin"),
        builtinDef .quic "fake_default_quic"] := by
    decide +kernel
  refine (registry_complete_iff rfl rfl hbuild).mpr fun protocol => ?_
  cases protocol <;> decide +kernel

/-- Two files whose names differ in case only are validated, and one of them is lost. -/
theorem not_registry_complete_case :
    (∀ build, ((tlsFilesConfig ["Fake.bin", "fake.bin"] []).validate build
      fun _ => some 443).Returns ()) ∧
    ∃ registry, buildPayloadRegistry someLowercase payloadFiles
        (tlsFilesConfig ["Fake.bin", "fake.bin"] []).blobs
        (tlsFilesConfig ["Fake.bin", "fake.bin"] []).payloads = .ok registry ∧
      ¬ Complete someLowercase "payloads" (tlsFilesConfig ["Fake.bin", "fake.bin"] []).payloads
        registry := by
  refine ⟨fun build => by cases build <;> decide +kernel,
    [builtinDef .http "fake_default_http", builtinDef .tls "fake_default_tls",
      fileDef .tls ("fake", "payloads/fake.bin"), builtinDef .quic "fake_default_quic"],
    by decide +kernel, ?_⟩
  intro hcomplete
  exact absurd (hcomplete.registered .tls) (by decide +kernel)

end ZapretChecker.Payload
