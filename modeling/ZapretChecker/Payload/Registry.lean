import Mathlib.Data.String.Basic
import ZapretChecker.Lib.SortedMap
import ZapretChecker.Payload.Alias

/-!
# The payload registry

`build_payload_registry` of `src/payload_registry.rs`. The file system is a parameter.

* `buildPayloadRegistry`, `renderBlobArgs` — the functions
* `Registered` — when the registry is built, and what it holds
* `buildPayloadRegistry_eq_ok_iff` — the two agree
-/

namespace ZapretChecker.Payload

open Checked Config

inductive PayloadProtocol
  | http
  | tls
  | quic
  deriving DecidableEq, Repr

/-- The `Debug` format. -/
def PayloadProtocol.debug : PayloadProtocol → String
  | .http => "Http"
  | .tls => "Tls"
  | .quic => "Quic"

structure PayloadDef where
  protocol : PayloadProtocol
  payloadAlias : String
  path : Option String
  builtin : Bool
  deriving DecidableEq, Repr

/-- What is asked of the file system. -/
structure FileSystem where
  pathExists : String → Bool
  isDir : String → Bool
  isFile : String → Bool

/-! ## One alias -/

def resolvePayloadPath (baseDir path : String) : String :=
  if Text.startsWith path "/" then path
  else if baseDir = "" ∨ baseDir.toList.getLast? = some '/' then baseDir ++ path
  else baseDir ++ "/" ++ path

def validatePayloadFile (fs : FileSystem) (path : String) : Except PayloadError Unit :=
  if fs.pathExists path = false then .error (.bail ("payload file does not exist: " ++ path))
  else if fs.isFile path = false then .error (.bail ("payload path is not a file: " ++ path))
  else .ok ()

def builtinPayloadAliases : List String :=
  ["fake_default_http", "fake_default_tls", "fake_default_quic"]

def validateFilePayloadAlias (payloadAlias : String) : Except PayloadError Unit :=
  if payloadAlias ∈ builtinPayloadAliases then .error (.aliasReserved payloadAlias) else .ok ()

/-- `aliases` is a set: the order of its elements is not read. -/
def insertUniqueAlias (aliases : List String) (payloadAlias : String) :
    Except PayloadError (List String) :=
  if payloadAlias ∈ aliases then .error (.aliasDuplicated payloadAlias)
  else .ok (payloadAlias :: aliases)

/-! ## One protocol -/

/-- `aliases` and `registry`. -/
abbrev RegistryState := List String × List PayloadDef

def builtinDef (protocol : PayloadProtocol) (payloadAlias : String) : PayloadDef where
  protocol := protocol
  payloadAlias := payloadAlias
  path := none
  builtin := true

def fileDef (protocol : PayloadProtocol) (entry : String × String) : PayloadDef where
  protocol := protocol
  payloadAlias := entry.1
  path := some entry.2
  builtin := false

def register (state : RegistryState) (payload : PayloadDef) : Except PayloadError RegistryState := do
  let aliases ← insertUniqueAlias state.1 payload.payloadAlias
  return (aliases, state.2 ++ [payload])

def pushBuiltin (protocol : PayloadProtocol) (state : RegistryState) (payloadAlias : String) :
    Except PayloadError RegistryState := do
  validatePayloadAlias payloadAlias
  register state (builtinDef protocol payloadAlias)

/-- The alias of a file under `files`, and the path it is loaded from. -/
def fileEntry (lowercase : Lowercase) (fs : FileSystem) (baseDir file : String) :
    Except PayloadError (String × String) := do
  let payloadAlias ← makePayloadAlias lowercase file
  validateFilePayloadAlias payloadAlias
  let path := resolvePayloadPath baseDir file
  validatePayloadFile fs path
  return (payloadAlias, path)

/-- The same for an entry of `aliases`. -/
def aliasEntry (fs : FileSystem) (baseDir : String) (entry : String × String) :
    Except PayloadError (String × String) := do
  validatePayloadAlias entry.1
  validateFilePayloadAlias entry.1
  let path := resolvePayloadPath baseDir entry.2
  validatePayloadFile fs path
  return (entry.1, path)

def insertPayload (files : SortedMap String String) (entry : String × String) :
    SortedMap String String := files.insert entry.1 entry.2

def pushProtocolPayloads (lowercase : Lowercase) (fs : FileSystem) (protocol : PayloadProtocol)
    (config : PayloadProtocolConfig) (maxPerProtocol : Nat) (baseDir : Option String)
    (state : RegistryState) : Except PayloadError RegistryState := do
  let filePayloadCount := config.files.length + config.aliases.length
  if filePayloadCount > maxPerProtocol then
    throw (.bail (protocol.debug ++ " has " ++ toString filePayloadCount ++
      " file payloads, but payloads.max_per_protocol is " ++ toString maxPerProtocol))
  let state ← config.builtin.foldlM (pushBuiltin protocol) state
  match baseDir with
  | none => return state
  | some baseDir =>
    let filePayloads ← config.files.foldlM
      (fun files file => do return insertPayload files (← fileEntry lowercase fs baseDir file))
      SortedMap.empty
    let filePayloads ← config.aliases.foldlM
      (fun files entry => do return insertPayload files (← aliasEntry fs baseDir entry))
      filePayloads
    filePayloads.entries.foldlM (fun state entry => register state (fileDef protocol entry)) state

/-! ## The registry -/

/-- `base_dir` of `build_payload_registry`. -/
def payloadBaseDir (fs : FileSystem) (blobs : BlobConfig) : Except PayloadError (Option String) :=
  if blobs.autoLoad then
    match blobs.baseDir with
    | none => .error (.bail "blobs.base_dir is required when blobs.auto_load=true")
    | some baseDir =>
      if fs.pathExists baseDir = false then
        .error (.bail ("blobs.base_dir does not exist: " ++ baseDir))
      else if fs.isDir baseDir = false then
        .error (.bail ("blobs.base_dir must be a directory: " ++ baseDir))
      else .ok (some baseDir)
  else .ok none

def buildPayloadRegistry (lowercase : Lowercase) (fs : FileSystem) (blobs : BlobConfig)
    (payloads : PayloadConfig) : Except PayloadError (List PayloadDef) := do
  if payloads.maxPerProtocol = 0 then
    throw (.bail "payloads.max_per_protocol must be greater than zero")
  let baseDir ← payloadBaseDir fs blobs
  let state ← pushProtocolPayloads lowercase fs .http payloads.http payloads.maxPerProtocol baseDir
    ([], [])
  let state ← pushProtocolPayloads lowercase fs .tls payloads.tls payloads.maxPerProtocol baseDir
    state
  let state ← pushProtocolPayloads lowercase fs .quic payloads.quic payloads.maxPerProtocol baseDir
    state
  return state.2

def renderBlobArgs (payloads : List PayloadDef) : List String :=
  payloads.filterMap fun payload =>
    if payload.builtin then none
    else payload.path.map fun path => "--blob=" ++ payload.payloadAlias ++ ":@" ++ path

/-! ## Registration -/

/-- The state after `registry` was pushed. -/
def stateOf (registry : List PayloadDef) : RegistryState :=
  ((registry.map PayloadDef.payloadAlias).reverse, registry)

/-- No alias comes twice. -/
def Distinct (registry : List PayloadDef) : Prop := (registry.map PayloadDef.payloadAlias).Nodup

theorem register_stateOf_eq_ok_iff {registry : List PayloadDef} {payload : PayloadDef}
    {state : RegistryState} :
    register (stateOf registry) payload = .ok state ↔
      payload.payloadAlias ∉ registry.map PayloadDef.payloadAlias ∧
        state = stateOf (registry ++ [payload]) := by
  have hstate : stateOf (registry ++ [payload]) =
      (payload.payloadAlias :: (registry.map PayloadDef.payloadAlias).reverse,
        registry ++ [payload]) := by
    simp [stateOf]
  unfold register insertUniqueAlias
  rw [hstate]
  show (if payload.payloadAlias ∈ (registry.map PayloadDef.payloadAlias).reverse then _ else _) >>=
    _ = _ ↔ _
  by_cases hmem : payload.payloadAlias ∈ registry.map PayloadDef.payloadAlias
  · rw [if_pos (List.mem_reverse.mpr hmem)]
    constructor
    · intro h
      cases h
    · intro h
      exact absurd hmem h.1
  · rw [if_neg fun h => hmem (List.mem_reverse.mp h)]
    constructor
    · intro h
      exact ⟨hmem, (Except.ok.inj h).symm⟩
    · rintro ⟨-, rfl⟩
      rfl

theorem distinct_append_singleton {registry : List PayloadDef} (h : Distinct registry)
    (payload : PayloadDef) :
    Distinct (registry ++ [payload]) ↔
      payload.payloadAlias ∉ registry.map PayloadDef.payloadAlias := by
  unfold Distinct at h ⊢
  rw [List.map_append, List.map_singleton, List.nodup_append_comm, List.singleton_append,
    List.nodup_cons]
  exact and_iff_left h

theorem Distinct.of_append {registry payloads : List PayloadDef}
    (h : Distinct (registry ++ payloads)) : Distinct registry := by
  unfold Distinct at h ⊢
  rw [List.map_append] at h
  exact (List.nodup_append.mp h).1

/-- Payloads are pushed as long as their aliases are new. -/
theorem foldlM_register_eq_ok_iff {registry : List PayloadDef} (h : Distinct registry)
    {payloads : List PayloadDef} {state : RegistryState} :
    payloads.foldlM register (stateOf registry) = .ok state ↔
      Distinct (registry ++ payloads) ∧ state = stateOf (registry ++ payloads) := by
  induction payloads generalizing registry with
  | nil =>
    rw [List.append_nil, and_iff_right h]
    show Except.ok _ = .ok _ ↔ _
    rw [Except.ok.injEq, eq_comm]
  | cons payload payloads ih =>
    have hcons : registry ++ payload :: payloads = (registry ++ [payload]) ++ payloads := by simp
    rw [List.foldlM_cons, bind_eq_ok_iff, hcons]
    simp only [register_stateOf_eq_ok_iff, ← distinct_append_singleton h]
    constructor
    · rintro ⟨_, ⟨hfirst, rfl⟩, hrest⟩
      exact (ih hfirst).mp hrest
    · intro hall
      have hfirst := hall.1.of_append
      exact ⟨_, ⟨hfirst, rfl⟩, (ih hfirst).mpr hall⟩

/-! ## Names that are accepted -/

def ValidAlias (payloadAlias : String) : Prop :=
  payloadAlias ≠ "" ∧ ∀ c ∈ payloadAlias.toList, c.isAlphanum = true ∨ c = '_'

instance : DecidablePred ValidAlias := fun a =>
  haveI := List.decidableBAll (fun c : Char => c.isAlphanum = true ∨ c = '_') a.toList
  inferInstanceAs (Decidable (_ ∧ _))

theorem validatePayloadAlias_eq_ok_iff {a : String} {u : Unit} :
    validatePayloadAlias a = .ok u ↔ ValidAlias a := by
  unfold validatePayloadAlias ValidAlias
  split
  · next h => simp [h]
  · next h =>
    split
    · next hall =>
      rw [List.all_eq_true] at hall
      refine iff_of_true rfl ⟨h, fun c hc => ?_⟩
      simpa using hall c hc
    · next hall =>
      refine iff_of_false (fun he => by cases he) ?_
      rintro ⟨-, hchars⟩
      refine hall (List.all_eq_true.mpr fun c hc => ?_)
      simpa using hchars c hc

theorem validateFilePayloadAlias_eq_ok_iff {a : String} {u : Unit} :
    validateFilePayloadAlias a = .ok u ↔ a ∉ builtinPayloadAliases := by
  unfold validateFilePayloadAlias
  split
  · next h => exact iff_of_false (fun he => by cases he) (not_not.mpr h)
  · next h => exact iff_of_true rfl h

/-- A regular file stands at the path. -/
def FileSystem.Regular (fs : FileSystem) (path : String) : Prop :=
  fs.pathExists path = true ∧ fs.isFile path = true

theorem validatePayloadFile_eq_ok_iff {fs : FileSystem} {path : String} {u : Unit} :
    validatePayloadFile fs path = .ok u ↔ fs.Regular path := by
  unfold validatePayloadFile FileSystem.Regular
  cases fs.pathExists path <;> cases fs.isFile path <;> simp

/-- The alias of a file, empty where there is none. -/
def fileAlias (lowercase : Lowercase) (file : String) : String :=
  normalizeStem lowercase ((fileStem file).getD "")

theorem makePayloadAlias_eq_ok_iff {lowercase : Lowercase} {file a : String} :
    makePayloadAlias lowercase file = .ok a ↔
      fileAlias lowercase file ≠ "" ∧ a = fileAlias lowercase file := by
  unfold makePayloadAlias fileAlias
  cases fileStem file with
  | none =>
    refine iff_of_false (fun h => by cases h) ?_
    rintro ⟨h, -⟩
    exact h ((normalizeStem_eq_empty_iff lowercase "").mpr rfl)
  | some stem =>
    rw [Option.getD_some, ne_eq, normalizeStem_eq_empty_iff]
    exact stemAlias_eq_ok_iff

/-- A file under `files` that can be registered. -/
structure LoadableFile (lowercase : Lowercase) (fs : FileSystem) (baseDir file : String) : Prop where
  named : fileAlias lowercase file ≠ ""
  not_reserved : fileAlias lowercase file ∉ builtinPayloadAliases
  regular : fs.Regular (resolvePayloadPath baseDir file)

/-- An entry of `aliases` that can be registered. -/
structure LoadableAlias (fs : FileSystem) (baseDir : String) (entry : String × String) : Prop where
  valid : ValidAlias entry.1
  not_reserved : entry.1 ∉ builtinPayloadAliases
  regular : fs.Regular (resolvePayloadPath baseDir entry.2)

/-- The entry of a file. -/
def loadedFile (lowercase : Lowercase) (baseDir file : String) : String × String :=
  (fileAlias lowercase file, resolvePayloadPath baseDir file)

def loadedAlias (baseDir : String) (entry : String × String) : String × String :=
  (entry.1, resolvePayloadPath baseDir entry.2)

theorem fileEntry_eq_ok_iff {lowercase : Lowercase} {fs : FileSystem} {baseDir : String}
    (file : String) (entry : String × String) :
    fileEntry lowercase fs baseDir file = .ok entry ↔
      LoadableFile lowercase fs baseDir file ∧ entry = loadedFile lowercase baseDir file := by
  unfold fileEntry
  simp only [bind_eq_ok_iff, makePayloadAlias_eq_ok_iff, validateFilePayloadAlias_eq_ok_iff,
    validatePayloadFile_eq_ok_iff]
  constructor
  · rintro ⟨_, ⟨hnamed, rfl⟩, _, hreserved, _, hregular, h⟩
    exact ⟨⟨hnamed, hreserved, hregular⟩, (Except.ok.inj h).symm⟩
  · rintro ⟨⟨hnamed, hreserved, hregular⟩, rfl⟩
    exact ⟨_, ⟨hnamed, rfl⟩, (), hreserved, (), hregular, rfl⟩

theorem aliasEntry_eq_ok_iff {fs : FileSystem} {baseDir : String} (entry loaded : String × String) :
    aliasEntry fs baseDir entry = .ok loaded ↔
      LoadableAlias fs baseDir entry ∧ loaded = loadedAlias baseDir entry := by
  unfold aliasEntry
  simp only [bind_eq_ok_iff, validatePayloadAlias_eq_ok_iff, validateFilePayloadAlias_eq_ok_iff,
    validatePayloadFile_eq_ok_iff]
  constructor
  · rintro ⟨_, hvalid, _, hreserved, _, hregular, h⟩
    exact ⟨⟨hvalid, hreserved, hregular⟩, (Except.ok.inj h).symm⟩
  · rintro ⟨⟨hvalid, hreserved, hregular⟩, rfl⟩
    exact ⟨(), hvalid, (), hreserved, (), hregular, rfl⟩

/-! ## What is registered -/

/-- The file payloads of a protocol, as they are configured. -/
def configuredEntries (lowercase : Lowercase) (baseDir : String) (config : PayloadProtocolConfig) :
    List (String × String) :=
  config.files.map (loadedFile lowercase baseDir) ++ config.aliases.map (loadedAlias baseDir)

/-- The payloads of a protocol, as they are registered. -/
def registeredDefs (lowercase : Lowercase) (baseDir : String) (protocol : PayloadProtocol)
    (config : PayloadProtocolConfig) : List PayloadDef :=
  config.builtin.map (builtinDef protocol) ++
    (SortedMap.ofEntries (configuredEntries lowercase baseDir config)).entries.map
      (fileDef protocol)

/-- What one protocol must bring along. -/
structure Loadable (lowercase : Lowercase) (fs : FileSystem) (baseDir : String)
    (maxPerProtocol : Nat) (config : PayloadProtocolConfig) : Prop where
  within : config.files.length + config.aliases.length ≤ maxPerProtocol
  builtin : ∀ a ∈ config.builtin, ValidAlias a
  files : ∀ file ∈ config.files, LoadableFile lowercase fs baseDir file
  aliases : ∀ entry ∈ config.aliases, LoadableAlias fs baseDir entry

theorem foldlM_pushBuiltin_eq_ok_iff {protocol : PayloadProtocol} {names : List String}
    {state state' : RegistryState} :
    names.foldlM (pushBuiltin protocol) state = .ok state' ↔
      (∀ a ∈ names, ValidAlias a) ∧
        (names.map (builtinDef protocol)).foldlM register state = .ok state' := by
  induction names generalizing state with
  | nil => exact (and_iff_right (List.forall_mem_nil _)).symm
  | cons a names ih =>
    rw [List.foldlM_cons, List.map_cons, List.foldlM_cons, List.forall_mem_cons]
    simp only [pushBuiltin, bind_eq_ok_iff, validatePayloadAlias_eq_ok_iff, ih]
    constructor
    · rintro ⟨next, ⟨_, hvalid, hnext⟩, hrest, hstate⟩
      exact ⟨⟨hvalid, hrest⟩, next, hnext, hstate⟩
    · rintro ⟨⟨hvalid, hrest⟩, next, hnext, hstate⟩
      exact ⟨next, ⟨(), hvalid, hnext⟩, hrest, hstate⟩

theorem pushProtocolPayloads_eq_ok_iff {lowercase : Lowercase} {fs : FileSystem}
    {protocol : PayloadProtocol} {config : PayloadProtocolConfig} {maxPerProtocol : Nat}
    {baseDir : String} {registry : List PayloadDef} (h : Distinct registry)
    {state : RegistryState} :
    pushProtocolPayloads lowercase fs protocol config maxPerProtocol (some baseDir)
        (stateOf registry) = .ok state ↔
      Loadable lowercase fs baseDir maxPerProtocol config ∧
        Distinct (registry ++ registeredDefs lowercase baseDir protocol config) ∧
        state = stateOf (registry ++ registeredDefs lowercase baseDir protocol config) := by
  have hentries : SortedMap.ofEntries (configuredEntries lowercase baseDir config) =
      (config.aliases.map (loadedAlias baseDir)).foldl insertPayload
        ((config.files.map (loadedFile lowercase baseDir)).foldl insertPayload SortedMap.empty) := by
    unfold SortedMap.ofEntries SortedMap.insertAll configuredEntries
    rw [List.foldl_append]
    rfl
  have hall : (registeredDefs lowercase baseDir protocol config).foldlM register
        (stateOf registry) = .ok state ↔
      ∃ pushed, (config.builtin.map (builtinDef protocol)).foldlM register (stateOf registry) =
          .ok pushed ∧
        (SortedMap.ofEntries (configuredEntries lowercase baseDir config)).entries.foldlM
          (fun state entry => register state (fileDef protocol entry)) pushed = .ok state := by
    rw [registeredDefs, List.foldlM_append, bind_eq_ok_iff]
    simp only [List.foldlM_map]
  rw [← foldlM_register_eq_ok_iff h, hall, hentries]
  unfold pushProtocolPayloads
  by_cases hwithin : config.files.length + config.aliases.length ≤ maxPerProtocol
  · rw [if_neg (not_lt.mpr hwithin)]
    simp only [bind_eq_ok_iff, foldlM_pushBuiltin_eq_ok_iff, foldlM_eq_ok_iff fileEntry_eq_ok_iff,
      foldlM_eq_ok_iff aliasEntry_eq_ok_iff]
    constructor
    · rintro ⟨pushed, ⟨hbuiltin, hpushed⟩, _, ⟨hfiles, rfl⟩, _, ⟨haliases, rfl⟩, hstate⟩
      exact ⟨⟨hwithin, hbuiltin, hfiles, haliases⟩, pushed, hpushed, hstate⟩
    · rintro ⟨hload, pushed, hpushed, hstate⟩
      exact ⟨pushed, ⟨hload.builtin, hpushed⟩, _, ⟨hload.files, rfl⟩, _, ⟨hload.aliases, rfl⟩,
        hstate⟩
  · rw [if_pos (not_le.mp hwithin)]
    refine iff_of_false (fun hthrow => by cases hthrow) ?_
    rintro ⟨hload, -⟩
    exact hwithin hload.within

/-! ## The whole registry -/

def protocols : List PayloadProtocol := [.http, .tls, .quic]

/-- The section of a protocol. -/
def protocolConfig (payloads : PayloadConfig) : PayloadProtocol → PayloadProtocolConfig
  | .http => payloads.http
  | .tls => payloads.tls
  | .quic => payloads.quic

/-- The payloads of all protocols. -/
def allDefs (lowercase : Lowercase) (baseDir : String) (payloads : PayloadConfig) :
    List PayloadDef :=
  protocols.flatMap fun protocol =>
    registeredDefs lowercase baseDir protocol (protocolConfig payloads protocol)

/-- The base directory is used if it exists. -/
theorem payloadBaseDir_eq_ok_iff {fs : FileSystem} {blobs : BlobConfig} {baseDir : String}
    (hauto : blobs.autoLoad = true) (hbase : blobs.baseDir = some baseDir) {dir : Option String} :
    payloadBaseDir fs blobs = .ok dir ↔
      (fs.pathExists baseDir = true ∧ fs.isDir baseDir = true) ∧ dir = some baseDir := by
  unfold payloadBaseDir
  rw [if_pos hauto, hbase]
  show (if fs.pathExists baseDir = false then _ else if fs.isDir baseDir = false then _ else _) =
    Except.ok dir ↔ _
  split
  · next hmissing => exact iff_of_false (fun h => by cases h) fun h => by simp [h] at hmissing
  · next hexists =>
    split
    · next hfile => exact iff_of_false (fun h => by cases h) fun h => by simp [h] at hfile
    · next hisDir =>
      rw [Bool.not_eq_false] at hexists hisDir
      rw [Except.ok.injEq, and_iff_right ⟨hexists, hisDir⟩, eq_comm]

/-- The registry is built from what every protocol brings along, where no alias comes twice. -/
theorem buildPayloadRegistry_eq_ok_iff {lowercase : Lowercase} {fs : FileSystem}
    {blobs : BlobConfig} {payloads : PayloadConfig} {baseDir : String}
    (hauto : blobs.autoLoad = true) (hbase : blobs.baseDir = some baseDir)
    {registry : List PayloadDef} :
    buildPayloadRegistry lowercase fs blobs payloads = .ok registry ↔
      payloads.maxPerProtocol ≠ 0 ∧ (fs.pathExists baseDir = true ∧ fs.isDir baseDir = true) ∧
      (∀ protocol, Loadable lowercase fs baseDir payloads.maxPerProtocol
        (protocolConfig payloads protocol)) ∧
      Distinct (allDefs lowercase baseDir payloads) ∧
      registry = allDefs lowercase baseDir payloads := by
  have hall : allDefs lowercase baseDir payloads =
      [] ++ registeredDefs lowercase baseDir .http payloads.http ++
        registeredDefs lowercase baseDir .tls payloads.tls ++
        registeredDefs lowercase baseDir .quic payloads.quic := by
    show _ ++ (_ ++ (_ ++ [])) = _
    rw [List.append_nil, List.nil_append, List.append_assoc]
    rfl
  have hstart : Distinct [] := List.nodup_nil
  unfold buildPayloadRegistry
  rw [hall]
  by_cases hmax : payloads.maxPerProtocol = 0
  · rw [if_pos hmax]
    exact iff_of_false (fun hthrow => by cases hthrow) fun h => h.1 hmax
  · rw [if_neg hmax]
    simp only [bind_eq_ok_iff, payloadBaseDir_eq_ok_iff hauto hbase]
    constructor
    · rintro ⟨_, ⟨hexists, rfl⟩, first, hfirst, second, hsecond, third, hthird, hregistry⟩
      obtain ⟨hhttp, hdistinct, rfl⟩ := (pushProtocolPayloads_eq_ok_iff hstart).mp hfirst
      obtain ⟨htls, hdistinct, rfl⟩ := (pushProtocolPayloads_eq_ok_iff hdistinct).mp hsecond
      obtain ⟨hquic, hdistinct, rfl⟩ := (pushProtocolPayloads_eq_ok_iff hdistinct).mp hthird
      refine ⟨hmax, hexists, ?_, hdistinct, (Except.ok.inj hregistry).symm⟩
      intro protocol
      cases protocol with
      | http => exact hhttp
      | tls => exact htls
      | quic => exact hquic
    · rintro ⟨-, hexists, hload, hdistinct, rfl⟩
      have htwo := hdistinct.of_append
      have hone := htwo.of_append
      exact ⟨_, ⟨hexists, rfl⟩,
        _, (pushProtocolPayloads_eq_ok_iff hstart).mpr ⟨hload .http, hone, rfl⟩,
        _, (pushProtocolPayloads_eq_ok_iff hone).mpr ⟨hload .tls, htwo, rfl⟩,
        _, (pushProtocolPayloads_eq_ok_iff htwo).mpr ⟨hload .quic, hdistinct, rfl⟩, rfl⟩

end ZapretChecker.Payload
