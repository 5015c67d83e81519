import ZapretChecker.Graph.Yaml
import ZapretChecker.Graph.Config
import ZapretChecker.Lib.SortBy
import ZapretChecker.Types

/-!
# Rendering a catalog action

`src/graph.rs`, from an action of a family to the argument lists of its variants.

* `mergedParamValues`, `paramCombinations` — the values of the parameters and their product
* `renderLuaDesyncVariants` — the template with the values filled in
* `applyBlobFileOptions`, `ensurePayloadOption` — the options a `--lua-desync` needs beside it

A fake directory is read through `Env.readDir`, which lists its regular files and is empty where the
directory cannot be read.
-/

namespace ZapretChecker.Graph

open SortBy

/-- The argument is the option `name` or carries a value for it. -/
def isOption (name arg : String) : Bool := arg == name || Text.startsWith arg (name ++ "=")

def dedupPreserveOrder (values : List String) : List String := values.eraseDups

/-! ## Fake files -/

/-- A regular file of a directory. `utf8` says whether `name` is exact. -/
structure DirEntry where
  name : String
  utf8 : Bool
  deriving DecidableEq, Repr, Inhabited

/-- `file_name().to_str()` -/
def DirEntry.fileName (entry : DirEntry) : Option String :=
  if entry.utf8 then some entry.name else none

/-- `DirEntry::path`: the directory joined with the name. -/
def DirEntry.path (dir : String) (entry : DirEntry) : String :=
  if dir.toList.getLast?.all (· == '/') then dir ++ entry.name else dir ++ "/" ++ entry.name

def defaultFakeBlobDir : String := "/opt/zapret2/files/fake"

def blobFileSentinel : String := "__zapret_checker_blob_file__"

inductive FakeBlobKind
  | http
  | tls
  | quic
  | all
  deriving DecidableEq, Repr

def parseFakeDirMarker (value : String) : Option (FakeBlobKind × String) :=
  let (marker, dir) := (Text.splitOnce value ':').getD (value, defaultFakeBlobDir)
  match marker with
  | "fake_dir_http" => some (.http, dir)
  | "fake_dir_tls" => some (.tls, dir)
  | "fake_dir_quic" => some (.quic, dir)
  | "fake_dir_all" => some (.all, dir)
  | _ => none

def sanitizeBlobName (value : String) : String :=
  let out := value.toList.map fun c => if c.isAlphanum || c == '_' then c.toLower else '_'
  match out with
  | c :: _ => if c.isAlpha || c == '_' then String.ofList out else String.ofList ('_' :: out)
  | [] => "_"

/-- The value that stands for a file until `applyBlobFileOptions` resolves it. -/
def blobFileSentinelValue (kind : FakeBlobKind) (dir : String) (entry : DirEntry) : String :=
  let filename := entry.fileName.getD "blob"
  let kindName := match kind with
    | .http => "http"
    | .tls => "tls"
    | .quic => "quic"
    | .all => "fake"
  let name := sanitizeBlobName ("fake_" ++ kindName ++ "_" ++ filename)
  blobFileSentinel ++ name ++ "@" ++ entry.path dir

def fakeBlobKindMatches (entry : DirEntry) (kind : FakeBlobKind) : Bool :=
  let name := Text.toAsciiLowercase (entry.fileName.getD "")
  match kind with
  | .all => true
  | .http => Text.contains name "http"
  | .tls => Text.contains name "tls" || Text.contains name "ssl"
  | .quic => Text.contains name "quic"

/-- What lies outside the catalog: directories, and how a node of a plain list is deserialized. -/
structure Env where
  readDir : String → List DirEntry
  nodeFromValue : Value → Except String StrategyNode

def fakeBlobFiles (env : Env) (kind : FakeBlobKind) (dir : String) : List String :=
  let files := (env.readDir dir).filter fun entry => fakeBlobKindMatches entry kind
  sortBy compare (files.map fun entry => blobFileSentinelValue kind dir entry)

/-! ## Parameter values -/

/-- What every function of the renderer is given. -/
structure RenderInput where
  env : Env
  root : Value
  protocolKey : String
  useActionValues : Bool
  payloadAliases : Option PayloadAliases
  strategyValues : Option StrategyValuesConfig

def expandDynamicParamValues (env : Env) (name : String) (values : List String) :
    List String :=
  if name != "blob" then values
  else dedupPreserveOrder <| values.flatMap fun value =>
    match parseFakeDirMarker value with
    | some (kind, dir) => fakeBlobFiles env kind dir
    | none => [value]

/-- Append the values that are not there yet, one after the other. -/
def extendMissing (values extra : List String) : List String :=
  extra.foldl (fun values value => if values.contains value then values else values ++ [value])
    values

def maybeExtendPayloadValues (protocolKey paramName : String) (values : List String)
    (aliases : Option PayloadAliases) : List String :=
  if paramName != "blob" then values
  else match aliases with
    | none => values
    | some aliases => extendMissing values (aliases.forProtocolKey protocolKey)

def applyStrategyValues (protocolKey paramName : String) (values : List String)
    (aliases : Option PayloadAliases) (strategyValues : Option StrategyValuesConfig) :
    List String :=
  match strategyValues with
  | none => values
  | some cfg =>
    match cfg.valuesForParam protocolKey paramName with
    | none => values
    | some configValues =>
      -- only `blob` is extended with the payload aliases again
      if cfg.mode == "override" then
        dedupPreserveOrder (maybeExtendPayloadValues protocolKey paramName configValues aliases)
      else extendMissing values configValues

def paramValuesFromAction (root paramDef : Value) (useActionValues : Bool) : List String :=
  let values := valueSeq paramDef "values"
  let valuesRef := (paramDef.get "values_ref").bind Value.asStr
  let refItems := (valuesRef.bind (resolveRef root)).bind Value.asSequence
  let refValues := (refItems.map fun seq => seq.filterMap valueToString).getD []
  -- one value only: the default, else the first one listed, else the first one referred to
  let fallback :=
    match (paramDef.get "default").bind valueToString with
    | some default => [default]
    | none =>
      match values with
      | some seq => (seq.take 1).filterMap valueToString
      | none =>
        match valuesRef with
        | some _ => ((refItems.bind List.head?).bind valueToString).toList
        | none => valuesFromYaml paramDef
  if useActionValues then
    match values with
    | some seq => seq.filterMap valueToString
    | none => if refValues.isEmpty then fallback else refValues
  else fallback

/-- The steps that follow for the values of any parameter. -/
def finishParamValues (input : RenderInput) (name : String) (values : List String) :
    List String :=
  let values := expandDynamicParamValues input.env name values
  let values := maybeExtendPayloadValues input.protocolKey name values input.payloadAliases
  applyStrategyValues input.protocolKey name values input.payloadAliases input.strategyValues

/-- The named parameters of a mapping that have a value. -/
def namedParams (entries : List (Value × Value)) (values : String → Value → List String) :
    List (String × List String) :=
  entries.filterMap fun (key, value) => do
    let name ← key.asStr
    let vs := values name value
    if vs.isEmpty then none else some (name, vs)

/-- The parameters of the action, then those only the candidate names. -/
def mergedParamValues (input : RenderInput) (actionParams overrides : Option Value) :
    List (String × List String) :=
  let overrideMap := overrides.bind Value.asMapping
  let fromAction := namedParams ((actionParams.bind Value.asMapping).getD []) fun name def_ =>
    let values := match overrideMap.bind fun m => Value.lookup m name with
      | some value => valuesFromYaml value
      | none => paramValuesFromAction input.root def_ input.useActionValues
    finishParamValues input name values
  -- a parameter left without values has not been seen
  let seen := fromAction.map (·.1)
  let fromOverrides := namedParams (overrideMap.getD []) fun name value =>
    if seen.contains name then [] else finishParamValues input name (valuesFromYaml value)
  fromAction ++ fromOverrides

/-- The product of the values, with the last parameter varying fastest. -/
def paramCombinations (input : RenderInput) (actionParams overrides : Option Value) :
    List (List (String × String)) :=
  (mergedParamValues input actionParams overrides).foldl
    (fun out (key, values) =>
      out.flatMap fun existing => values.map fun value => existing ++ [(key, value)])
    [[]]

/-! ## Filling in the template -/

/-- The placeholder of `name` in a template. -/
def placeholder (name : String) : String := "\x7b\x7b" ++ name ++ "\x7d\x7d"

/-- What the suffix placeholders stand for. -/
def suffixes (combo : List (String × String)) : List (String × String) :=
  let value (name default : String) : String := (combo.lookup name).getD default
  let fooling := match value "fooling" "none" with
    | "badsum" => ":badsum"
    | "autottl" => ":autottl"
    | "badsum_autottl" => ":badsum:autottl"
    | "md5sig" => ":md5sig"
    | "md5sig_autottl" => ":md5sig:autottl"
    | "timestamp" => ":timestamp"
    | "badseq" => ":badseq"
    | "badack" => ":badack"
    | _ => ""
  let tlsMod := match value "tls_mod" "none" with
    | "random_sni" => ":tls_mod=random_sni"
    | "random_session_id" => ":tls_mod=random_session_id"
    | _ => ""
  let pattern := if value "pattern" "zero" == "random" then ":pattern=random" else ""
  let seqovlPattern :=
    if value "seqovl_pattern" "zero" == "random" then ":seqovl_pattern=random" else ""
  let rstack := if value "rstack" "false" == "true" then ":rstack" else ""
  let midhost := match value "midhost" "none" with
    | "none" => ""
    | v => ":midhost=" ++ v
  let disorderAfter := match value "disorder_after" "none" with
    | "none" => ""
    | v => ":disorder_after=" ++ v
  [("fooling_suffix", fooling), ("tls_mod_suffix", tlsMod), ("pattern_suffix", pattern),
    ("seqovl_pattern_suffix", seqovlPattern), ("rstack_suffix", rstack),
    ("midhost_suffix", midhost), ("disorder_after_suffix", disorderAfter), ("ipfrag_suffix", "")]

/-- Replace the placeholders one after the other. -/
def fill (rendered : String) (values : List (String × String)) : String :=
  values.foldl (fun rendered (name, value) => Text.replace rendered (placeholder name) value)
    rendered

def applySuffixes (rendered : String) (combo : List (String × String)) : String :=
  fill rendered (suffixes combo)

structure CatalogAction where
  id : String
  protocols : List String
  template : String
  params : Option Value
  deriving Inhabited

/-- A placeholder bracket is left. -/
def unresolved (s : String) : Bool := Text.contains s "\x7b\x7b" || Text.contains s "\x7d\x7d"

def renderLuaDesyncVariants (input : RenderInput) (action : CatalogAction)
    (overrides : Option Value) : List String :=
  (paramCombinations input action.params overrides).filterMap fun combo =>
    let rendered := applySuffixes (fill action.template combo) combo
    if unresolved rendered then none else some rendered

/-! ## Blob files -/

def parseBlobFileSentinel (value : String) : Option (String × String) := do
  let rest ← Text.stripPrefix value blobFileSentinel
  let (name, path) ← Text.splitOnce rest '@'
  if name.isEmpty || path.isEmpty then none else some (name, path)

/-- The file a part of a `--lua-desync` refers to. -/
def blobFileOfPart (part : String) : Option (String × String) := do
  let value ← Text.stripPrefix part "blob="
  parseBlobFileSentinel value

def replaceBlobFileSentinels (lua : String) : String × List String :=
  let parts := Text.split lua ':'
  let updated := parts.map fun part =>
    match blobFileOfPart part with
    | some (name, _) => "blob=" ++ name
    | none => part
  let blobArgs := parts.filterMap fun part =>
    (blobFileOfPart part).map fun (name, path) => "--blob=" ++ name ++ ":@" ++ path
  (Text.join ":" updated, blobArgs)

/-- Insert before the first `--lua-desync`, or at the end. -/
def insertBeforeLua (args extra : List String) : List String :=
  let (before, after) := args.span fun arg => !isOption "--lua-desync" arg
  before ++ extra ++ after

def applyBlobFileOptions (args : List String) : List String :=
  let updated := args.map fun arg =>
    match Text.stripPrefix arg "--lua-desync=" with
    | none => (arg, [])
    | some lua =>
      let (updatedLua, discovered) := replaceBlobFileSentinels lua
      if discovered.isEmpty then (arg, []) else ("--lua-desync=" ++ updatedLua, discovered)
  let args := updated.map (·.1)
  let blobArgs := updated.flatMap (·.2)
  if blobArgs.isEmpty then args else insertBeforeLua args (dedupPreserveOrder blobArgs)

/-! ## The payload filter -/

def explicitLuaPayload (lua : String) : Option String :=
  ((Text.split lua ':').findSome? fun part => Text.stripPrefix part "payload=").filter
    fun payload => !payload.isEmpty

def luaFunctionName (lua : String) : String := (Text.split lua ':').head?.getD lua

def luaFunctionUsesStandardPayload (function : String) : Bool :=
  ["drop", "fake", "rst", "multisplit", "multidisorder", "fakedsplit", "fakeddisorder", "tcpseg",
    "udplen"].contains function

def inferredLuaPayload (lua : String) (protocolKey : Option String) : Option String :=
  if !luaFunctionUsesStandardPayload (luaFunctionName lua) then none
  else match protocolKey with
    | some "http" => some "http_req"
    | some "tls12" | some "tls13" => some "tls_client_hello"
    | some "quic" => some "quic_initial"
    | _ => none

/-- The values of the `--lua-desync` options, in either spelling. -/
def luaDesyncValues : List String → List String
  | [] => []
  | [arg] => (Text.stripPrefix arg "--lua-desync=").toList
  | arg :: next :: args =>
    match Text.stripPrefix arg "--lua-desync=" with
    | some value => value :: luaDesyncValues (next :: args)
    | none =>
      -- the bare option takes the next argument, whatever that is
      if arg == "--lua-desync" then next :: luaDesyncValues args else luaDesyncValues (next :: args)

def luaDesyncPayloads (args : List String) (protocolKey : Option String) : List String :=
  (luaDesyncValues args).foldl
    (fun payloads lua =>
      match (explicitLuaPayload lua).or (inferredLuaPayload lua protocolKey) with
      | none => payloads
      | some payload =>
        extendMissing payloads ((Text.split payload ',').filter fun item => !item.isEmpty))
    []

def ensurePayloadOption (args : List String) (protocolKey : Option String) : List String :=
  if args.any (isOption "--payload") then args
  else
    let payloads := luaDesyncPayloads args protocolKey
    if payloads.isEmpty then args
    else insertBeforeLua args ["--payload=" ++ Text.join "," payloads]

/-- The argument list of a variant. -/
def finalizeArgs (protocolKey lua : String) : List String :=
  ensurePayloadOption (applyBlobFileOptions ["--lua-desync=" ++ lua]) (some protocolKey)

end ZapretChecker.Graph
