import Mathlib.Tactic.Common
import VedDb.Lib.Runs

/-!
# The configuration manager

`ConfigManager` of `config.rs`: one copy of the configuration in memory and one in a file, and the
calls that change them.  `serde_json` and `toml` are parameters.  The subscribers that are told of a
change are left out: no call waits for them.
-/

namespace VedDb

/-!
## Server settings

`ServerConfig` of `config.rs`, its default and `validate_config`.
-/

abbrev PathBuf := String

inductive WalFsyncPolicy where
  | always
  | everySecond
  | disabled
deriving DecidableEq

inductive CacheEvictionPolicy where
  | lru
  | lfu
  | random
deriving DecidableEq

inductive LogLevel where
  | error
  | warn
  | info
  | debug
  | trace
deriving DecidableEq

inductive LogFormat where
  | text
  | json
deriving DecidableEq

inductive NodeRole where
  | master
  | slave
deriving DecidableEq

structure ServerSettings where
  port : UInt16
  tlsEnabled : Bool
  tlsCertPath : Option PathBuf
  tlsKeyPath : Option PathBuf
  maxConnections : UInt64
  connectionTimeoutSecs : UInt64
deriving DecidableEq

structure StorageSettings where
  dataDir : PathBuf
  walFsyncPolicy : WalFsyncPolicy
  snapshotIntervalMinutes : UInt64
  walFileSizeMb : UInt64
  enableCompression : Bool
deriving DecidableEq

structure CacheSettings where
  maxMemoryMb : UInt64
  evictionPolicy : CacheEvictionPolicy
  ttlCheckIntervalMs : UInt64
  cacheWarmingEnabled : Bool
deriving DecidableEq

structure AuthSettings where
  authRequired : Bool
  jwtSecretPath : Option PathBuf
  sessionTimeoutHours : UInt64
  passwordHashCost : UInt32
deriving DecidableEq

structure LoggingSettings where
  level : LogLevel
  format : LogFormat
  filePath : Option PathBuf
  slowQueryThresholdMs : UInt64
deriving DecidableEq

structure ReplicationSettings where
  enabled : Bool
  role : NodeRole
  masterAddress : Option String
  port : UInt16
deriving DecidableEq

structure ServerConfig where
  server : ServerSettings
  storage : StorageSettings
  cache : CacheSettings
  auth : AuthSettings
  logging : LoggingSettings
  replication : ReplicationSettings
deriving DecidableEq

namespace ServerConfig

def default : ServerConfig where
  server :=
    { port := 50051
      tlsEnabled := true
      tlsCertPath := none
      tlsKeyPath := none
      maxConnections := 10000
      connectionTimeoutSecs := 300 }
  storage :=
    { dataDir := "./data"
      walFsyncPolicy := .always
      snapshotIntervalMinutes := 5
      walFileSizeMb := 100
      enableCompression := true }
  cache :=
    { maxMemoryMb := 1024
      evictionPolicy := .lru
      ttlCheckIntervalMs := 100
      cacheWarmingEnabled := true }
  auth :=
    { authRequired := true
      jwtSecretPath := none
      sessionTimeoutHours := 24
      passwordHashCost := 12 }
  logging :=
    { level := .info
      format := .text
      filePath := none
      slowQueryThresholdMs := 100 }
  replication :=
    { enabled := false
      role := .master
      masterAddress := none
      port := 50052 }

/-- `validate_config`. -/
def validate (config : ServerConfig) : Except String Unit :=
  if config.server.port = 0 then .error "Server port cannot be 0"
  else if config.server.maxConnections = 0 then .error "Max connections cannot be 0"
  else if config.server.tlsEnabled ∧ config.server.tlsCertPath = none then
    .error "TLS certificate path required when TLS is enabled"
  else if config.server.tlsEnabled ∧ config.server.tlsKeyPath = none then
    .error "TLS key path required when TLS is enabled"
  else if config.storage.snapshotIntervalMinutes = 0 then
    .error "Snapshot interval cannot be 0"
  else if config.storage.walFileSizeMb = 0 then .error "WAL file size cannot be 0"
  else if config.cache.maxMemoryMb = 0 then .error "Cache max memory cannot be 0"
  else if config.auth.sessionTimeoutHours = 0 then .error "Session timeout cannot be 0"
  else if config.auth.passwordHashCost < 4 ∨ 31 < config.auth.passwordHashCost then
    .error "Password hash cost must be between 4 and 31"
  else if config.replication.enabled ∧ config.replication.role = .slave ∧
      config.replication.masterAddress = none then
    .error "Master address required for slave nodes"
  else .ok ()

-- TLS is on by default, and the paths that it needs have no default.
theorem validate_default :
    default.validate = .error "TLS certificate path required when TLS is enabled" := by
  decide

end ServerConfig

/-! ## The manager -/

/-- `toml::to_string_pretty`, `toml::from_str` and `serde_json::to_string` on a configuration. -/
structure ConfigCodec where
  toToml : ServerConfig → Option String
  fromToml : String → Option ServerConfig
  toJson : ServerConfig → Except String String

/-- What is written as TOML is read back. -/
def ConfigCodec.RoundTrips (codec : ConfigCodec) : Prop :=
  ∀ {config text}, codec.toToml config = some text → codec.fromToml text = some config

/-- Where saving the file stops, before anything is written to it. -/
inductive SaveFault where
  | createDirectory
  | write

/-- What `update_config` is given: it changes the configuration in place, and says whether a restart
is required. -/
abbrev Updater := ServerConfig → ServerConfig × Except String Bool

/-- A manager, with what its file holds. -/
structure ConfigManager where
  config : ServerConfig
  configPath : PathBuf
  file : Option String
deriving DecidableEq

namespace ConfigManager

variable (codec : ConfigCodec)

/-! ## The calls -/

def loadConfig (path : PathBuf) : Option String → Except String ServerConfig
  | none => .error s!"Failed to read config file: {path}"
  | some content =>
    match codec.fromToml content with
    | none => .error s!"Failed to parse config file: {path}"
    | some config =>
      match config.validate with
      | .error error => .error error
      | .ok () => .ok config

/-- `save_config`: what the file holds afterwards. -/
def saveConfig (path : PathBuf) (config : ServerConfig) (fault : Option SaveFault) :
    Except String String :=
  match fault with
  | some .createDirectory => .error "Failed to create config directory"
  | _ =>
    match codec.toToml config with
    | none => .error "Failed to serialize configuration"
    | some content =>
      match fault with
      | none => .ok content
      | some _ => .error s!"Failed to write config file: {path}"

def new (path : PathBuf) (file : Option String) (fault : Option SaveFault) :
    Except String ConfigManager :=
  match file with
  | some _ =>
    match loadConfig codec path file with
    | .error error => .error error
    | .ok config => .ok { config := config, configPath := path, file := file }
  | none =>
    match saveConfig codec path .default fault with
    | .error error => .error error
    | .ok content =>
      .ok { config := .default, configPath := path, file := some content }

/-- `update_config`.  The updater works on the configuration in memory, also where it fails. -/
def updateConfig (manager : ConfigManager) (updater : Updater) (fault : Option SaveFault) :
    Except String Bool × ConfigManager :=
  match codec.toJson manager.config with
  | .error error => (.error error, manager)
  | .ok _ =>
    match updater manager.config with
    | (config, .error error) => (.error error, { manager with config := config })
    | (config, .ok restartRequired) =>
      match codec.toJson config with
      | .error error => (.error error, { manager with config := config })
      | .ok _ =>
        match saveConfig codec manager.configPath config fault with
        | .error error => (.error error, { manager with config := config })
        | .ok content =>
          (.ok restartRequired, { manager with config := config, file := some content })

def reloadConfig (manager : ConfigManager) : Except String Unit × ConfigManager :=
  match loadConfig codec manager.configPath manager.file with
  | .error error => (.error error, manager)
  | .ok config =>
    match codec.toJson manager.config with
    | .error error => (.error error, manager)
    | .ok _ =>
      match codec.toJson config with
      | .error error => (.error error, manager)
      | .ok _ => (.ok (), { manager with config := config })

/-- A call of the manager. -/
inductive Call where
  | updateConfig (updater : Updater) (fault : Option SaveFault)
  | reloadConfig

def step (manager : ConfigManager) : Call → ConfigManager
  | .updateConfig updater fault => (manager.updateConfig codec updater fault).2
  | .reloadConfig => (manager.reloadConfig codec).2

/-! ## The file and the memory -/

/-- The file can be loaded and holds the configuration in memory. -/
def Loadable (manager : ConfigManager) : Prop :=
  loadConfig codec manager.configPath manager.file = .ok manager.config

/-- After the call the file can be loaded and holds the configuration in memory; an update that
fails has changed nothing. -/
def Keeps (manager : ConfigManager) (call : Call) : Prop :=
  (manager.step codec call).Loadable codec ∧
    match call with
    | .reloadConfig => True
    | .updateConfig updater fault =>
      (∃ error, (manager.updateConfig codec updater fault).1 = .error error) →
        (manager.updateConfig codec updater fault).2 = manager

/-- The update writes the file. -/
def saves (manager : ConfigManager) (updater : Updater) (fault : Option SaveFault) : Bool :=
  match updater manager.config with
  | (_, .error _) => false
  | (config, .ok _) =>
    (codec.toJson config).isOk && (saveConfig codec manager.configPath config fault).isOk

/-- The updater makes a valid configuration where it is saved, and changes nothing where it is
not. -/
def Careful (manager : ConfigManager) : Call → Prop
  | .reloadConfig => True
  | .updateConfig updater fault =>
    (codec.toJson manager.config).isOk = true →
      (manager.saves codec updater fault = true → (updater manager.config).1.validate = .ok ()) ∧
      (manager.saves codec updater fault = false → (updater manager.config).1 = manager.config)

instance (manager : ConfigManager) (call : Call) : Decidable (manager.Careful codec call) :=
  match call with
  | .reloadConfig => .isTrue trivial
  | .updateConfig updater fault => inferInstanceAs (Decidable
      ((codec.toJson manager.config).isOk = true →
        (manager.saves codec updater fault = true → (updater manager.config).1.validate = .ok ()) ∧
        (manager.saves codec updater fault = false →
          (updater manager.config).1 = manager.config)))

variable {codec} {manager : ConfigManager} {config : ServerConfig} {path : PathBuf}

theorem saveConfig_eq_ok {fault : Option SaveFault} {content : String}
    (h : saveConfig codec path config fault = .ok content) :
    fault = none ∧ codec.toToml config = some content := by
  cases fault with
  | none =>
    refine ⟨rfl, ?_⟩
    dsimp only [saveConfig] at h
    cases htoml : codec.toToml config with
    | none =>
      rw [htoml] at h
      cases h
    | some text =>
      rw [htoml] at h
      cases h
      rfl
  | some fault =>
    cases fault with
    | createDirectory => cases h
    | write =>
      dsimp only [saveConfig] at h
      cases htoml : codec.toToml config with
      | none | some text =>
        rw [htoml] at h
        cases h

theorem loadConfig_of_saved (hround : codec.RoundTrips) {fault : Option SaveFault}
    {content : String} (hsave : saveConfig codec path config fault = .ok content) :
    loadConfig codec path (some content) = .ok config ↔ config.validate = .ok () := by
  rw [loadConfig, hround (saveConfig_eq_ok hsave).2]
  dsimp only
  cases config.validate with
  | error error => exact iff_of_false nofun nofun
  | ok _ => exact iff_of_true rfl rfl

/-! ## New managers -/

theorem new_loadable_iff (hround : codec.RoundTrips) {file : Option String}
    {fault : Option SaveFault} (h : new codec path file fault = .ok manager) :
    manager.Loadable codec ↔ file ≠ none := by
  cases file with
  | some content =>
    refine iff_of_true ?_ nofun
    dsimp only [new] at h
    cases hload : loadConfig codec path (some content) with
    | error error =>
      rw [hload] at h
      cases h
    | ok config =>
      rw [hload] at h
      cases h
      exact hload
  | none =>
    refine iff_of_false ?_ (fun hne => hne rfl)
    dsimp only [new] at h
    cases hsave : saveConfig codec path .default fault with
    | error error =>
      rw [hsave] at h
      cases h
    | ok content =>
      rw [hsave] at h
      cases h
      intro hloadable
      have hvalid := (loadConfig_of_saved hround hsave).mp hloadable
      rw [ServerConfig.validate_default] at hvalid
      cases hvalid

/-! ## Steps -/

-- A call that fails after the updater has run keeps what the updater made.
theorem keeps_failed_iff (h : manager.Loadable codec) (error : String) :
    ({ manager with config := config }.Loadable codec ∧
      ((∃ other, (Except.error error : Except String Bool) = .error other) →
        { manager with config := config } = manager)) ↔
      (false = true → config.validate = .ok ()) ∧ (false = false → config = manager.config) := by
  constructor
  · intro ⟨_, hsame⟩
    exact ⟨nofun, fun _ => congrArg ConfigManager.config (hsame ⟨error, rfl⟩)⟩
  · intro ⟨_, hsame⟩
    rw [hsame rfl]
    exact ⟨h, fun _ => rfl⟩

theorem reloadConfig_snd (h : manager.Loadable codec) :
    (manager.reloadConfig codec).2 = manager := by
  rw [reloadConfig, h]
  dsimp only
  cases codec.toJson manager.config with
  | error error | ok json => rfl

theorem keeps_iff (hround : codec.RoundTrips) (h : manager.Loadable codec) (call : Call) :
    manager.Keeps codec call ↔ manager.Careful codec call := by
  cases call with
  | reloadConfig =>
    refine iff_of_true ⟨?_, trivial⟩ trivial
    rw [step, reloadConfig_snd h]
    exact h
  | updateConfig updater fault =>
    rw [Keeps, Careful, step, updateConfig, saves]
    cases codec.toJson manager.config with
    | error error => exact iff_of_true ⟨h, fun _ => rfl⟩ nofun
    | ok json =>
      have ⟨config, result⟩ := updater manager.config
      refine Iff.trans ?_ ⟨fun hcareful _ => hcareful, fun hcareful => hcareful rfl⟩
      dsimp only
      cases result with
      | error error => exact keeps_failed_iff h error
      | ok restartRequired =>
        dsimp only
        cases codec.toJson config with
        | error error => exact keeps_failed_iff h error
        | ok json' =>
          dsimp only
          cases hsave : saveConfig codec manager.configPath config fault with
          | error error => exact keeps_failed_iff h error
          | ok content =>
            rw [Loadable, loadConfig_of_saved hround hsave]
            constructor
            · intro ⟨hvalid, _⟩
              exact ⟨fun _ => hvalid, nofun⟩
            · intro ⟨hvalid, _⟩
              exact ⟨hvalid rfl, nofun⟩

/-! ## Runs -/

/-- The file can be loaded and holds what is in memory, after every call, exactly when the manager
found a file and every update that is saved makes a valid configuration, every other one none. -/
theorem loadable_along_iff (hround : codec.RoundTrips) {file : Option String}
    {fault : Option SaveFault} (hnew : new codec path file fault = .ok manager)
    (calls : List Call) :
    (manager.Loadable codec ∧ MeetsAlong (step codec) (Keeps codec) manager calls) ↔
      file ≠ none ∧ MeetsAlong (step codec) (Careful codec) manager calls := by
  rw [new_loadable_iff hround hnew]
  apply and_congr_right
  intro hfile
  apply meetsAlong_iff (I := Loadable codec)
  · intro s op _ hs hcareful
    exact ((keeps_iff hround hs op).mpr hcareful).1
  · intro s op _ hs
    exact keeps_iff hround hs op
  · exact (new_loadable_iff hround hnew).mpr hfile

/-! ## A file without TLS -/

def plainConfig (level : LogLevel) : ServerConfig :=
  { ServerConfig.default with
    server := { ServerConfig.default.server with tlsEnabled := false }
    logging := { ServerConfig.default.logging with level := level } }

/-- The TOML of a configuration whose paths are those of the default. -/
def tomlText (tlsEnabled level : String) : String :=
  "[server]\nport = 50051\ntls_enabled = " ++ tlsEnabled ++
  "\nmax_connections = 10000\nconnection_timeout_secs = 300\n\n" ++
  "[storage]\ndata_dir = \"./data\"\nwal_fsync_policy = \"Always\"\n" ++
  "snapshot_interval_minutes = 5\nwal_file_size_mb = 100\nenable_compression = true\n\n" ++
  "[cache]\nmax_memory_mb = 1024\neviction_policy = \"Lru\"\nttl_check_interval_ms = 100\n" ++
  "cache_warming_enabled = true\n\n" ++
  "[auth]\nauth_required = true\nsession_timeout_hours = 24\npassword_hash_cost = 12\n\n" ++
  "[logging]\nlevel = \"" ++ level ++
  "\"\nformat = \"Text\"\nslow_query_threshold_ms = 100\n\n" ++
  "[replication]\nenabled = false\nrole = \"Master\"\nport = 50052\n"

/-- The JSON of a configuration whose paths are those of the default. -/
def jsonText (tlsEnabled level : String) : String :=
  "\x7b\"server\":\x7b\"port\":50051,\"tls_enabled\":" ++ tlsEnabled ++
  ",\"tls_cert_path\":null,\"tls_key_path\":null,\"max_connections\":10000," ++
  "\"connection_timeout_secs\":300\x7d,\"storage\":\x7b\"data_dir\":\"./data\"," ++
  "\"wal_fsync_policy\":\"Always\",\"snapshot_interval_minutes\":5,\"wal_file_size_mb\":100," ++
  "\"enable_compression\":true\x7d,\"cache\":\x7b\"max_memory_mb\":1024," ++
  "\"eviction_policy\":\"Lru\",\"ttl_check_interval_ms\":100," ++
  "\"cache_warming_enabled\":true\x7d,\"auth\":\x7b\"auth_required\":true," ++
  "\"jwt_secret_path\":null,\"session_timeout_hours\":24,\"password_hash_cost\":12\x7d," ++
  "\"logging\":\x7b\"level\":\"" ++ level ++ "\",\"format\":\"Text\",\"file_path\":null," ++
  "\"slow_query_threshold_ms\":100\x7d,\"replication\":\x7b\"enabled\":false," ++
  "\"role\":\"Master\",\"master_address\":null,\"port\":50052\x7d\x7d"

/-- The codec on three configurations. -/
def smallCodec : ConfigCodec where
  toToml config :=
    if config = .default then some (tomlText "true" "Info")
    else if config = plainConfig .info then some (tomlText "false" "Info")
    else if config = plainConfig .debug then some (tomlText "false" "Debug")
    else none
  fromToml text :=
    if text = tomlText "true" "Info" then some .default
    else if text = tomlText "false" "Info" then some (plainConfig .info)
    else if text = tomlText "false" "Debug" then some (plainConfig .debug)
    else none
  toJson config :=
    if config = .default then .ok (jsonText "true" "Info")
    else if config = plainConfig .info then .ok (jsonText "false" "Info")
    else if config = plainConfig .debug then .ok (jsonText "false" "Debug")
    else .error "path contains invalid UTF-8 characters"

theorem smallCodec_roundTrips : smallCodec.RoundTrips := by
  intro config text h
  dsimp only [smallCodec] at h ⊢
  split at h
  next hconfig =>
    rw [← Option.some.inj h, hconfig, if_pos rfl]
  next =>
    split at h
    next hconfig =>
      rw [← Option.some.inj h, hconfig, if_neg (by decide +kernel), if_pos rfl]
    next =>
      split at h
      next hconfig =>
        rw [← Option.some.inj h, hconfig, if_neg (by decide +kernel), if_neg (by decide +kernel),
          if_pos rfl]
      next => cases h

/-- A manager that has read a file without TLS. -/
def plainManager : ConfigManager where
  config := plainConfig .info
  configPath := "veddb.toml"
  file := some (tomlText "false" "Info")

/-- An updater that works, one that gives up at once, and a reload. -/
def plainCalls : List Call :=
  [.updateConfig (fun config =>
      ({ config with logging := { config.logging with level := .debug } }, .ok false)) none,
    .updateConfig (fun config => (config, .error "no such section")) none,
    .reloadConfig]

theorem loadable_along_iff_plain :
    new smallCodec "veddb.toml" (some (tomlText "false" "Info")) none = .ok plainManager ∧
      ((plainManager.Loadable smallCodec ∧
          MeetsAlong (step smallCodec) (Keeps smallCodec) plainManager plainCalls) ↔
        some (tomlText "false" "Info") ≠ none ∧
          MeetsAlong (step smallCodec) (Careful smallCodec) plainManager plainCalls) ∧
      MeetsAlong (step smallCodec) (Careful smallCodec) plainManager plainCalls := by
  have hnew : new smallCodec "veddb.toml" (some (tomlText "false" "Info")) none =
      .ok plainManager := by
    decide +kernel
  exact ⟨hnew, loadable_along_iff smallCodec_roundTrips hnew plainCalls, by decide +kernel⟩

/-- Without a file, the manager saves a default that it will not load. -/
theorem new_without_file :
    ∃ manager, new smallCodec "veddb.toml" none none = .ok manager ∧
      ¬manager.Loadable smallCodec := by
  have hnew : new smallCodec "veddb.toml" none none = .ok
      { config := .default, configPath := "veddb.toml",
        file := some (tomlText "true" "Info") } := by
    decide +kernel
  exact ⟨_, hnew, fun h => (new_loadable_iff smallCodec_roundTrips hnew).mp h rfl⟩

end ConfigManager

end VedDb
