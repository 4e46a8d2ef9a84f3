import VedDb.Encryption.HybridStorage
import VedDb.Encryption.KeyExport
import VedDb.Protocol.Documents

/-!
# The handlers of the server

`ConnectionManager` of `protocol/connection.rs` and what `process_command` does for each opcode.
Handlers that change nothing return their answer alone.
-/

namespace VedDb

open LittleEndian (Bytes)
open Durable (Outcome)

/-! ## The server -/

/-- `SlaveConnectionHandle`; it is connected until its task has finished. -/
structure SlaveConnection where
  connectionId : String
  peerAddr : String
  connected : Bool
deriving DecidableEq

/-- `ConnectionManager` and what it manages.  The slaves are those of a master; a node that is none
has no list of them. -/
structure ConnectionManager (C : Type) where
  access : Access
  storage : HybridStorageEngine C
  backups : Option BackupManager
  replication : Option (Option (List SlaveConnection))
  encryption : Option (EncryptionEngine PersistentLayer)

/-- What the server measures of itself. -/
structure ServerMetrics where
  uptimeSeconds : Int64
  memoryUsageBytes : Int64
  opsPerSecond : F64
  cacheHitRate : F64
  totalOps : Int64
deriving DecidableEq

/-- What the server draws from outside while it serves one command. -/
structure ServerMoment extends AuthMoment where
  documentId : DocumentId
  exportNonce : Bytes
  metrics : ServerMetrics

/-- What the server rests on. -/
structure ServerEnv (C : Type) where
  auth : Authenticator
  wire : Wire
  storage : StorageEnv C
  regex : RegexCrate
  backup : BackupEnv
  walCodec : WalCodec
  aead : Aead
  rng : Rng
  hashMasterKey : String → String
  resolve : String → String
  keyExport : KeyExportEnv
  toRfc3339 : DateTime → String
  debugTime : DateTime → String
  /-- `parse::<SocketAddr>`: the address and the port, as they are printed. -/
  parseSocketAddr : String → Except String (String × String)

/-- The environment of the encryption engine, whose storage is the one of the server. -/
def ServerEnv.engine {C : Type} (env : ServerEnv C) (now : DateTime) :
    EngineEnv PersistentLayer where
  aead := env.aead
  rng := env.rng
  store := HybridStorageEngine.storage env.storage.json now
  hashMasterKey := env.hashMasterKey
  resolve := env.resolve

abbrev Served (C : Type) := Outcome ConnectionError Response × ConnectionManager C

namespace ConnectionManager

variable {C : Type} (env : ServerEnv C) (moment : ServerMoment) (manager : ConnectionManager C)
variable (command : Command)

/-! ## Answers -/

/-- A payload that must be a request, with the context of the error when it is none. -/
def decoded {α : Type} (context : String) (result : Except String α) :
    Except ConnectionError α :=
  match result with
  | .error error => .error (.protocolError (context ++ error))
  | .ok request => .ok request

/-- A feature that the server may have been started without. -/
def enabled {α : Type} (name : String) (feature : Option α) : Except ConnectionError α :=
  match feature with
  | none => .error (.protocolError (name ++ " feature not enabled"))
  | some feature => .ok feature

/-- `Response::ok` with an answer as its payload. -/
def respond (answer : Answer) : Outcome ConnectionError Response :=
  match env.wire.answer answer with
  | .error error => .error (.protocolError error)
  | .ok payload => .ok (Response.ok command.header.seq payload)

def succeed (data : Option Value) : Outcome ConnectionError Response :=
  respond env command (.operation (.ofData data))

/-- An answer that reports a failure in its payload. -/
def report (message : String) : Outcome ConnectionError Response :=
  respond env command (.operation (.ofError message))

/-- An answer with the status of an error and a text. -/
def failure (message : String) : Outcome ConnectionError Response :=
  .ok (Response.new .error command.header.seq (utf8 message))

/-- The answer of a handler, when nothing went wrong before it. -/
def answering {α : Type} (result : Except ConnectionError α)
    (answer : α → Outcome ConnectionError Response) : Outcome ConnectionError Response :=
  match result with
  | .error error => .error error
  | .ok value => answer value

/-- A handler that goes on with a value, when nothing went wrong before it. -/
def serving {α : Type} (result : Except ConnectionError α) (serve : α → Served C) : Served C :=
  match result with
  | .error error => (.error error, manager)
  | .ok value => serve value

/-- The answer to an operation on the storage, and the storage that it leaves. -/
def stored {α : Type} (result : Except ConnectionError α × HybridStorageEngine C)
    (answer : α → Outcome ConnectionError Response) : Served C :=
  (answering result.1 answer, { manager with storage := result.2 })

def ofStorage {α : Type} (result : Except StorageError α) : Except ConnectionError α :=
  match result with
  | .error error => .error (.protocolError error.message)
  | .ok value => .ok value

/-! ## Collections and indexes -/

def listCollections : Outcome ConnectionError Response :=
  succeed env command
    (some (.array (manager.storage.persistentLayer.listCollections.map Value.string)))

def createCollection : Served C :=
  serving manager (decoded "" (env.wire.createCollection command.value)) fun request =>
    let result := manager.storage.createCollection env.storage.catalogue request.name
    stored manager (ofStorage result.1, result.2) fun _ => succeed env command none

def dropCollection : Served C :=
  serving manager (decoded "" (env.wire.dropCollection command.value)) fun request =>
    let result :=
      manager.storage.dropCollection env.storage.cache env.storage.catalogue request.name
    stored manager (ofStorage result.1, result.2) fun _ => succeed env command none

def listIndexes : Outcome ConnectionError Response :=
  answering (decoded "" (env.wire.listIndexes command.value)) fun request =>
    answering
      (ofStorage
        (manager.storage.persistentLayer.getIndexesList env.storage.catalogue request.collection))
      fun indexes => succeed env command (some (.array (indexes.map JsonValue.toValue)))

def createIndex : Served C :=
  serving manager (decoded "" (env.wire.createIndex command.value)) fun request =>
    let result :=
      manager.storage.createIndex env.storage.catalogue request.collection request.name
        request.fields request.unique
    stored manager (ofStorage result.1, result.2) fun _ => succeed env command none

def dropIndex : Served C :=
  serving manager (decoded "" (env.wire.dropIndex command.value)) fun request =>
    let result :=
      manager.storage.dropIndex env.storage.catalogue request.collection request.name
    stored manager (ofStorage result.1, result.2) fun _ => succeed env command none

/-! ## Documents -/

def query : Outcome ConnectionError Response :=
  answering (decoded "" (env.wire.query command.value)) fun request =>
    answering (DocumentCommand.query env.storage env.regex moment.now manager.storage request)
      fun documents => succeed env command (some documents)

def insertDoc : Served C :=
  serving manager (decoded "" (env.wire.insertDoc moment.now command.value)) fun request =>
    stored manager (DocumentCommand.insert env.storage moment.now manager.storage request)
      fun _ => succeed env command none

def updateDoc : Served C :=
  serving manager (decoded "" (env.wire.updateDoc command.value)) fun request =>
    stored manager
      (DocumentCommand.update env.storage env.regex moment.now manager.storage request)
      fun count => respond env command (.operation (.ofCount count))

def deleteDoc : Served C :=
  serving manager (decoded "" (env.wire.deleteDoc command.value)) fun request =>
    stored manager
      (DocumentCommand.delete env.storage env.regex moment.now manager.storage request)
      fun count => respond env command (.operation (.ofCount count))

def aggregate : Outcome ConnectionError Response :=
  answering (decoded "Invalid aggregation request: " (env.wire.aggregate command.value))
    fun request =>
      match manager.storage.scanCollection env.storage.json moment.now request.collection with
      | .error error =>
        .error (.protocolError ("Failed to scan collection: " ++ error.message))
      | .ok documents =>
        match request.execute documents with
        | .error error => report env command ("Aggregation failed: " ++ error)
        | .ok results =>
          succeed env command
            (some (.array (results.map fun doc => .object doc.fields.toList)))

/-! ## The server itself -/

/-- `OpCode::Info`, as the sorted entries of its map. -/
def info : Outcome ConnectionError Response :=
  let metrics := moment.metrics
  succeed env command
    (some
      (.object
        [("cache_hit_rate", .float64 metrics.cacheHitRate),
          ("connection_count", .int32 (Int32.ofNat manager.access.connections.size)),
          ("memory_usage_bytes", .int64 metrics.memoryUsageBytes),
          ("ops_per_second", .float64 metrics.opsPerSecond),
          ("total_collections",
            .int64 (Int64.ofNat manager.storage.persistentLayer.listCollections.length)),
          ("total_ops", .int64 metrics.totalOps),
          ("uptime_seconds", .int64 metrics.uptimeSeconds),
          ("version", .string "0.2.0")]))

/-! ## Users -/

/-- The description of an account in the answer of `ListUsers`. -/
def userValue (user : User) : Value :=
  .object
    [("created_at", .string (env.toRfc3339 user.createdAt)),
      ("enabled", .bool user.enabled),
      ("last_login", match user.lastLogin with
        | some time => .string (env.toRfc3339 time)
        | none => .null),
      ("role", .string user.role.asStr),
      ("username", .string user.username)]

def listUsers : Outcome ConnectionError Response :=
  succeed env command (some (.array (manager.access.users.listUsers.map (userValue env))))

/-- The answer to an operation on the accounts, and the accounts that it leaves. -/
def onUsers (context : String) (result : Except String UserManager) : Served C :=
  match result with
  | .error error => (report env command (context ++ error), manager)
  | .ok users =>
    (succeed env command none,
      { manager with access := { manager.access with users := users } })

def createUser : Served C :=
  serving manager (decoded "" (env.wire.createUser command.value)) fun request =>
    serving manager
      (decoded "Failed to hash password: " (env.auth.bcrypt.hash moment.salt request.password))
      fun hash =>
        onUsers env manager command "Failed to create user: "
          (manager.access.users.createUser
            (UserManager.requestedUser moment.now request.username hash request.role))

def deleteUser : Served C :=
  serving manager (decoded "" (env.wire.deleteUser command.value)) fun request =>
    onUsers env manager command "Failed to delete user: "
      (manager.access.users.deleteUser request.username)

def updateUserRole : Served C :=
  serving manager (decoded "" (env.wire.updateUserRole command.value)) fun request =>
    onUsers env manager command ""
      (manager.access.users.updateUserRole request.username request.role)

/-! ## Backups -/

def createBackup : Served C :=
  serving manager (enabled "Backup" manager.backups) fun backups =>
    serving manager (decoded "Invalid request: " (env.wire.createBackup command.value))
      fun request =>
        let (result, backups) :=
          backups.createBackup env.backup moment.now manager.storage.persistentLayer
            (request.walSequence.getD 0)
        let manager := { manager with backups := some backups }
        match result with
        | .ok info => (respond env command (.backupInfo info), manager)
        | .error error => (failure command ("Backup failed: " ++ error), manager)
        | .crashed => (.crashed, manager)

def listBackups : Outcome ConnectionError Response :=
  answering (enabled "Backup" manager.backups) fun backups =>
    respond env command (.backupInfos (backups.listBackups env.backup))

def fileAt (backups : BackupManager) (path : String) : Option Bytes :=
  backups.files[path]?.map StoredFile.content

/-- The answer to a restoration, and the storage that it leaves. -/
def restored (context path : String)
    (result : Except BackupError (Option Value) × PersistentLayer) : Served C :=
  (match result.1 with
    | .error error => failure command (context ++ error.message env.debugTime path)
    | .ok data => succeed env command data,
    { manager with storage := { manager.storage with persistentLayer := result.2 } })

def restoreBackup : Served C :=
  serving manager (enabled "Backup" manager.backups) fun backups =>
    serving manager (decoded "Invalid request: " (env.wire.restoreBackup command.value))
      fun request =>
        let (result, layer) :=
          VedDb.restoreBackup env.backup.snapshot moment.now (fileAt backups request.backupId)
            manager.storage.persistentLayer
        restored env manager command "Restore failed: " request.backupId
          (result.map fun walSequence => some (.int64 (Int64.ofNat walSequence)), layer)

def deleteBackup : Served C :=
  serving manager (enabled "Backup" manager.backups) fun backups =>
    serving manager
      (decoded "Invalid delete backup request: " (env.wire.deleteBackup command.value))
      fun request =>
        match backups.deleteBackup request.backupId with
        | .error error => (failure command ("Delete backup failed: " ++ error), manager)
        | .ok backups => (succeed env command none, { manager with backups := some backups })

def pointInTimeRecover : Served C :=
  serving manager (enabled "Backup" manager.backups) fun backups =>
    serving manager (decoded "Invalid request: " (env.wire.pointInTimeRecover command.value))
      fun request =>
        let (result, layer) :=
          pointInTimeRecovery env.walCodec env.backup.snapshot moment.now
            (fileAt backups request.backupId) request.targetTime
            (Files.walDir backups.files request.walDirectory) manager.storage.persistentLayer
        restored env manager command "PITR failed: " request.backupId
          (result.map fun _ => none, layer)

/-! ## Replication -/

/-- `OpCode::GetReplicationStatus`: the answer is the same on every node. -/
def getReplicationStatus : Outcome ConnectionError Response :=
  answering (enabled "Replication" manager.replication) fun _ =>
    respond env command
      (.replicationStatus { role := "master", slaves := [], lagBytes := 0, healthy := true })

/-- `OpCode::AddSlave`: the address is checked and named, and nothing is kept of it. -/
def addSlave : Outcome ConnectionError Response :=
  answering (enabled "Replication" manager.replication) fun _ =>
    answering (decoded "Invalid request: " (env.wire.addSlave command.value)) fun request =>
      answering
        (decoded "Failed to add slave: Connection error: Invalid slave address: "
          (env.parseSocketAddr request.slaveAddress))
        fun (ip, port) => respond env command (.slaveAdded ("slave_" ++ ip ++ "_" ++ port))

def removeSlave : Served C :=
  serving manager (enabled "Replication" manager.replication) fun slaves =>
    serving manager (decoded "Invalid request: " (env.wire.removeSlave command.value))
      fun request =>
        match slaves with
        | none => (.error (.protocolError "Failed to remove slave: Not a master node"), manager)
        | some slaves =>
          match slaves.findIdx? fun slave => slave.connectionId = request.slaveId with
          | none =>
            (.error
              (.protocolError
                ("Failed to remove slave: Connection error: Slave not found: " ++
                  request.slaveId)),
              manager)
          | some pos =>
            (succeed env command none,
              { manager with replication := some (some (slaves.eraseIdx pos)) })

/-- The description of a slave. -/
def SlaveInfo.ofConnection (slave : SlaveConnection) : SlaveInfo :=
  { slaveId := slave.connectionId
    address := slave.peerAddr
    lastAckSequence := 0
    connected := slave.connected
    connectedAt := none }

def listSlaves : Outcome ConnectionError Response :=
  answering (enabled "Replication" manager.replication) fun slaves =>
    respond env command (.slaves ((slaves.getD []).map SlaveInfo.ofConnection))

/-- `OpCode::ForceSync`: a heartbeat to every slave whose task still takes messages. -/
def forceSync : Outcome ConnectionError Response :=
  answering (enabled "Replication" manager.replication) fun slaves =>
    match slaves with
    | none => .error (.protocolError "Failed to force sync: Not a master node")
    | some slaves => respond env command (.synced (slaves.countP SlaveConnection.connected))

/-! ## Keys -/

def createKey : Served C :=
  serving manager (enabled "Encryption" manager.encryption) fun engine =>
    serving manager (decoded "Invalid request: " (env.wire.key command.value)) fun request =>
      let call : EngineM PersistentLayer Unit :=
        EncryptionEngine.onWorld (KeyManager.createKey env.rng moment.now request.keyId)
      let manager := { manager with encryption := some (call.final none engine) }
      match call.outcome none engine with
      | .ok _ => (succeed env command none, manager)
      | .error error => (failure command ("Create key failed: " ++ error.keyMessage), manager)
      | .crashed => (.crashed, manager)

def listKeys : Outcome ConnectionError Response :=
  answering (enabled "Encryption" manager.encryption) fun engine =>
    respond env command
      (.keys (engine.world.keyManager.listKeys.map KeyMetadataResponse.ofKey))

def exportKey : Outcome ConnectionError Response :=
  answering (enabled "Encryption" manager.encryption) fun engine =>
    answering (decoded "Invalid request: " (env.wire.key command.value)) fun request =>
      match engine.world.keyManager.exportKey env.keyExport env.aead moment.exportNonce
          engine.config.masterKey request.keyId with
      | .error error => failure command ("Export key failed: " ++ error)
      | .ok encryptedData => respond env command (.exportedKey request.keyId encryptedData)

def importKey : Served C :=
  serving manager (enabled "Encryption" manager.encryption) fun engine =>
    serving manager (decoded "Invalid request: " (env.wire.importKey command.value)) fun request =>
      let (result, engine) := engine.importKey env.keyExport env.aead request.encryptedData
      let manager := { manager with encryption := some engine }
      match result with
      | .error error => (failure command ("Import key failed: " ++ error), manager)
      | .ok keyId => (succeed env command (some (.string keyId)), manager)

def getKeysExpiring : Outcome ConnectionError Response :=
  answering (enabled "Encryption" manager.encryption) fun engine =>
    answering (decoded "Invalid request: " (env.wire.getKeysExpiring command.value))
      fun request =>
        respond env command
          (.expiringKeys
            ((engine.world.keyManager.getKeysWithExpiryWarnings env.keyExport moment.now
              request.rotationDays).map fun (key, daysRemaining) =>
                { keyId := key.id
                  daysRemaining := daysRemaining
                  lastRotated := key.lastRotated
                  createdAt := key.createdAt }))

/-- `OpCode::RotateKey`: the storage of the server is re-encrypted. -/
def rotateKey : Served C :=
  serving manager (enabled "Encryption" manager.encryption) fun engine =>
    serving manager (decoded "Invalid request: " (env.wire.key command.value)) fun request =>
      let engine :=
        { engine with
          world := { engine.world with storage := manager.storage.persistentLayer } }
      let call := EncryptionEngine.rotateKey (env.engine moment.now) moment.now request.keyId
      let rotated := call.final none engine
      let manager :=
        { manager with
          encryption := some rotated
          storage := { manager.storage with persistentLayer := rotated.world.storage } }
      match call.outcome none engine with
      | .ok _ => (succeed env command none, manager)
      | .error _ => (.ok (Response.error command.header.seq), manager)
      | .crashed => (.crashed, manager)

def getKeyMetadata : Outcome ConnectionError Response :=
  answering (enabled "Encryption" manager.encryption) fun engine =>
    answering (decoded "Invalid request: " (env.wire.key command.value)) fun request =>
      match engine.world.keyManager.getKeyMetadata request.keyId with
      | .error error => failure command ("Get key metadata failed: " ++ error.keyMessage)
      | .ok key => respond env command (.key (.ofKey key))

end ConnectionManager

end VedDb
