import VedDb.Backup.Manager
import VedDb.Encryption.KeyManager
import VedDb.Protocol.Command
import VedDb.Query.Parser

/-!
# Requests and their answers

The payloads of the version 2 commands, from `protocol.rs` and `protocol/advanced_features.rs`.
They are JSON that `serde_json` reads and writes, which enters as the structure `Wire`.
-/

namespace VedDb

open LittleEndian (Bytes)

/-! ## Requests -/

structure CreateCollectionRequest where
  name : String
  schema : Option Value

structure DropCollectionRequest where
  name : String

structure ListIndexesRequest where
  collection : String

structure CreateIndexRequest where
  collection : String
  name : String
  fields : List IndexField
  unique : Bool

structure DropIndexRequest where
  collection : String
  name : String

structure QueryRequest where
  collection : String
  filter : Option Value
  projection : Option Value
  sort : Option Value
  skip : Option UInt64
  limit : Option UInt64

structure InsertDocRequest where
  collection : String
  document : Document

structure UpdateDocRequest where
  collection : String
  filter : Value
  update : Value
  upsert : Bool

structure DeleteDocRequest where
  collection : String
  filter : Value

/-- `AggregateRequest`, with the pipeline as what `Pipeline::execute` makes of documents. -/
structure AggregateRequest where
  collection : String
  execute : List Document → Except String (List Document)

structure CreateUserRequest where
  username : String
  password : String
  role : String

structure DeleteUserRequest where
  username : String

structure UpdateUserRoleRequest where
  username : String
  role : String

structure CreateBackupRequest where
  walSequence : Option Nat
  compress : Bool

structure RestoreBackupRequest where
  backupId : String

structure DeleteBackupRequest where
  backupId : String

structure PointInTimeRecoverRequest where
  targetTime : DateTime
  backupId : String
  walDirectory : String

structure AddSlaveRequest where
  slaveAddress : String
  slaveId : Option String

structure RemoveSlaveRequest where
  slaveId : String

/-- `CreateKeyRequest`, `RotateKeyRequest`, `ExportKeyRequest` and `GetKeyMetadataRequest`. -/
structure KeyRequest where
  keyId : String

structure ImportKeyRequest where
  encryptedData : String

structure GetKeysExpiringRequest where
  rotationDays : UInt32

/-! ## Answers -/

structure OperationResponse where
  success : Bool
  data : Option Value
  error : Option String
  affectedCount : Option Nat

namespace OperationResponse

/-- `OperationResponse::success`. -/
def ofData (data : Option Value) : OperationResponse :=
  { success := true, data := data, error := none, affectedCount := none }

/-- A success with its `affected_count`. -/
def ofCount (count : Nat) : OperationResponse :=
  { success := true, data := none, error := none, affectedCount := some count }

/-- `OperationResponse::error`. -/
def ofError (message : String) : OperationResponse :=
  { success := false, data := none, error := some message, affectedCount := none }

end OperationResponse

structure SlaveInfo where
  slaveId : String
  address : String
  lastAckSequence : Nat
  connected : Bool
  connectedAt : Option DateTime

structure ReplicationStatusResponse where
  role : String
  slaves : List SlaveInfo
  lagBytes : Nat
  healthy : Bool

structure KeyMetadataResponse where
  keyId : String
  version : UInt32
  algorithm : String
  createdAt : DateTime
  lastRotated : DateTime
  expiresAt : Option DateTime
  active : Bool
  isActive : Bool

/-- The description of a key, as two commands give it. -/
def KeyMetadataResponse.ofKey (key : EncryptionKey) : KeyMetadataResponse :=
  { keyId := key.id
    version := key.version
    algorithm := "AES-256-GCM"
    createdAt := key.createdAt
    lastRotated := key.lastRotated
    expiresAt := none
    active := key.active
    isActive := key.active }

structure ExpiringKeyInfo where
  keyId : String
  daysRemaining : Int
  lastRotated : DateTime
  createdAt : DateTime

/-- The payloads of successful answers. -/
inductive Answer where
  | operation (response : OperationResponse)
  /-- `advanced_features::BackupInfo`, which leaves out `includes_wal`. -/
  | backupInfo (info : BackupInfo)
  | backupInfos (infos : List BackupInfo)
  | replicationStatus (response : ReplicationStatusResponse)
  /-- `{"success": true, "slave_id": ...}` -/
  | slaveAdded (slaveId : String)
  | slaves (infos : List SlaveInfo)
  /-- `{"success": true, "synced_slaves": ...}` -/
  | synced (count : Nat)
  | keys (infos : List KeyMetadataResponse)
  | key (info : KeyMetadataResponse)
  | exportedKey (keyId encryptedData : String)
  | expiringKeys (infos : List ExpiringKeyInfo)

/-- The requests that the compatibility layer makes of version 1 commands. -/
inductive LegacyRequest where
  | insertDoc (request : InsertDocRequest)
  | query (request : QueryRequest)
  | deleteDoc (request : DeleteDocRequest)
  | updateDoc (request : UpdateDocRequest)

/-- `serde_json` on requests and answers.  A document is read at an instant, since its metadata is
not in the JSON and gets the defaults. -/
structure Wire where
  createCollection : Bytes → Except String CreateCollectionRequest
  dropCollection : Bytes → Except String DropCollectionRequest
  listIndexes : Bytes → Except String ListIndexesRequest
  createIndex : Bytes → Except String CreateIndexRequest
  dropIndex : Bytes → Except String DropIndexRequest
  query : Bytes → Except String QueryRequest
  insertDoc : DateTime → Bytes → Except String InsertDocRequest
  updateDoc : Bytes → Except String UpdateDocRequest
  deleteDoc : Bytes → Except String DeleteDocRequest
  aggregate : Bytes → Except String AggregateRequest
  createUser : Bytes → Except String CreateUserRequest
  deleteUser : Bytes → Except String DeleteUserRequest
  updateUserRole : Bytes → Except String UpdateUserRoleRequest
  createBackup : Bytes → Except String CreateBackupRequest
  restoreBackup : Bytes → Except String RestoreBackupRequest
  deleteBackup : Bytes → Except String DeleteBackupRequest
  pointInTimeRecover : Bytes → Except String PointInTimeRecoverRequest
  addSlave : Bytes → Except String AddSlaveRequest
  removeSlave : Bytes → Except String RemoveSlaveRequest
  key : Bytes → Except String KeyRequest
  importKey : Bytes → Except String ImportKeyRequest
  getKeysExpiring : Bytes → Except String GetKeysExpiringRequest
  answer : Answer → Except String Bytes
  legacyRequest : LegacyRequest → Except String Bytes
  operationResponse : Bytes → Except String OperationResponse
  keyValues : List (String × Bytes) → Except String Bytes

end VedDb
