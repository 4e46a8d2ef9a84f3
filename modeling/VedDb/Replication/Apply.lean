import VedDb.Snapshot.Format
import VedDb.Storage.Hybrid
import VedDb.Wal.Replay

/-!
# Applying logged operations on a replica

`SyncManager::apply_wal_entry` of `replication/sync.rs`, the second interpreter of logged
operations: crash replay writes into the persistent layer itself, a replica goes through the storage
engine.  The two agree on documents.  They keep the metadata of collections and indexes under
different keys, and only the replica removes the documents of a dropped collection.
-/

namespace VedDb

open LittleEndian (Bytes)

inductive ReplicationError where
  | ioError (kind : IoErrorKind)
  | serializationError (message : String)
  | deserializationError (message : String)
  | connectionError (message : String)
  | protocolError (message : String)
  | timeout
  | invalidMessageType (message : String)
  | slaveLimit (max : Nat)
  | notMaster
  | notSlave
  | notConfigured
  | snapshotError (message : String)
  | walError (message : String)
  | storageError (message : String)
  deriving DecidableEq

/-- `e.to_string()` of a storage error: its outermost context. -/
def StorageError.message : StorageError → String
  | .serializeDocument _ => "Failed to serialize document"
  | .deserializeDocument _ => "Failed to deserialize document"
  | .serializeMetadata cause => cause
  | .serializeCollectionsList _ => "Failed to serialize collections list"
  | .parseIndexesList _ => "Failed to parse indexes list"
  | .serializeIndexesList _ => "Failed to serialize indexes list"
  | .cache cause => cause
  | .schemaNotFound => "Schema not found"
  | .store cause => cause

/-- What a storage engine runs on. -/
structure StorageEnv (C : Type) where
  cache : CacheOps C
  json : DocumentJson
  catalogue : CatalogueJson

/-- The conversion of an index definition to `Vec<protocol::IndexField>`; other index types are
skipped. -/
def IndexType.toIndexFields : IndexType → Option (List IndexField)
  | .single field => some [⟨field, 1⟩]
  | .compound fields => some (fields.map fun field => ⟨field, 1⟩)
  | .text _ => none
  | .geospatial _ => none

variable {C : Type}

/-- `.map_err(|e| ReplicationError::StorageError(e.to_string()))?`. -/
def storageResult {α : Type} (result : Except StorageError α × HybridStorageEngine C) :
    Except ReplicationError Unit × HybridStorageEngine C :=
  match result with
  | (.error error, e) => (.error (.storageError error.message), e)
  | (.ok _, e) => (.ok (), e)

section

variable (env : StorageEnv C) (now : DateTime)

/-- `apply_wal_entry` on an attached storage engine. -/
def applyWalEntry (e : HybridStorageEngine C) (operation : Operation) :
    Except ReplicationError Unit × HybridStorageEngine C :=
  match operation with
  | .insert collection id fields =>
    storageResult (e.insertDocument env.cache env.json now collection
      { id := id, fields := fields, metadata := DocumentMetadata.default now })
  | .update collection id changes =>
    match e.getDocument env.cache env.json now collection id with
    | (.error error, e) => (.error (.storageError error.message), e)
    | (.ok none, e) => (.ok (), e)
    | (.ok (some doc), e) =>
      storageResult (e.updateDocument env.cache env.json now collection id
        (doc.applyChanges now changes))
  | .delete collection id => (.ok (), (e.deleteDocument env.cache now collection id).2)
  | .createCollection name _ => storageResult (e.createCollection env.catalogue name)
  | .dropCollection name => storageResult (e.dropCollection env.cache env.catalogue name)
  | .createIndex collection index =>
    match index.indexType.toIndexFields with
    | none => (.ok (), e)
    | some fields =>
      storageResult (e.createIndex env.catalogue collection index.name fields index.unique)
  | .dropIndex collection indexName =>
    storageResult (e.dropIndex env.catalogue collection indexName)

/-- Apply operations one after the other, going on behind one that fails. -/
def applyWalEntries (e : HybridStorageEngine C) (operations : List Operation) :
    HybridStorageEngine C :=
  operations.foldl (fun e operation => (applyWalEntry env now e operation).2) e

end

/-! ## The persistent layer under a replica -/

/-- The layer after an operation that may fail: a failure leaves it as it was. -/
def PersistentLayer.keep (layer : PersistentLayer) (result : Except StorageError PersistentLayer) :
    PersistentLayer :=
  match result with
  | .error _ => layer
  | .ok layer => layer

/-- What an operation leaves in the persistent layer of an engine without schemas. -/
def replicaOperation (env : StorageEnv C) (now : DateTime) (layer : PersistentLayer) :
    Operation → PersistentLayer
  | .insert collection id fields =>
    applyOrSkip env.json now layer (.insert collection id fields)
  | .update collection id changes =>
    applyOrSkip env.json now layer (.update collection id changes)
  | .delete collection id => (layer.deleteDocument collection id).2
  | .createCollection name _ => layer.keep (layer.createCollection env.catalogue name)
  | .dropCollection name => (layer.dropCollection env.catalogue name).2
  | .createIndex collection index =>
    match index.indexType.toIndexFields with
    | none => layer
    | some fields =>
      layer.keep
        (layer.createIndex env.catalogue collection index.name fields index.unique)
  | .dropIndex collection indexName =>
    layer.keep (layer.dropIndex env.catalogue collection indexName)

variable {env : StorageEnv C} {now : DateTime} {e : HybridStorageEngine C}

theorem storageResult_snd {α : Type} (result : Except StorageError α × HybridStorageEngine C) :
    (storageResult result).2 = result.2 := by
  rcases result with ⟨error | value, e⟩
  · rfl
  · rfl

theorem persist_persistentLayer (e : HybridStorageEngine C)
    (result : Except StorageError PersistentLayer) :
    (e.persist result).2.persistentLayer = e.persistentLayer.keep result := by
  cases result with
  | error error => rfl
  | ok layer => rfl

-- Without schemas a replica does to its persistent layer what `replicaOperation` says, and stays
-- without schemas.
theorem applyWalEntry_plain (h : e.Plain) (operation : Operation) :
    (applyWalEntry env now e operation).2.Plain ∧
      (applyWalEntry env now e operation).2.persistentLayer =
        replicaOperation env now e.persistentLayer operation := by
  cases operation with
  | insert collection id fields =>
    simp only [applyWalEntry, storageResult_snd, h.insertDocument_eq, replicaOperation]
    refine ⟨h.persist _, ?_⟩
    rw [persist_persistentLayer]
    rfl
  | update collection id changes =>
    simp only [applyWalEntry, h.getDocument_eq, replicaOperation, applyOrSkip, applyOperation]
    rcases e.persistentLayer.getDocument env.json now collection id with error | - | doc
    · exact ⟨h, rfl⟩
    · exact ⟨h, rfl⟩
    · simp only [storageResult_snd, h.updateDocument_eq]
      refine ⟨h.persist _, ?_⟩
      rw [persist_persistentLayer]
      rfl
  | delete collection id =>
    simp only [applyWalEntry, h.deleteDocument_eq, replicaOperation]
    exact ⟨⟨h.schemas_eq, h.queue_eq⟩, trivial⟩
  | createCollection name schema =>
    simp only [applyWalEntry, storageResult_snd, HybridStorageEngine.createCollection]
    exact ⟨h.persist _, persist_persistentLayer e _⟩
  | dropCollection name =>
    simp only [applyWalEntry, storageResult_snd, HybridStorageEngine.dropCollection]
    exact ⟨⟨h.schemas_eq, h.queue_eq⟩, rfl⟩
  | createIndex collection index =>
    simp only [applyWalEntry, replicaOperation]
    cases index.indexType.toIndexFields with
    | none => exact ⟨h, rfl⟩
    | some fields =>
      simp only [storageResult_snd, HybridStorageEngine.createIndex]
      exact ⟨h.persist _, persist_persistentLayer e _⟩
  | dropIndex collection indexName =>
    simp only [applyWalEntry, storageResult_snd, HybridStorageEngine.dropIndex]
    exact ⟨h.persist _, persist_persistentLayer e _⟩

-- Along a whole run.
theorem applyWalEntries_plain (h : e.Plain) (operations : List Operation) :
    (applyWalEntries env now e operations).Plain ∧
      (applyWalEntries env now e operations).persistentLayer =
        operations.foldl (replicaOperation env now) e.persistentLayer := by
  induction operations generalizing e with
  | nil => exact ⟨h, rfl⟩
  | cons operation operations ih =>
    obtain ⟨hplain, hlayer⟩ := @applyWalEntry_plain C env now e h operation
    obtain ⟨hplain', hlayer'⟩ := ih hplain
    refine ⟨hplain', ?_⟩
    rw [List.foldl_cons, ← hlayer]
    exact hlayer'

/-!
## Replication messages

`replication/message.rs`.
-/

inductive AckStatus where
  | success
  | failed
  | partially
  deriving DecidableEq

inductive ErrorCode where
  | invalidMessage
  | authenticationFailed
  | sequenceError
  | snapshotCorrupted
  | walCorrupted
  | internalError
  | slaveLimit
  | timeout
  deriving DecidableEq

inductive ReplicationMessage where
  | syncRequest (lastSequence : Nat) (slaveId : String)
  | fullSync (header : SnapshotHeader) (snapshotData : Bytes)
  | incrementalSync (entries : List WalEntry)
  | heartbeat (timestamp : DateTime) (currentSequence : Nat)
  | ack (sequence : Nat) (status : AckStatus)
  | error (code : ErrorCode) (message : String)
  | promoteToMaster (authToken : String)
  | masterShutdown (reason : String)

/-- `serde_json` on replication messages. -/
structure MessageJson where
  toVec : ReplicationMessage → Except String Bytes
  fromSlice : Bytes → Except String ReplicationMessage

namespace ReplicationMessage

variable (json : MessageJson)

def toBytes (message : ReplicationMessage) : Except ReplicationError Bytes :=
  match json.toVec message with
  | .error e => .error (.serializationError e)
  | .ok bytes => .ok bytes

def fromBytes (bytes : Bytes) : Except ReplicationError ReplicationMessage :=
  match json.fromSlice bytes with
  | .error e => .error (.deserializationError e)
  | .ok message => .ok message

def ackSuccess (sequence : Nat) : ReplicationMessage := .ack sequence .success

end ReplicationMessage

end VedDb
