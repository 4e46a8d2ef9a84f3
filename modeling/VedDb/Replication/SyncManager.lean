import VedDb.Replication.Agreement
import VedDb.Replication.Apply
import VedDb.Snapshot.Format
import VedDb.Snapshot.Loading

/-!
# The synchronisation manager

`SyncManager` of `replication/sync.rs`: what a master sends to bring a slave up to date, and what a
slave does with it.  Both sides keep one number, the sequence they believe to be at.
-/

namespace VedDb

open LittleEndian
open Durable (Outcome)

/-- `zstd::bulk::compress` at level 3 and `zstd::bulk::decompress` into at most one gibibyte. -/
structure Zstd where
  compress : Bytes → Except String Bytes
  decompress : Bytes → Except String Bytes

/-- What replication runs on. -/
structure ReplicationEnv (C : Type) where
  cache : CacheOps C
  json : DocumentJson
  catalogue : CatalogueJson
  snapshotJson : SnapshotJson
  sha256 : Bytes → Vector UInt8 32
  wal : WalCodec
  zstd : Zstd

variable {C : Type}

def ReplicationEnv.storage (env : ReplicationEnv C) : StorageEnv C :=
  { cache := env.cache, json := env.json, catalogue := env.catalogue }

def ReplicationEnv.snapshot (env : ReplicationEnv C) : SnapshotEnv :=
  { json := env.json, snapshot := env.snapshotJson, sha256 := env.sha256 }

/-- The messages of `WalError`. -/
def WalError.message : WalError → String
  | .ioError .unexpectedEof => "IO error: failed to fill whole buffer"
  | .ioError .invalidData => "IO error: invalid data"
  | .ioError .other => "IO error: other error"
  | .serializationError message => "Serialization error: " ++ message
  | .deserializationError message => "Deserialization error: " ++ message
  | .checksumMismatch expected actual =>
    "Checksum mismatch: expected " ++ toString expected ++ ", got " ++ toString actual
  | .corruptedEntry sequence => "Corrupted WAL entry at sequence " ++ toString sequence
  | .fileNotFound path => "WAL file not found: " ++ path
  | .invalidFormat => "Invalid WAL format"

/-- `SyncManager`, with its log directory and without its snapshot directory, whose files are gone
when a call returns, and the channel it streams to. -/
structure SyncManager (C : Type) where
  currentSequence : Nat
  walDir : WalDir
  replicationLag : Nat
  storage : Option (HybridStorageEngine C)

namespace SyncManager

def withStorage (walDir : WalDir) (storage : HybridStorageEngine C) : SyncManager C :=
  { currentSequence := 0, walDir := walDir, replicationLag := 0, storage := some storage }

def updateSequence (m : SyncManager C) (sequence : Nat) : SyncManager C :=
  { m with currentSequence := sequence }

def updateReplicationLag (m : SyncManager C) (lagMs : Nat) : SyncManager C :=
  { m with replicationLag := lagMs }

variable (env : ReplicationEnv C) (now : DateTime)

/-! ## Full synchronisation -/

/-- `write_snapshot_data` and `finalize`: the snapshot of a manager without storage. -/
def writeSnapshotData (m : SyncManager C) : Outcome SnapshotError Bytes :=
  match writeHeader env.snapshot (SnapshotHeader.new now m.currentSequence) with
  | .crashed => .crashed
  | .error e => .error e
  | .ok header =>
    match writeMetadata env.snapshot (snapshotMetadata []) with
    | .error e => .error e
    | .ok metadata =>
      .ok (header ++ metadata ++ snapshotFooter env.snapshot (header ++ metadata))

/-- `create_temp_snapshot`.  A failure to flush is logged only. -/
def createTempSnapshot (m : SyncManager C) : Outcome SnapshotError Bytes × SyncManager C :=
  match m.storage with
  | some storage =>
    let storage := (storage.flush env.json).2
    (createSnapshot env.snapshot now storage.persistentLayer m.currentSequence,
      { m with storage := some storage })
  | none => (m.writeSnapshotData env now, m)

/-- The part of `perform_full_sync` in front of its send: the message, or the failure to make it. -/
def fullSyncMessage (m : SyncManager C) :
    Outcome ReplicationError ReplicationMessage × SyncManager C :=
  match m.createTempSnapshot env now with
  | (.crashed, m) => (.crashed, m)
  | (.error e, m) => (.error (.snapshotError e.message), m)
  | (.ok content, m) =>
    match (SnapshotReader.ofBytes content).readHeader env.snapshot with
    | .error e => (.error (.snapshotError e.message), m)
    | .ok (header, _) =>
      match env.zstd.compress content with
      | .error e => (.error (.serializationError e), m)
      | .ok snapshotData => (.ok (.fullSync header snapshotData), m)

/-- What `apply_snapshot` does with a record: collections are created, failing or not, documents go
through the engine, and indexes of a supported type are created. -/
def snapshotApplier : SnapshotVisitor (HybridStorageEngine C) ReplicationError where
  report e := .snapshotError e.message
  collection e header := (e.createCollection env.catalogue header.name).2
  document e header doc :=
    storageResult (e.insertDocument env.cache env.json now header.name doc)
  index e header index :=
    match index.indexType.toIndexFields with
    | none => (.ok (), e)
    | some fields =>
      storageResult (e.createIndex env.catalogue header.name index.name fields index.unique)

/-- `apply_snapshot`.  A failure to flush is logged only. -/
def applySnapshot (m : SyncManager C) (content : Bytes) :
    Except ReplicationError Unit × SyncManager C :=
  match m.storage with
  | none => (.ok (), m)
  | some storage =>
    match (snapshotApplier env now).visitSnapshot env.snapshot now content storage with
    | (.error e, storage) => (.error e, { m with storage := some storage })
    | (.ok _, storage) => (.ok (), { m with storage := some (storage.flush env.json).2 })

def applyFullSync (m : SyncManager C) (header : SnapshotHeader) (snapshotData : Bytes) :
    Except ReplicationError Unit × SyncManager C :=
  match env.zstd.decompress snapshotData with
  | .error e => (.error (.deserializationError e), m)
  | .ok content =>
    match m.applySnapshot env now content with
    | (.error e, m) => (.error e, m)
    | (.ok (), m) => (.ok (), m.updateSequence header.sequence)

/-! ## Incremental synchronisation -/

/-- The loop of `get_wal_entries_since` over one file: the first error ends it. -/
def entriesSince (fromSequence : Nat) :
    List (Except WalError WalEntry) → Except WalError (List WalEntry)
  | [] => .ok []
  | .error e :: _ => .error e
  | .ok entry :: results =>
    match entriesSince fromSequence results with
    | .error e => .error e
    | .ok entries => .ok (if fromSequence < entry.sequence then entry :: entries else entries)

/-- The loop over the files. -/
def collectEntries (codec : WalCodec) (fromSequence : Nat) :
    List WalFile → Except WalError (List WalEntry)
  | [] => .ok []
  | file :: files =>
    match entriesSince fromSequence (WalReader.fileResults codec file.content) with
    | .error e => .error e
    | .ok entries =>
      match collectEntries codec fromSequence files with
      | .error e => .error e
      | .ok rest => .ok (entries ++ rest)

/-- `get_wal_entries_since`; `find_wal_files_after` lists every file of the log by name. -/
def getWalEntriesSince (m : SyncManager C) (fromSequence : Nat) :
    Except ReplicationError (List WalEntry) :=
  match collectEntries env.wal fromSequence (scanWalFiles m.walDir) with
  | .error e => .error (.walError e.message)
  | .ok entries => .ok (entries.mergeSort fun a b => decide (a.sequence ≤ b.sequence))

def getAvailableWalRange (m : SyncManager C) : Except ReplicationError (Nat × Nat) :=
  match scanWalFiles m.walDir with
  | [] => .ok (0, 0)
  | first :: _ =>
    match (WalReader.ofBytes first.content).nextEntry env.wal with
    | (.error e, _) => .error (.walError e.message)
    | (.ok none, _) => .ok (0, m.currentSequence)
    | (.ok (some entry), _) => .ok (entry.sequence, m.currentSequence)

/-- `needs_full_sync`.  The sum wraps around. -/
def needsFullSync (m : SyncManager C) (slaveSequence : Nat) : Except ReplicationError Bool :=
  if (slaveSequence + 10000) % 2 ^ 64 < m.currentSequence then .ok true
  else
    match m.getAvailableWalRange env with
    | .error e => .error e
    | .ok (minSequence, _) => .ok (decide (slaveSequence < minSequence))

/-- `apply_wal_entry`. -/
def applyEntry (m : SyncManager C) (entry : WalEntry) :
    Except ReplicationError Unit × SyncManager C :=
  match m.storage with
  | none => (.ok (), m)
  | some storage =>
    match applyWalEntry env.storage now storage entry.operation with
    | (.error e, storage) => (.error e, { m with storage := some storage })
    | (.ok (), storage) => (.ok (), { m with storage := some storage })

/-- The loop of `apply_incremental_sync`, with the sequence of the last entry applied. -/
def applyEntries : List WalEntry → Nat → SyncManager C → Except ReplicationError Nat × SyncManager C
  | [], lastSequence, m => (.ok lastSequence, m)
  | entry :: entries, _, m =>
    match env.wal.verifyChecksum entry with
    | .error e => (.error (.walError e.message), m)
    | .ok false =>
      (.error (.walError ("Checksum verification failed for entry " ++
        toString entry.sequence)), m)
    | .ok true =>
      match m.applyEntry env now entry with
      | (.error e, m) => (.error e, m)
      | (.ok (), m) => applyEntries entries entry.sequence m

/-- `now.signed_duration_since(last_ts).num_milliseconds().max(0)`. -/
def lagMs (timestamp : DateTime) : Nat := ((now - timestamp).tdiv 1000000).toNat

def applyIncrementalSync (m : SyncManager C) (entries : List WalEntry) :
    Except ReplicationError Nat × SyncManager C :=
  match applyEntries env now entries 0 m with
  | (.error e, m) => (.error e, m)
  | (.ok lastSequence, m) =>
    let m := if 0 < lastSequence then m.updateSequence lastSequence else m
    let m :=
      match entries.getLast? with
      | none => m
      | some last => m.updateReplicationLag (lagMs now last.timestamp)
    (.ok lastSequence, m)

end SyncManager

/-! ## A concrete compressor

A frame that stores its content in one raw block; `zstd` decompresses it like any other frame.  The
closed runs over replication use it in place of the abstract compressor. -/

/-- Magic number, frame header with a content size of four bytes, header of the last block, block.
-/
def storedFrame (data : Bytes) : Bytes :=
  [0x28, 0xB5, 0x2F, 0xFD, 0xA0] ++ leBytes 4 data.length ++ leBytes 3 (8 * data.length + 1) ++ data

def storedZstd : Zstd where
  compress data :=
    if data.length ≤ 131072 then .ok (storedFrame data) else .error "more than one block"
  decompress compressed :=
    let data := compressed.drop 12
    if compressed = storedFrame data then .ok data else .error "expected one raw block"

theorem drop_storedFrame (data : Bytes) : (storedFrame data).drop 12 = data := by
  unfold storedFrame
  exact List.drop_left' rfl

def epochReplication : ReplicationEnv Unit where
  cache := noCache
  json := nullDocuments
  catalogue := plainCatalogue
  snapshotJson := epochSnapshotJson
  sha256 := sha256
  wal := dropCodec
  zstd := storedZstd

end VedDb
