import VedDb.Encryption.KeyRotation

/-!
# The encryption engine

`encryption/mod.rs`: the configuration of collections, encryption and decryption of documents, key
rotation through the engine, and the check of the rotation state when an engine is made.  TLS, the
keys of the log and of snapshots, and the periodic scheduler are left out.
-/

namespace VedDb

open LittleEndian (Bytes)
open Durable

structure CollectionEncryptionConfig where
  enabled : Bool
  keyId : String
  algorithm : String
  deriving DecidableEq

/-- `EncryptionConfig`, without the rotation interval, which the engine does not read. -/
structure EncryptionConfig where
  enabled : Bool
  masterKey : Option String
  collectionEncryption : Std.ExtTreeMap String CollectionEncryptionConfig

/-- `EncryptionEngine`, with the files and the storage it works on. -/
structure EncryptionEngine (σ : Type) where
  config : EncryptionConfig
  keyRotationScheduler : Option KeyRotationScheduler
  world : RotationWorld σ

/-- What an engine calls: besides what a rotation calls, the hash of the master key and the
resolution of paths to directories. -/
structure EngineEnv (σ : Type) extends RotationEnv σ where
  hashMasterKey : String → String
  resolve : String → String

/-- The environment of closed runs, with paths that are directories. -/
def tableEngineEnv : EngineEnv DocumentTable :=
  { tableEnv with hashMasterKey := fun masterKey => masterKey, resolve := fun path => path }

/-- An engine on an empty table, with no collection encrypted yet. -/
def freshEngine : EncryptionEngine DocumentTable where
  config := ⟨true, none, ∅⟩
  keyRotationScheduler := none
  world := ⟨⟨∅, none⟩, none, fun _ => none, ⟨[], List.nodup_nil⟩, 0⟩

/-- A call on an engine. -/
abbrev EngineM (σ : Type) := Program (EncryptionEngine σ) EncryptionError

variable {σ : Type} (env : EngineEnv σ)

/-- A call into the key manager or the scheduler. -/
def EncryptionEngine.onWorld {α : Type} (m : EncryptionM σ α) : EngineM σ α :=
  Program.zoom EncryptionEngine.world (fun engine w => { engine with world := w }) m

theorem EncryptionEngine.onWorld_outcome {α : Type} (m : EncryptionM σ α) (cut : Cut)
    (engine : EncryptionEngine σ) :
    (onWorld m).outcome cut engine = m.outcome cut engine.world := rfl

theorem EncryptionEngine.onWorld_final {α : Type} (m : EncryptionM σ α) (cut : Cut)
    (engine : EncryptionEngine σ) :
    (onWorld m).final cut engine = { engine with world := m.final cut engine.world } := rfl

/-! ## Starting -/

def enforceRotationStateOnStartup : KeyRotationState → Except EncryptionError Unit
  | .idle => .ok ⟨⟩
  | .completed _ _ _ => .ok ⟨⟩
  | .reEncrypting keyId _ processed total _ => .error (.incompleteRotation keyId processed total)
  | .failed keyId reason failedAt => .error (.rotationFailed keyId reason failedAt)

-- Startup accepts exactly the states in which a rotation may start.
theorem enforceRotationStateOnStartup_ok_iff {state : KeyRotationState} :
    enforceRotationStateOnStartup state = .ok ⟨⟩ ↔ state.canStartRotation = true := by
  cases state <;> simp [enforceRotationStateOnStartup, KeyRotationState.canStartRotation]

namespace EncryptionEngine

/-- `EncryptionEngine::new` on the files that are there.  The keys are under
`storage_path/encryption`, the rotation state is read from `storage_path` itself. -/
def new (config : EncryptionConfig) (storagePath : String) (disk : RotationWorld σ) :
    Except EncryptionError (EncryptionEngine σ) :=
  match KeyManager.new env.hashMasterKey config.masterKey disk.keyFile with
  | .error e => .error e
  | .ok keyManager =>
    match enforceRotationStateOnStartup (disk.loadRotationState (env.resolve storagePath)) with
    | .error e => .error e
    | .ok _ =>
      .ok { config := config, keyRotationScheduler := none,
            world := { disk with keyManager := keyManager } }

variable {env} in
theorem new_ok_iff {config : EncryptionConfig} {storagePath : String} {disk : RotationWorld σ}
    {engine : EncryptionEngine σ} :
    new env config storagePath disk = .ok engine ↔
      (disk.loadRotationState (env.resolve storagePath)).canStartRotation = true ∧
      ∃ keyManager, KeyManager.new env.hashMasterKey config.masterKey disk.keyFile =
          .ok keyManager ∧
        engine = { config := config, keyRotationScheduler := none,
                   world := { disk with keyManager := keyManager } } := by
  rw [← enforceRotationStateOnStartup_ok_iff]
  unfold new
  cases KeyManager.new env.hashMasterKey config.masterKey disk.keyFile with
  | error e => simp
  | ok keyManager =>
    cases enforceRotationStateOnStartup (disk.loadRotationState (env.resolve storagePath)) with
    | error e => simp
    | ok _ => simp [eq_comm]

/-! ## Key rotation -/

/-- `enable_key_rotation`: the scheduler keeps its state in `./encryption`. -/
def enableKeyRotation (batchSize : Nat) : EngineM σ Unit :=
  Program.modify fun engine =>
    { engine with keyRotationScheduler := some ⟨batchSize, env.resolve "./encryption"⟩ }

def disableKeyRotation : EngineM σ Unit :=
  Program.modify fun engine => { engine with keyRotationScheduler := none }

/-- `EncryptionEngine::rotate_key`.  The scheduler is taken out for the call and put back whatever
it returns; without one the key is replaced and nothing is re-encrypted. -/
def rotateKey (now : DateTime) (keyId : String) : EngineM σ Unit := do
  let engine ← Program.read id
  match engine.keyRotationScheduler with
  | some scheduler => onWorld (scheduler.rotateKey env.toRotationEnv now keyId)
  | none => do
      let _ ← onWorld (KeyManager.rotateKeyWithBackup env.rng now keyId)
      pure ⟨⟩

/-- `KeyRotationScheduler::resume_rotation` on the engine, by a scheduler of the caller's. -/
def resumeRotation (scheduler : KeyRotationScheduler) (now : DateTime) : EngineM σ Unit :=
  onWorld (scheduler.resumeRotation env.toRotationEnv now)

end EncryptionEngine

namespace EncryptionConfig

def isCollectionEncrypted (config : EncryptionConfig) (collection : String) : Bool :=
  if config.enabled then
    match config.collectionEncryption[collection]? with
    | some c => c.enabled
    | none => false
  else false

def getCollectionKeyId (config : EncryptionConfig) (collection : String) :
    Except EncryptionError String :=
  match config.collectionEncryption[collection]? with
  | some c => .ok c.keyId
  | none => .error (.noEncryptionConfig collection)

end EncryptionConfig

namespace EncryptionEngine

/-- The key of a collection: `get_collection_key_id` and then `get_key`. -/
def collectionKey (engine : EncryptionEngine σ) (collection : String) :
    Except EncryptionError Bytes :=
  match engine.config.getCollectionKeyId collection with
  | .error e => .error e
  | .ok keyId => engine.world.keyManager.getKey keyId

def enableCollectionEncryption (now : DateTime) (collection : String) : EngineM σ Unit := do
  let _ ← onWorld (KeyManager.getOrCreateKey env.rng now (collectionKeyId collection))
  Program.modify fun engine =>
    { engine with config := { engine.config with
        collectionEncryption := engine.config.collectionEncryption.insert collection
          { enabled := true, keyId := collectionKeyId collection, algorithm := "AES-256-GCM" } } }

/-- `disable_collection_encryption`: a collection without a configuration is left alone. -/
def disableCollectionEncryption (collection : String) : EngineM σ Unit :=
  Program.modify fun engine =>
    match engine.config.collectionEncryption[collection]? with
    | none => engine
    | some c =>
      { engine with config := { engine.config with
          collectionEncryption := engine.config.collectionEncryption.insert collection
            { c with enabled := false } } }

/-- `encrypt_document`: the data itself when the collection is not encrypted. -/
def encryptDocument (collection : String) (data : Bytes) : EngineM σ Bytes := do
  let engine ← Program.read id
  if engine.config.isCollectionEncrypted collection then
    match engine.collectionKey collection with
    | .error e => Program.fail e
    | .ok key => onWorld (encryptFresh env.toRotationEnv data key)
  else pure data

/-- `decrypt_document`: the data itself when the collection is not encrypted. -/
def decryptDocument (engine : EncryptionEngine σ) (collection : String) (data : Bytes) :
    Except EncryptionError Bytes :=
  if engine.config.isCollectionEncrypted collection then
    match engine.collectionKey collection with
    | .error e => .error e
    | .ok key =>
      match DocumentEncryption.decrypt env.aead data key with
      | .error e => .error (.cipher e)
      | .ok plaintext => .ok plaintext
  else .ok data

end EncryptionEngine

/-! ## Runs -/

/-- The calls on an engine. -/
inductive EngineOp where
  | enableKeyRotation (batchSize : Nat)
  | disableKeyRotation
  | rotateKey (now : DateTime) (keyId : String)
  | resumeRotation (scheduler : KeyRotationScheduler) (now : DateTime)
  | enableCollectionEncryption (now : DateTime) (collection : String)
  | disableCollectionEncryption (collection : String)
  | encryptDocument (collection : String) (data : Bytes)
  deriving DecidableEq

namespace EngineOp

/-- The call, without the value it returns. -/
def call : EngineOp → EngineM σ Unit
  | enableKeyRotation batchSize => EncryptionEngine.enableKeyRotation env batchSize
  | disableKeyRotation => EncryptionEngine.disableKeyRotation
  | rotateKey now keyId => EncryptionEngine.rotateKey env now keyId
  | resumeRotation scheduler now => EncryptionEngine.resumeRotation env scheduler now
  | enableCollectionEncryption now collection =>
    EncryptionEngine.enableCollectionEncryption env now collection
  | disableCollectionEncryption collection =>
    EncryptionEngine.disableCollectionEncryption collection
  | encryptDocument collection data => do
      let _ ← EncryptionEngine.encryptDocument env collection data
      pure ⟨⟩

end EngineOp

/-- The engine after a sequence of calls, each of which can be cut off.  A call that returns an
error is followed by the next one; a crash ends the run. -/
def EncryptionEngine.runOps : List (EngineOp × Cut) → EncryptionEngine σ → EncryptionEngine σ
  | [], engine => engine
  | (op, cut) :: ops, engine =>
    match (op.call env).outcome cut engine with
    | .crashed => (op.call env).final cut engine
    | _ => runOps ops ((op.call env).final cut engine)

end VedDb
