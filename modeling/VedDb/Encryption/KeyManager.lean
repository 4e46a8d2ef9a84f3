import VedDb.Encryption.DocumentEncryption
import VedDb.Lib.Durable
import VedDb.Lib.Lookups

/-!
# Keys and the state of an engine's files

`encryption/key_manager.rs` and `encryption/rotation_state_store.rs`: the keys held in memory, the
key file they are saved to, and the rotation state file.  Everything the encryption code persists is
one state, `RotationWorld`, and the operations are programs over it that can be cut off before each
write.
-/

namespace VedDb

open LittleEndian (Bytes)
open Durable

/-- The instant at which the closed runs take place. -/
def epoch : DateTime := 0

structure EncryptionKey where
  id : String
  key : Bytes
  createdAt : DateTime
  lastRotated : DateTime
  active : Bool
  version : UInt32
  deriving DecidableEq

/-- `HashMap<String, EncryptionKey>`. -/
abbrev Keys := Std.ExtTreeMap String EncryptionKey

/-- `KeyStorage`: what `keys.json` holds. -/
structure KeyStorage where
  keys : Keys
  masterKeyHash : Option String

/-- `KeyManager`.  Of the master key only its hash is ever compared. -/
structure KeyManager where
  keys : Keys
  masterKeyHash : Option String

inductive KeyRotationState where
  | idle
  | reEncrypting (keyId : String) (startedAt : DateTime) (processed total : Nat)
      (lastCheckpoint : Option (String × String))
  | completed (keyId : String) (completedAt : DateTime) (documentsProcessed : Nat)
  | failed (keyId reason : String) (failedAt : DateTime)
  deriving DecidableEq

def KeyRotationState.canStartRotation : KeyRotationState → Bool
  | .idle => true
  | .completed _ _ _ => true
  | .reEncrypting _ _ _ _ _ => false
  | .failed _ _ _ => false

/-- The errors of the encryption code. -/
inductive EncryptionError where
  | cipher (e : CipherError)
  | keyNotFound (keyId : String)
  | keyInactive (keyId : String)
  | keyAlreadyExists (keyId : String)
  | masterKeyTooShort
  | masterKeyMismatch
  | io
  | storage (message : String)
  | cannotStartRotation (state : KeyRotationState)
  | previousRotationFailed (keyId reason : String)
  | incompleteRotation (keyId : String) (processed total : Nat)
  | rotationFailed (keyId reason : String) (failedAt : DateTime)
  | noEncryptionConfig (collection : String)
  deriving DecidableEq

/-- An engine's keys in memory, the files it writes, the documents of the storage it re-encrypts,
and how often the random source was drawn from.  `stateFiles` is the rotation state by directory. -/
structure RotationWorld (σ : Type) where
  keyManager : KeyManager
  keyFile : Option KeyStorage
  stateFiles : String → Option KeyRotationState
  storage : σ
  drawn : Nat

variable {σ : Type}

/-- A call into the encryption code. -/
abbrev EncryptionM (σ : Type) := Program (RotationWorld σ) EncryptionError

/-! ## The key manager -/

namespace KeyManager

def getKey (manager : KeyManager) (keyId : String) : Except EncryptionError Bytes :=
  match manager.keys[keyId]? with
  | none => .error (.keyNotFound keyId)
  | some key => if key.active then .ok key.key else .error (.keyInactive keyId)

theorem getKey_eq {manager : KeyManager} {keyId : String} {key : EncryptionKey}
    (h : manager.keys[keyId]? = some key) :
    manager.getKey keyId = if key.active then .ok key.key else .error (.keyInactive keyId) := by
  rw [getKey, h]

/-- The master key hashes differ; they are compared only when both sides have one. -/
def hashMismatch : Option String → Option String → Bool
  | some storedHash, some currentHash => storedHash != currentHash
  | _, _ => false

/-- `load_keys`: no file means no keys. -/
def loadKeys (manager : KeyManager) : Option KeyStorage → Except EncryptionError KeyManager
  | none => .ok manager
  | some storage =>
    if hashMismatch storage.masterKeyHash manager.masterKeyHash then .error .masterKeyMismatch
    else .ok { manager with keys := storage.keys }

theorem hashMismatch_self (hash : Option String) : hashMismatch hash hash = false := by
  cases hash with
  | none => rfl
  | some h => exact bne_self_eq_false h

theorem loadKeys_some (manager : KeyManager) (storage : KeyStorage) :
    manager.loadKeys (some storage) =
      if hashMismatch storage.masterKeyHash manager.masterKeyHash then .error .masterKeyMismatch
      else .ok { manager with keys := storage.keys } := rfl

-- The keys are loaded unless the file is for another master key.
theorem loadKeys_ok_iff {manager : KeyManager} {file : Option KeyStorage} :
    (∃ loaded, manager.loadKeys file = .ok loaded) ↔
      ∀ storage, file = some storage →
        hashMismatch storage.masterKeyHash manager.masterKeyHash = false := by
  cases file with
  | none => exact ⟨fun _ _ h => (nomatch h), fun _ => ⟨manager, rfl⟩⟩
  | some storage =>
    rw [loadKeys_some]
    cases hmismatch : hashMismatch storage.masterKeyHash manager.masterKeyHash with
    | true =>
      constructor
      · rintro ⟨loaded, h⟩
        cases h
      · intro h
        rw [h storage rfl] at hmismatch
        cases hmismatch
    | false =>
      constructor
      · rintro - storage' ⟨⟩
        exact hmismatch
      · exact fun _ => ⟨_, rfl⟩

theorem masterKeyHash_loadKeys {manager loaded : KeyManager} {file : Option KeyStorage}
    (h : manager.loadKeys file = .ok loaded) : loaded.masterKeyHash = manager.masterKeyHash := by
  cases file with
  | none =>
    cases h
    rfl
  | some storage =>
    rw [loadKeys_some] at h
    by_cases hmismatch : hashMismatch storage.masterKeyHash manager.masterKeyHash = true
    · rw [if_pos hmismatch] at h
      cases h
    · rw [if_neg hmismatch] at h
      cases h
      rfl

/-- `KeyManager::new` on a key file.  `hashMasterKey` is `hash_master_key` after
`derive_master_key`, two rounds of SHA-256. -/
def new (hashMasterKey : String → String) (masterKey : Option String) (file : Option KeyStorage) :
    Except EncryptionError KeyManager :=
  match masterKey with
  | none => loadKeys ⟨∅, none⟩ file
  | some masterKey =>
    if masterKey.utf8ByteSize < 16 then .error .masterKeyTooShort
    else loadKeys ⟨∅, some (hashMasterKey masterKey)⟩ file

-- A master key that was accepted once is accepted with every key file.
theorem new_accepted {hashMasterKey : String → String} {masterKey : Option String}
    {file : Option KeyStorage} {manager : KeyManager}
    (h : new hashMasterKey masterKey file = .ok manager) (file' : Option KeyStorage) :
    new hashMasterKey masterKey file' = loadKeys ⟨∅, masterKey.map hashMasterKey⟩ file' := by
  cases masterKey with
  | none => rfl
  | some masterKey =>
    unfold new at h ⊢
    dsimp only at h ⊢
    by_cases hshort : masterKey.utf8ByteSize < 16
    · rw [if_pos hshort] at h
      cases h
    · rw [if_neg hshort]
      rfl

/-- `save_keys`: the whole key file is written anew. -/
def saveKeys : EncryptionM σ Unit :=
  Program.effect .io fun w =>
    { w with keyFile := some ⟨w.keyManager.keys, w.keyManager.masterKeyHash⟩ }

/-- Put a key into the map in memory; one draw from the random source goes with it. -/
def insertDrawn (keyId : String) (key : EncryptionKey) : EncryptionM σ Unit :=
  Program.modify fun w =>
    { w with
      keyManager := { w.keyManager with keys := w.keyManager.keys.insert keyId key }
      drawn := w.drawn + 1 }

variable (rng : Rng) (now : DateTime)

def createKey (keyId : String) : EncryptionM σ Unit := do
  let w ← Program.read id
  match w.keyManager.keys[keyId]? with
  | some _ => Program.fail (.keyAlreadyExists keyId)
  | none =>
    insertDrawn keyId
      { id := keyId, key := rng.key w.drawn, createdAt := now, lastRotated := now,
        active := true, version := 1 }
    saveKeys

def getOrCreateKey (keyId : String) : EncryptionM σ Bytes := do
  let w ← Program.read id
  match w.keyManager.getKey keyId with
  | .ok key => pure key
  | .error _ =>
    createKey rng now keyId
    let w ← Program.read id
    Program.ofExcept (w.keyManager.getKey keyId)

/-- The key with new bytes: `EncryptionKey::rotate`. -/
def rotated (key : EncryptionKey) (bytes : Bytes) : EncryptionKey :=
  { key with key := bytes, lastRotated := now, version := key.version + 1 }

/-- `rotate_key_with_backup`: the bytes of the key before it was replaced. -/
def rotateKeyWithBackup (keyId : String) : EncryptionM σ Bytes := do
  let w ← Program.read id
  match w.keyManager.keys[keyId]? with
  | none => Program.fail (.keyNotFound keyId)
  | some key =>
    insertDrawn keyId (rotated now key (rng.key w.drawn))
    saveKeys
    pure key.key

def deactivateKey (keyId : String) : EncryptionM σ Unit := do
  let w ← Program.read id
  match w.keyManager.keys[keyId]? with
  | none => Program.fail (.keyNotFound keyId)
  | some key =>
    Program.modify fun w =>
      { w with keyManager := { w.keyManager with
          keys := w.keyManager.keys.insert keyId { key with active := false } } }
    saveKeys

end KeyManager

/-- A new process on the same files: the keys in memory are those of the key file. -/
def RotationWorld.restart (w : RotationWorld σ) : RotationWorld σ :=
  { w with keyManager :=
      { w.keyManager with keys := (w.keyFile.map KeyStorage.keys).getD ∅ } }

/-! ## The rotation state file -/

def saveRotationState (dir : String) (state : KeyRotationState) : EncryptionM σ Unit :=
  Program.effect .io fun w =>
    { w with stateFiles := Function.update w.stateFiles dir (some state) }

/-- `load_rotation_state`: no file means `Idle`. -/
def RotationWorld.loadRotationState (w : RotationWorld σ) (dir : String) : KeyRotationState :=
  (w.stateFiles dir).getD .idle

-- Every state but `Idle` is read from a file.
theorem RotationWorld.loadRotationState_eq_iff {w : RotationWorld σ} {dir : String}
    {state : KeyRotationState} (hne : state ≠ .idle) :
    w.loadRotationState dir = state ↔ w.stateFiles dir = some state := by
  unfold RotationWorld.loadRotationState
  cases w.stateFiles dir with
  | none =>
    constructor
    · exact fun h => absurd h.symm hne
    · rintro ⟨⟩
  | some saved => exact ⟨fun h => congrArg some h, fun h => Option.some.inj h⟩

end VedDb
