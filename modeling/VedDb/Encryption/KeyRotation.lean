import VedDb.Encryption.EncryptedStorage
import VedDb.Encryption.KeyManager
import VedDb.Lib.Pointwise

/-!
# Key rotation

`encryption/key_rotation.rs`: replacing a key, re-encrypting the documents under it in batches, and
resuming a rotation that was cut off.  The persisted effects of a rotation are, in order, the key
file with the new key, the state `ReEncrypting`, one update per document, and the state
`Completed`.  The old key is held in memory only.
-/

namespace VedDb

open LittleEndian (Bytes)
open Durable

/-- What a rotation calls: the cipher, the random source and the storage. -/
structure RotationEnv (σ : Type) where
  aead : Aead
  rng : Rng
  store : EncryptedStorage σ

/-- A table of containers under the concrete cipher, for closed runs. -/
def tableEnv : RotationEnv DocumentTable := ⟨prefixCipher, countingRng, DocumentTable.storage⟩

/-- The scheduler's configuration, as far as a rotation reads it, and its state directory. -/
structure KeyRotationScheduler where
  batchSize : Nat
  encryptionPath : String
  deriving DecidableEq

structure ReEncryptionContext where
  oldKey : Bytes
  newKey : Bytes

/-- `is_collection_using_key`: the key of a collection is named `collection_` and its name. -/
def isCollectionUsingKey (collection keyId : String) : Bool :=
  if "collection_".toList.isPrefixOf keyId.toList then
    collection.toList = keyId.toList.drop "collection_".length
  else false

/-- `format!("collection_{}", collection_name)`: the key `enable_collection_encryption` gives a
collection. -/
def collectionKeyId (collection : String) : String := "collection_" ++ collection

variable {σ : Type} (env : RotationEnv σ)

/-- `update_encrypted_document`: the storage may refuse, and the write may be cut off. -/
def updateEncryptedDocument (collection : String) (docId : DocumentId) (data : Bytes) :
    EncryptionM σ Unit := do
  let w ← Program.read id
  match env.store.updateEncryptedDocument w.storage collection docId data with
  | .error e => Program.fail (.storage e)
  | .ok storage => Program.effect .io fun w => { w with storage := storage }

/-- `DocumentEncryption::encrypt` with a fresh nonce. -/
def encryptFresh (plaintext key : Bytes) : EncryptionM σ Bytes := do
  let w ← Program.read id
  Program.modify fun w => { w with drawn := w.drawn + 1 }
  match DocumentEncryption.encrypt env.aead (env.rng.nonce w.drawn) plaintext key with
  | .error e => Program.fail (.cipher e)
  | .ok data => pure data

/-- One turn of `reencrypt_batch`; whether the document was re-encrypted. -/
def reencryptDocument (context : ReEncryptionContext) (doc : EncryptedDocumentRef) :
    EncryptionM σ Bool :=
  match DocumentEncryption.decrypt env.aead doc.encryptedData context.oldKey with
  | .error _ => pure false  -- logged, and the loop goes on
  | .ok plaintext => do
      let data ← encryptFresh env plaintext context.newKey
      updateEncryptedDocument env doc.collection doc.docId data
      pure true

/-- `reencrypt_batch`: how many documents were re-encrypted. -/
def reencryptBatch (context : ReEncryptionContext) :
    List EncryptedDocumentRef → EncryptionM σ Nat
  | [] => pure 0
  | doc :: docs => do
      let done ← reencryptDocument env context doc
      let count ← reencryptBatch context docs
      pure (if done then count + 1 else count)

/-- The batch loop of `rotate_key`. -/
def reencryptChunks (context : ReEncryptionContext) :
    List (List EncryptedDocumentRef) → Nat → EncryptionM σ Nat
  | [], processed => pure processed
  | chunk :: chunks, processed => do
      let count ← reencryptBatch env context chunk
      reencryptChunks context chunks (processed + count)

/-- `if let Some(last_doc) = chunk.last()`: the state is saved with the last document as the
checkpoint. -/
def saveCheckpoint (path : String) (now : DateTime) (keyId : String) (processed total : Nat)
    (chunk : List EncryptedDocumentRef) : EncryptionM σ Unit :=
  match chunk.getLast? with
  | none => pure ⟨⟩
  | some last =>
    saveRotationState path (.reEncrypting keyId now processed total
      (some (last.collection, last.docId.toString)))

/-- The batch loop of `resume_from_checkpoint`: the state is saved after each batch. -/
def resumeChunks (path : String) (now : DateTime) (keyId : String) (total : Nat)
    (context : ReEncryptionContext) :
    List (List EncryptedDocumentRef) → Nat → EncryptionM σ Nat
  | [], processed => pure processed
  | chunk :: chunks, processed => do
      let count ← reencryptBatch env context chunk
      saveCheckpoint path now keyId (processed + count) total chunk
      resumeChunks path now keyId total context chunks (processed + count)

/-- `scan_encrypted_collection` on each listed collection that uses the key, in listing order. -/
def EncryptedStorage.scanCollections (store : EncryptedStorage σ) (s : σ) (keyId : String) :
    List String → Except String (List EncryptedDocumentRef)
  | [] => .ok []
  | collection :: collections =>
    if isCollectionUsingKey collection keyId then do
      let docs ← store.scanEncryptedCollection s collection
      let rest ← scanCollections store s keyId collections
      pure (docs ++ rest)
    else scanCollections store s keyId collections

def EncryptedStorage.documentsUsing (store : EncryptedStorage σ) (s : σ) (keyId : String) :
    Except String (List EncryptedDocumentRef) := do
  let collections ← store.listEncryptedCollections s
  store.scanCollections s keyId collections

def scanDocuments (keyId : String) : EncryptionM σ (List EncryptedDocumentRef) := do
  let w ← Program.read id
  match env.store.documentsUsing w.storage keyId with
  | .error e => Program.fail (.storage e)
  | .ok docs => pure docs

/-- The first step of a rotation and of its resumption: replace the key, keep the old one. -/
def rotationContext (now : DateTime) (keyId : String) : EncryptionM σ ReEncryptionContext := do
  let oldKey ← KeyManager.rotateKeyWithBackup env.rng now keyId
  let w ← Program.read id
  match w.keyManager.getKey keyId with
  | .error e => Program.fail e
  | .ok newKey => pure { oldKey := oldKey, newKey := newKey }

namespace KeyRotationScheduler

variable (scheduler : KeyRotationScheduler) (now : DateTime)

def rotateKey (keyId : String) : EncryptionM σ Unit := do
  let w ← Program.read id
  let currentState := w.loadRotationState scheduler.encryptionPath
  if currentState.canStartRotation then
    let context ← rotationContext env now keyId
    let docs ← scanDocuments env keyId
    saveRotationState scheduler.encryptionPath (.reEncrypting keyId now 0 docs.length none)
    if scheduler.batchSize = 0 then Program.panic  -- `chunks(0)`
    else
      let processed ← reencryptChunks env context (chunks scheduler.batchSize docs) 0
      saveRotationState scheduler.encryptionPath (.completed keyId now processed)
  else Program.fail (.cannotStartRotation currentState)

def remainingDocuments (checkpoint : Option (String × String))
    (docs : List EncryptedDocumentRef) : List EncryptedDocumentRef :=
  match checkpoint with
  | none => docs
  | some (collection, docId) =>
    docs.dropWhile fun doc => !(doc.collection = collection && doc.docId.toString = docId)

def resumeFromCheckpoint (keyId : String) (checkpoint : Option (String × String))
    (alreadyProcessed total : Nat) : EncryptionM σ Unit := do
  let context ← rotationContext env now keyId
  let docs ← scanDocuments env keyId
  if scheduler.batchSize = 0 then Program.panic
  else
    let processed ← resumeChunks env scheduler.encryptionPath now keyId total context
      (chunks scheduler.batchSize (remainingDocuments checkpoint docs)) alreadyProcessed
    saveRotationState scheduler.encryptionPath (.completed keyId now processed)

def resumeRotation : EncryptionM σ Unit := do
  let w ← Program.read id
  match w.loadRotationState scheduler.encryptionPath with
  | .reEncrypting keyId _ processed total lastCheckpoint =>
    resumeFromCheckpoint env scheduler now keyId lastCheckpoint processed total
  | .failed keyId reason _ => Program.fail (.previousRotationFailed keyId reason)
  | .idle => pure ⟨⟩
  | .completed _ _ _ => pure ⟨⟩

end KeyRotationScheduler

end VedDb
