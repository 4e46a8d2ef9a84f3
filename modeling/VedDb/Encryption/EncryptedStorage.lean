import Mathlib.Data.List.Dedup
import VedDb.Encryption.DocumentEncryption

/-!
# The storage that is re-encrypted

`encryption/encrypted_storage.rs`: the trait a storage implements for key rotation.  An
implementation is a record of functions over its state, with the contract of the trait as laws.
-/

namespace VedDb

open LittleEndian (Bytes)

structure EncryptedDocumentRef where
  collection : String
  docId : DocumentId
  encryptedData : Bytes
  deriving DecidableEq

/-- `trait EncryptedStorage`, over the state of the storage. -/
structure EncryptedStorage (σ : Type) where
  scanEncryptedCollection : σ → String → Except String (List EncryptedDocumentRef)
  listEncryptedCollections : σ → Except String (List String)
  updateEncryptedDocument : σ → String → DocumentId → Bytes → Except String σ

def EncryptedDocumentRef.Opens (aead : Aead) (key : Bytes) (doc : EncryptedDocumentRef)
    (plaintext : Bytes) : Prop :=
  DocumentEncryption.decrypt aead doc.encryptedData key = .ok plaintext

instance (aead : Aead) (key : Bytes) (doc : EncryptedDocumentRef) (plaintext : Bytes) :
    Decidable (doc.Opens aead key plaintext) :=
  inferInstanceAs (Decidable (_ = _))

/-- A scanned document after the ciphertext of one document was replaced. -/
def EncryptedDocumentRef.replace (docId : DocumentId) (data : Bytes)
    (doc : EncryptedDocumentRef) : EncryptedDocumentRef :=
  if doc.docId = docId then { doc with encryptedData := data } else doc

namespace EncryptedStorage

variable {σ : Type} (store : EncryptedStorage σ)

/-- What the trait promises: no collection is listed twice, and an update that reports success has
replaced the ciphertext of that one document, and changed nothing else.  Only containers are ever
written. -/
structure Lawful : Prop where
  list_nodup : ∀ {s collections}, store.listEncryptedCollections s = .ok collections →
    collections.Nodup
  scan_collection : ∀ {s collection docs}, store.scanEncryptedCollection s collection = .ok docs →
    ∀ doc ∈ docs, doc.collection = collection
  scan_update : ∀ {s s' collection docId} {data : EncryptedData}, data.nonce.length = 12 →
    store.updateEncryptedDocument s collection docId data.toBytes = .ok s' →
      ∃ docs, store.scanEncryptedCollection s collection = .ok docs ∧
        (docs.map EncryptedDocumentRef.docId).Nodup ∧
        store.scanEncryptedCollection s' collection =
          .ok (docs.map (EncryptedDocumentRef.replace docId data.toBytes))
  scan_update_other : ∀ {s s' collection other docId} {data : EncryptedData},
    data.nonce.length = 12 →
    store.updateEncryptedDocument s collection docId data.toBytes = .ok s' →
      other ≠ collection →
        store.scanEncryptedCollection s' other = store.scanEncryptedCollection s other

/-- A storage that fails for no reason of its own: it can always be scanned, it lists every
collection that has documents, and it takes a new ciphertext for each document it has. -/
structure Reliable : Prop extends store.Lawful where
  scan_ok : ∀ s collection, ∃ docs, store.scanEncryptedCollection s collection = .ok docs
  list_ok : ∀ s, ∃ collections, store.listEncryptedCollections s = .ok collections ∧
    ∀ collection docs, store.scanEncryptedCollection s collection = .ok docs → docs ≠ [] →
      collection ∈ collections
  update_ok : ∀ {s collection docs doc} (data : Bytes),
    store.scanEncryptedCollection s collection = .ok docs → doc ∈ docs →
      ∃ s', store.updateEncryptedDocument s collection doc.docId data = .ok s'

end EncryptedStorage

/-! ## A table of containers

The plainest storage with the contract: a list of documents with distinct identifiers. -/

structure DocumentTable where
  docs : List EncryptedDocumentRef
  nodup : (docs.map EncryptedDocumentRef.docId).Nodup

namespace DocumentTable

theorem map_docId_replace (docId : DocumentId) (data : Bytes) (docs : List EncryptedDocumentRef) :
    (docs.map (EncryptedDocumentRef.replace docId data)).map EncryptedDocumentRef.docId =
      docs.map EncryptedDocumentRef.docId := by
  rw [List.map_map]
  apply List.map_congr_left
  intro doc _
  show (EncryptedDocumentRef.replace docId data doc).docId = doc.docId
  unfold EncryptedDocumentRef.replace
  by_cases h : doc.docId = docId
  · rw [if_pos h]
  · rw [if_neg h]

def scan (table : DocumentTable) (collection : String) : List EncryptedDocumentRef :=
  table.docs.filter fun doc => doc.collection = collection

def replace (table : DocumentTable) (docId : DocumentId) (data : Bytes) : DocumentTable where
  docs := table.docs.map (EncryptedDocumentRef.replace docId data)
  nodup := by
    rw [map_docId_replace]
    exact table.nodup

def storage : EncryptedStorage DocumentTable where
  scanEncryptedCollection table collection := .ok (table.scan collection)
  listEncryptedCollections table := .ok (table.docs.map EncryptedDocumentRef.collection).dedup
  updateEncryptedDocument table collection docId data :=
    if (table.scan collection).any (·.docId = docId) then .ok (table.replace docId data)
    else .error "document not found"

theorem scan_nodup (table : DocumentTable) (collection : String) :
    ((table.scan collection).map EncryptedDocumentRef.docId).Nodup :=
  table.nodup.sublist (List.filter_sublist.map _)

theorem scan_replace (table : DocumentTable) (docId : DocumentId) (data : Bytes)
    (collection : String) :
    (table.replace docId data).scan collection =
      (table.scan collection).map (EncryptedDocumentRef.replace docId data) := by
  have hsame : ∀ doc : EncryptedDocumentRef,
      (EncryptedDocumentRef.replace docId data doc).collection = doc.collection := by
    intro doc
    unfold EncryptedDocumentRef.replace
    by_cases h : doc.docId = docId
    · rw [if_pos h]
    · rw [if_neg h]
  show (table.docs.map _).filter _ = (table.docs.filter _).map _
  rw [List.filter_map]
  congr 2
  funext doc
  simp only [Function.comp_apply, hsame]

-- An identifier of one collection occurs in no other.
theorem scan_replace_other (table : DocumentTable) {collection other : String}
    {doc : EncryptedDocumentRef} (hdoc : doc ∈ table.scan collection) (hne : other ≠ collection)
    (data : Bytes) : (table.replace doc.docId data).scan other = table.scan other := by
  rw [scan_replace]
  calc (table.scan other).map (EncryptedDocumentRef.replace doc.docId data)
    _ = (table.scan other).map id := by
        apply List.map_congr_left
        intro doc' hdoc'
        refine if_neg fun hid => hne ?_
        -- the two documents are one, so they are in one collection
        rw [scan, List.mem_filter, decide_eq_true_iff] at hdoc hdoc'
        have heq := List.inj_on_of_nodup_map table.nodup hdoc'.1 hdoc.1 hid
        rw [← hdoc'.2, ← hdoc.2, heq]
    _ = table.scan other := List.map_id _

theorem storage_update_eq_ok {table table' : DocumentTable} {collection : String}
    {docId : DocumentId} {data : Bytes}
    (h : storage.updateEncryptedDocument table collection docId data = .ok table') :
    (∃ doc ∈ table.scan collection, doc.docId = docId) ∧ table' = table.replace docId data := by
  simp only [storage] at h
  by_cases hany : (table.scan collection).any (·.docId = docId) = true
  · rw [if_pos hany] at h
    cases h
    obtain ⟨doc, hdoc, hid⟩ := List.any_eq_true.mp hany
    exact ⟨⟨doc, hdoc, of_decide_eq_true hid⟩, rfl⟩
  · rw [if_neg hany] at h
    cases h

theorem storage_reliable : storage.Reliable where
  list_nodup := by
    intro table collections h
    cases h
    exact List.nodup_dedup _
  scan_collection := by
    intro table collection docs h doc hdoc
    cases h
    rw [scan, List.mem_filter, decide_eq_true_iff] at hdoc
    exact hdoc.2
  scan_update := by
    intro table table' collection docId data _ h
    obtain ⟨-, rfl⟩ := storage_update_eq_ok h
    exact ⟨table.scan collection, rfl, table.scan_nodup collection,
      congrArg Except.ok (scan_replace table docId data.toBytes collection)⟩
  scan_update_other := by
    intro table table' collection other docId data _ h hne
    obtain ⟨⟨doc, hdoc, rfl⟩, rfl⟩ := storage_update_eq_ok h
    exact congrArg Except.ok (scan_replace_other table hdoc hne data.toBytes)
  scan_ok table collection := ⟨table.scan collection, rfl⟩
  list_ok table := by
    refine ⟨_, rfl, ?_⟩
    intro collection docs h hne
    cases h
    obtain ⟨doc, hdoc⟩ := List.exists_mem_of_ne_nil _ hne
    rw [scan, List.mem_filter, decide_eq_true_iff] at hdoc
    rw [List.mem_dedup, ← hdoc.2]
    exact List.mem_map_of_mem hdoc.1
  update_ok := by
    intro table collection docs doc data h hdoc
    cases h
    exact ⟨_, if_pos (List.any_eq_true.mpr ⟨doc, hdoc, decide_eq_true rfl⟩)⟩

end DocumentTable

end VedDb
