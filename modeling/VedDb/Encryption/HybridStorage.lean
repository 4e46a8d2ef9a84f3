import VedDb.Encryption.EncryptedStorage
import VedDb.Storage.Catalogue

/-!
# The hybrid storage engine as an encrypted storage

`impl EncryptedStorage for HybridStorageEngine` in `storage/hybrid.rs`.  It reads and writes
documents, not containers: a scan serialises each stored document to JSON, and an update parses the
bytes it is given as JSON.  The containers of `DocumentEncryption` are not JSON, so no scanned
document opens under any key, and every update with a container fails.
-/

namespace VedDb

open LittleEndian

/-! ## The implementation of the trait -/

namespace HybridStorageEngine

variable (json : DocumentJson) (now : DateTime)

/-- `serde_json::to_vec(&doc).unwrap_or_default()` with the collection and the identifier. -/
def encryptedRef (collection : String) (doc : Document) : EncryptedDocumentRef where
  collection := collection
  docId := doc.id
  encryptedData :=
    match json.toVec doc.id doc.fields with
    | .error _ => []
    | .ok bytes => bytes

def storage : EncryptedStorage PersistentLayer where
  scanEncryptedCollection layer collection :=
    match layer.scanCollection json now collection with
    | .error _ => .error "Failed to deserialize document"
    | .ok documents => .ok (documents.map (encryptedRef json collection))
  listEncryptedCollections layer := .ok layer.listCollections
  updateEncryptedDocument layer collection docId data :=
    match json.fromSlice data with
    | .error e => .error e
    | .ok (id, fields) =>
      let doc : Document :=
        { id := id, fields := fields, metadata := DocumentMetadata.default now }
      match layer.updateDocument json collection docId doc with
      | .error _ => .error "Failed to serialize document"
      | .ok layer => .ok layer

end HybridStorageEngine

/-- What the engine's storage relies on of `serde_json`: no JSON text starts with a form feed, and a
document is written as an object whose first member is `_id`. -/
structure DocumentJson.Lawful (json : DocumentJson) : Prop where
  fromSlice_formFeed : ∀ rest : Bytes, ∃ e, json.fromSlice (12 :: rest) = .error e
  toVec_object : ∀ {id fields bytes}, json.toVec id fields = .ok bytes →
    ∃ rest, bytes = utf8 "\x7b\"_id\":\"" ++ rest ∧ bytes.length < 2 ^ 61

namespace HybridStorageEngine

variable {json : DocumentJson} {now : DateTime}

-- A container starts with the length of its nonce, which is a form feed.
theorem toBytes_eq_cons {data : EncryptedData} (h : data.nonce.length = 12) :
    ∃ rest, data.toBytes = 12 :: rest := by
  unfold EncryptedData.toBytes EncryptedData.vec
  rw [h]
  exact ⟨_, rfl⟩

-- No update with a container succeeds.
theorem update_container_fails (hjson : json.Lawful) {layer : PersistentLayer}
    {collection : String} {docId : DocumentId} {data : EncryptedData}
    (h : data.nonce.length = 12) :
    ∃ e, (storage json now).updateEncryptedDocument layer collection docId data.toBytes =
      .error e := by
  obtain ⟨rest, hrest⟩ := toBytes_eq_cons h
  obtain ⟨e, he⟩ := hjson.fromSlice_formFeed rest
  refine ⟨e, ?_⟩
  simp only [storage, hrest, he]

/-- The engine keeps the contract of the trait, though never by updating anything. -/
theorem storage_lawful (hjson : json.Lawful) : (storage json now).Lawful where
  list_nodup := by
    intro layer collections h
    cases h
    exact layer.listCollections_nodup
  scan_collection := by
    intro layer collection docs h doc hdoc
    simp only [storage] at h
    cases hscan : layer.scanCollection json now collection with
    | error e =>
      rw [hscan] at h
      cases h
    | ok documents =>
      rw [hscan] at h
      cases h
      obtain ⟨document, -, rfl⟩ := List.mem_map.mp hdoc
      rfl
  scan_update := by
    intro layer layer' collection docId data hnonce h
    obtain ⟨e, he⟩ := update_container_fails hjson hnonce
    rw [he] at h
    cases h
  scan_update_other := by
    intro layer layer' collection other docId data hnonce h
    obtain ⟨e, he⟩ := update_container_fails hjson hnonce
    rw [he] at h
    cases h

-- The JSON of a document is no container: its first eight bytes are a length beyond its own.
theorem fromBytes_json {rest : Bytes}
    (hlen : (utf8 "\x7b\"_id\":\"" ++ rest).length < 2 ^ 61) :
    EncryptedData.fromBytes (utf8 "\x7b\"_id\":\"" ++ rest) = none := by
  have hread : readExact 8 (utf8 "\x7b\"_id\":\"" ++ rest) =
      some (utf8 "\x7b\"_id\":\"", rest) :=
    readExact_append (utf8 "\x7b\"_id\":\"") rest
  have hvalue : 2 ^ 61 ≤ ofLeBytes (utf8 "\x7b\"_id\":\"") := by
    decide +kernel
  have hrest : readExact (ofLeBytes (utf8 "\x7b\"_id\":\"")) rest = none := by
    rw [readExact_eq_none_iff]
    rw [List.length_append] at hlen
    omega
  have hvec : EncryptedData.readVec (utf8 "\x7b\"_id\":\"" ++ rest) = none := by
    rw [EncryptedData.readVec, hread]
    exact hrest
  rw [EncryptedData.fromBytes, hvec]
  rfl

theorem scan_not_opens (hjson : json.Lawful) {aead : Aead} {layer : PersistentLayer}
    {collection : String} {docs : List EncryptedDocumentRef}
    (h : (storage json now).scanEncryptedCollection layer collection = .ok docs)
    {doc : EncryptedDocumentRef} (hdoc : doc ∈ docs) (key plaintext : Bytes) :
    ¬ doc.Opens aead key plaintext := by
  intro hopen
  obtain ⟨-, data, hdata, -⟩ := DocumentEncryption.decrypt_eq_ok_iff.mp hopen
  simp only [storage] at h
  cases hscan : layer.scanCollection json now collection with
  | error e =>
    rw [hscan] at h
    cases h
  | ok documents =>
    rw [hscan] at h
    cases h
    obtain ⟨document, -, rfl⟩ := List.mem_map.mp hdoc
    simp only [encryptedRef] at hdata
    cases hvec : json.toVec document.id document.fields with
    | error e =>
      rw [hvec] at hdata
      cases hdata
    | ok bytes =>
      obtain ⟨rest, rfl, hlen⟩ := hjson.toVec_object hvec
      rw [hvec] at hdata
      dsimp only at hdata
      rw [fromBytes_json hlen] at hdata
      cases hdata

end HybridStorageEngine

-- The concrete codec is one the engine can rely on.
theorem nullDocuments_lawful : nullDocuments.Lawful where
  fromSlice_formFeed := by
    intro rest
    have hne : ∀ (id : DocumentId) (hasField : Bool), 12 :: rest ≠ nullJson id hasField := by
      intro id hasField h
      have hopen : utf8 "\x7b\"_id\":\"" = [123, 34, 95, 105, 100, 34, 58, 34] := by decide
      rw [nullJson, hopen] at h
      exact absurd (List.head_eq_of_cons_eq h) (by decide)
    refine ⟨"expected a document with null fields", ?_⟩
    simp only [nullDocuments, if_neg (hne _ _)]
  toVec_object := by
    intro id fields bytes h
    have hid := id.length_toChars
    simp only [nullDocuments] at h
    split at h
    all_goals cases h
    · refine ⟨asciiBytes id.toChars ++ _, List.append_assoc _ _ _, ?_⟩
      rw [nullJson, List.length_append, List.length_append, asciiBytes, List.length_map, hid]
      decide
    · refine ⟨asciiBytes id.toChars ++ _, List.append_assoc _ _ _, ?_⟩
      rw [nullJson, List.length_append, List.length_append, asciiBytes, List.length_map, hid]
      decide
    · exact ⟨utf8 "\"\x7d", by decide, by decide⟩

end VedDb
