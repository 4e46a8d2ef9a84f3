import VedDb.Replication.FullSync

/-!
# Operations, one document at a time

What is read under a key after an operation depends on the operation and on what was read there
before, and on nothing else of the store.  Two stores that read alike therefore go on reading alike,
whatever their metadata, the encoding of their documents and the clock.
-/

namespace VedDb

open LittleEndian (Bytes)
open PersistentLayer (makeDocumentKey)

abbrev KeyRead := Option (Except String (DocumentId × Fields))

/-- What is read where a document is written; one that cannot be encoded is not. -/
def readWritten (json : DocumentJson) (read : KeyRead) (id : DocumentId) (fields : Fields) :
    KeyRead :=
  match json.toVec id fields with
  | .error _ => read
  | .ok value => some (json.fromSlice value)

def Operation.readAfter (json : DocumentJson) (key : Bytes) (read : KeyRead) : Operation → KeyRead
  | .insert collection id fields =>
    if makeDocumentKey collection id = key then readWritten json read id fields else read
  | .update collection id changes =>
    if makeDocumentKey collection id = key then
      match read with
      | some (.ok (own, fields)) => readWritten json read own (fields.insertMany changes.toList)
      | _ => read
    else read
  | .delete collection id => if makeDocumentKey collection id = key then none else read
  | .dropCollection name => if (utf8 (name ++ ":")).isPrefixOf key then none else read
  | .createCollection _ _ => read
  | .createIndex _ _ => read
  | .dropIndex _ _ => read

def ReadsAlike (json : DocumentJson) (a b : PersistentLayer) : Prop :=
  ∀ collection id,
    a.decoded json (makeDocumentKey collection id) = b.decoded json (makeDocumentKey collection id)

/-! ## What a replica reads -/

namespace PersistentLayer

theorem decoded_keep_insertDocument (json : DocumentJson) (layer : PersistentLayer)
    (collection : String) (id : DocumentId) (doc : Document) (key : Bytes) :
    (layer.keep (layer.insertDocument json collection id doc)).decoded json key =
      if makeDocumentKey collection id = key
      then readWritten json (layer.decoded json key) doc.id doc.fields
      else layer.decoded json key := by
  unfold insertDocument readWritten
  cases json.toVec doc.id doc.fields with
  | error e =>
    dsimp only [keep]
    split
    · rfl
    · rfl
  | ok value => exact decoded_insert json layer _ value key

theorem createIndex_documents (catalogue : CatalogueJson) (layer : PersistentLayer)
    (collection name : String) (fields : List IndexField) (unique : Bool) :
    (layer.keep (layer.createIndex catalogue collection name fields unique)).documents =
      layer.documents := by
  unfold createIndex saveIndexesList
  cases layer.getIndexesList catalogue collection with
  | error e => rfl
  | ok indexes =>
    dsimp only
    split
    · rfl
    · cases catalogue.indexesToVec (indexes ++ [indexJson name fields unique]) with
      | error e => rfl
      | ok data => rfl

theorem dropIndex_documents (catalogue : CatalogueJson) (layer : PersistentLayer)
    (collection name : String) :
    (layer.keep (layer.dropIndex catalogue collection name)).documents = layer.documents := by
  unfold dropIndex saveIndexesList
  cases layer.getIndexesList catalogue collection with
  | error e => rfl
  | ok indexes =>
    dsimp only
    cases indexes.findIdx? (isIndexNamed name) with
    | none => rfl
    | some pos =>
      dsimp only
      cases catalogue.indexesToVec (indexes.eraseIdx pos) with
      | error e => rfl
      | ok data => rfl

end PersistentLayer

-- An update reads the document, and writes it back with the changes.
theorem decoded_update (json : DocumentJson) (now : DateTime) (layer : PersistentLayer)
    (collection : String) (id : DocumentId) (changes : Fields) (key : Bytes) :
    (applyOrSkip json now layer (.update collection id changes)).decoded json key =
      Operation.readAfter json key (layer.decoded json key) (.update collection id changes) := by
  unfold Operation.readAfter applyOrSkip applyOperation
  dsimp only
  rw [PersistentLayer.getDocument_eq_documentOf]
  by_cases hkey : makeDocumentKey collection id = key
  · rw [if_pos hkey, hkey]
    rcases hread : layer.decoded json key with - | e | ⟨own, fields⟩
    · exact hread
    · exact hread
    · have hwritten := PersistentLayer.decoded_keep_insertDocument json layer collection id
        (Document.applyChanges now
          { id := own, fields := fields, metadata := DocumentMetadata.default now } changes) key
      rw [if_pos hkey, hread, Document.applyChanges_id, Document.applyChanges_fields] at hwritten
      exact hwritten
  · rw [if_neg hkey]
    rcases layer.decoded json (makeDocumentKey collection id) with - | e | ⟨own, fields⟩
    · rfl
    · rfl
    · have hwritten := PersistentLayer.decoded_keep_insertDocument json layer collection id
        (Document.applyChanges now
          { id := own, fields := fields, metadata := DocumentMetadata.default now } changes) key
      rw [if_neg hkey] at hwritten
      exact hwritten

section

variable {C : Type} (env : StorageEnv C) (now : DateTime) (layer : PersistentLayer)

theorem decoded_replicaOperation (operation : Operation) (key : Bytes) :
    (replicaOperation env now layer operation).decoded env.json key =
      operation.readAfter env.json key (layer.decoded env.json key) := by
  cases operation with
  | insert collection id fields =>
    exact PersistentLayer.decoded_keep_insertDocument env.json layer collection id _ key
  | update collection id changes =>
    exact decoded_update env.json now layer collection id changes key
  | delete collection id => exact layer.decoded_deleteDocument env.json collection id key
  | createCollection name schema =>
    exact PersistentLayer.decoded_congr (createCollection_documents env.catalogue layer name) key
  | dropCollection name =>
    simp only [replicaOperation, PersistentLayer.dropCollection_eq, Operation.readAfter]
    have hdocs : (((layer.removeDocuments name).deleteMetadata
        ("collection:" ++ name)).deleteMetadata ("indexes:" ++ name)).documents =
          (layer.removeDocuments name).documents := rfl
    rw [PersistentLayer.decoded_congr hdocs, PersistentLayer.decoded,
      PersistentLayer.getElem?_removeDocuments]
    split
    · rfl
    · rfl
  | createIndex collection index =>
    simp only [replicaOperation, Operation.readAfter]
    cases index.indexType.toIndexFields with
    | none => rfl
    | some fields =>
      exact PersistentLayer.decoded_congr
        (layer.createIndex_documents env.catalogue collection index.name fields index.unique)
        key
  | dropIndex collection indexName =>
    exact PersistentLayer.decoded_congr
      (layer.dropIndex_documents env.catalogue collection indexName) key

-- Nothing of an operation depends on the clock.
theorem replicaOperation_now (later : DateTime) (operation : Operation) :
    replicaOperation env now layer operation = replicaOperation env later layer operation := by
  cases operation with
  | update collection id changes =>
    simp only [replicaOperation, applyOrSkip, applyOperation,
      PersistentLayer.getDocument_eq_documentOf]
    rcases layer.decoded env.json (makeDocumentKey collection id) with - | e | ⟨own, fields⟩
    · rfl
    · rfl
    · simp only [PersistentLayer.documentOf, PersistentLayer.updateDocument,
        PersistentLayer.insertDocument, Document.applyChanges_id, Document.applyChanges_fields]
  | insert collection id fields => rfl
  | delete collection id => rfl
  | createCollection name schema => rfl
  | dropCollection name => rfl
  | createIndex collection index => rfl
  | dropIndex collection indexName => rfl

end

/-! ## Operations that fail -/

/-- `apply_wal_entry` succeeds on the operation. -/
def Operation.Applicable {C : Type} (env : StorageEnv C) (layer : PersistentLayer) :
    Operation → Prop
  | .insert _ id fields => ∃ value, env.json.toVec id fields = .ok value
  | .update collection id changes =>
    layer.decoded env.json (makeDocumentKey collection id) = none ∨
      ∃ own fields value,
        layer.decoded env.json (makeDocumentKey collection id) = some (.ok (own, fields)) ∧
          env.json.toVec own (fields.insertMany changes.toList) = .ok value
  | .createCollection name _ => ∃ after, layer.createCollection env.catalogue name = .ok after
  | .createIndex collection index =>
    ∀ fields, index.indexType.toIndexFields = some fields →
      ∃ after, layer.createIndex env.catalogue collection index.name fields index.unique =
        .ok after
  | .dropIndex collection indexName =>
    ∃ after, layer.dropIndex env.catalogue collection indexName = .ok after
  | .delete _ _ => True
  | .dropCollection _ => True

section

variable {C : Type} {env : StorageEnv C} {now : DateTime} {e : HybridStorageEngine C}

theorem storageResult_persist (result : Except StorageError PersistentLayer) :
    ((∃ layer, result = .ok layer) ∧ ∃ e', storageResult (e.persist result) = (.ok (), e')) ∨
      (¬∃ layer, result = .ok layer) ∧
        ∃ error, storageResult (e.persist result) = (.error error, e) := by
  cases result with
  | error error => exact .inr ⟨by simp, .storageError error.message, rfl⟩
  | ok layer => exact .inl ⟨⟨layer, rfl⟩, _, rfl⟩

-- An operation that fails leaves the engine as it was.
theorem applyWalEntry_cases (h : e.Plain) (operation : Operation) :
    (operation.Applicable env e.persistentLayer ∧
        ∃ e', applyWalEntry env now e operation = (.ok (), e')) ∨
      ¬operation.Applicable env e.persistentLayer ∧
        ∃ error, applyWalEntry env now e operation = (.error error, e) := by
  cases operation with
  | insert collection id fields =>
    simp only [applyWalEntry, Operation.Applicable, HybridStorageEngine.insertDocument,
      HybridStorageEngine.writeDocument, h.schema_eq_none, PersistentLayer.insertDocument]
    cases env.json.toVec id fields with
    | error cause =>
      exact .inr ⟨by simp, .storageError (StorageError.serializeDocument cause).message, rfl⟩
    | ok value => exact .inl ⟨⟨value, rfl⟩, _, rfl⟩
  | update collection id changes =>
    simp only [applyWalEntry, Operation.Applicable, h.getDocument_eq,
      PersistentLayer.getDocument_eq_documentOf]
    rcases e.persistentLayer.decoded env.json (makeDocumentKey collection id) with
      - | cause | ⟨own, fields⟩
    · exact .inl ⟨.inl rfl, e, rfl⟩
    · exact .inr ⟨by simp, .storageError (StorageError.deserializeDocument cause).message, rfl⟩
    · simp only [PersistentLayer.documentOf, h.updateDocument_eq, PersistentLayer.insertDocument,
        Document.applyChanges_id, Document.applyChanges_fields]
      cases hto : env.json.toVec own (fields.insertMany changes.toList) with
      | error cause =>
        refine .inr ⟨?_, .storageError (StorageError.serializeDocument cause).message, rfl⟩
        simp [hto]
      | ok value => exact .inl ⟨.inr ⟨own, fields, value, rfl, hto⟩, _, rfl⟩
  | delete collection id => exact .inl ⟨trivial, _, rfl⟩
  | createCollection name schema => exact storageResult_persist _
  | dropCollection name =>
    simp only [applyWalEntry, HybridStorageEngine.dropCollection,
      PersistentLayer.dropCollection_eq]
    exact .inl ⟨trivial, _, rfl⟩
  | createIndex collection index =>
    simp only [applyWalEntry, Operation.Applicable]
    cases hfields : index.indexType.toIndexFields with
    | none => exact .inl ⟨by simp, e, rfl⟩
    | some fields =>
      simp only [Option.some.injEq, forall_eq']
      exact storageResult_persist _
  | dropIndex collection indexName => exact storageResult_persist _

end

end VedDb
