import VedDb.Cache.Data
import VedDb.Storage.Catalogue

/-!
# The hybrid storage engine

`HybridStorageEngine` of `storage/hybrid.rs`: a cache in front of the persistent layer, steered by
the schema registered for a collection.  Outside the tests nothing registers a schema, and without
one every operation goes to the persistent layer alone.

The cache layer appears by the four operations the engine calls.
-/

namespace VedDb

/-- The operations of `CacheLayer` that the engine calls, on its state `C`. -/
structure CacheOps (C : Type) where
  get : C → String → Option CacheData × C
  setWithTtl : C → String → CacheData → Option Nat → Except String Unit × C
  remove : C → String → C
  clear : C → C

inductive WriteBehindOperation where
  | write (doc : Document)
  | delete

structure WriteBehindEntry where
  collection : String
  docId : DocumentId
  operation : WriteBehindOperation
  delayMs : Nat
  queuedAt : DateTime

/-- `HybridStorageEngine`, without its statistics and index managers. -/
structure HybridStorageEngine (C : Type) where
  cacheLayer : C
  persistentLayer : PersistentLayer
  schemas : Std.ExtTreeMap String Schema
  writeBehindQueue : List WriteBehindEntry

namespace HybridStorageEngine

variable {C : Type}

def new (cacheLayer : C) (persistentLayer : PersistentLayer) : HybridStorageEngine C :=
  { cacheLayer := cacheLayer, persistentLayer := persistentLayer, schemas := ∅,
    writeBehindQueue := [] }

def registerSchema (e : HybridStorageEngine C) (collection : String) (schema : Schema) :
    HybridStorageEngine C :=
  { e with schemas := e.schemas.insert collection schema }

/-- The outcome of a persistent operation, as the engine passes it on. -/
def persist (e : HybridStorageEngine C) (result : Except StorageError PersistentLayer) :
    Except StorageError Unit × HybridStorageEngine C :=
  match result with
  | .error error => (.error error, e)
  | .ok layer => (.ok (), { e with persistentLayer := layer })

/-! ## The cache -/

def makeCacheKey (collection : String) (docId : DocumentId) : String :=
  "doc:" ++ collection ++ ":" ++ docId.toString

def documentToCacheData (doc : Document) (schema : Schema) : CacheData :=
  match schema.cacheConfig.fields with
  | some names =>
    .hash (names.foldl (fun hash name =>
      match doc.fields[name]? with
      | some value => hash.insert name value
      | none => hash) ∅)
  | none => .hash doc.fields

def cacheDataToDocument (now : DateTime) (data : CacheData) (docId : DocumentId) :
    Except StorageError Document :=
  match data with
  | .hash fields =>
    .ok { id := docId, fields := fields, metadata := DocumentMetadata.default now }
  | _ => .error (.cache "Invalid cache data format")

section

variable (cache : CacheOps C)

def populateCache (e : HybridStorageEngine C) (collection : String) (docId : DocumentId)
    (doc : Document) (schema : Schema) : Except StorageError Unit × HybridStorageEngine C :=
  match cache.setWithTtl e.cacheLayer (makeCacheKey collection docId)
      (documentToCacheData doc schema) schema.cacheConfig.ttl with
  | (.error error, cacheLayer) => (.error (.cache error), { e with cacheLayer := cacheLayer })
  | (.ok (), cacheLayer) => (.ok (), { e with cacheLayer := cacheLayer })

def invalidateCacheEntry (e : HybridStorageEngine C) (collection : String) (docId : DocumentId) :
    HybridStorageEngine C :=
  { e with cacheLayer := cache.remove e.cacheLayer (makeCacheKey collection docId) }

/-- `invalidate_collection_cache`: the whole cache is cleared. -/
def invalidateCollectionCache (e : HybridStorageEngine C) : HybridStorageEngine C :=
  { e with cacheLayer := cache.clear e.cacheLayer }

def queueWriteBehind (e : HybridStorageEngine C) (entry : WriteBehindEntry) :
    HybridStorageEngine C :=
  { e with writeBehindQueue := e.writeBehindQueue ++ [entry] }

/-! ## Writing -/

variable (json : DocumentJson) (now : DateTime)

def writeThrough (e : HybridStorageEngine C) (collection : String) (docId : DocumentId)
    (doc : Document) (schema : Schema) : Except StorageError Unit × HybridStorageEngine C :=
  match e.persist (e.persistentLayer.insertDocument json collection docId doc) with
  | (.error error, e) => (.error error, e)
  | (.ok (), e) => e.populateCache cache collection docId doc schema

def writeBehind (e : HybridStorageEngine C) (collection : String) (docId : DocumentId)
    (doc : Document) (schema : Schema) (delayMs : Nat) :
    Except StorageError Unit × HybridStorageEngine C :=
  match e.populateCache cache collection docId doc schema with
  | (.error error, e) => (.error error, e)
  | (.ok (), e) =>
    (.ok (), e.queueWriteBehind
      { collection := collection, docId := docId, operation := .write doc,
        delayMs := delayMs, queuedAt := now })

/-- The write that `insert_document` and `update_document` share: `update_document` of the
persistent layer is its `insert_document`. -/
def writeDocument (e : HybridStorageEngine C) (collection : String) (docId : DocumentId)
    (doc : Document) : Except StorageError Unit × HybridStorageEngine C :=
  match e.schemas[collection]? with
  | none => e.persist (e.persistentLayer.insertDocument json collection docId doc)
  | some schema =>
    match schema.cacheConfig.strategy with
    | .none => e.persist (e.persistentLayer.insertDocument json collection docId doc)
    | .writeThrough => e.writeThrough cache json collection docId doc schema
    | .writeBehind delayMs => e.writeBehind cache now collection docId doc schema delayMs
    | .readThrough =>
      match e.persist (e.persistentLayer.insertDocument json collection docId doc) with
      | (.error error, e) => (.error error, e)
      | (.ok (), e) => (.ok (), e.invalidateCacheEntry cache collection docId)

/-- `insert_document`: the document is stored under its own identifier. -/
def insertDocument (e : HybridStorageEngine C) (collection : String) (doc : Document) :
    Except StorageError DocumentId × HybridStorageEngine C :=
  match e.writeDocument cache json now collection doc.id doc with
  | (.error error, e) => (.error error, e)
  | (.ok (), e) => (.ok doc.id, e)

def updateDocument (e : HybridStorageEngine C) (collection : String) (docId : DocumentId)
    (doc : Document) : Except StorageError Unit × HybridStorageEngine C :=
  e.writeDocument cache json now collection docId doc

def deleteDocument (e : HybridStorageEngine C) (collection : String) (docId : DocumentId) :
    Bool × HybridStorageEngine C :=
  let (deleted, layer) := e.persistentLayer.deleteDocument collection docId
  match e.schemas[collection]? with
  | none => (deleted, { e with persistentLayer := layer })
  | some schema =>
    match schema.cacheConfig.strategy with
    | .none => (deleted, { e with persistentLayer := layer })
    | .writeThrough | .readThrough =>
      (deleted, { e.invalidateCacheEntry cache collection docId with persistentLayer := layer })
    | .writeBehind delayMs =>
      (true, (e.invalidateCacheEntry cache collection docId).queueWriteBehind
        { collection := collection, docId := docId, operation := .delete,
          delayMs := delayMs, queuedAt := now })

/-! ## Reading -/

/-- The read of a cached collection: the cache first, and on a miss the persistent layer, whose
answer then populates the cache. -/
def getCached (e : HybridStorageEngine C) (collection : String) (docId : DocumentId)
    (schema : Schema) : Except StorageError (Option Document) × HybridStorageEngine C :=
  match cache.get e.cacheLayer (makeCacheKey collection docId) with
  | (some data, cacheLayer) =>
    ((cacheDataToDocument now data docId).map some, { e with cacheLayer := cacheLayer })
  | (none, cacheLayer) =>
    let e := { e with cacheLayer := cacheLayer }
    match e.persistentLayer.getDocument json now collection docId with
    | .error error => (.error error, e)
    | .ok none => (.ok none, e)
    | .ok (some doc) =>
      match e.populateCache cache collection docId doc schema with
      | (.error error, e) => (.error error, e)
      | (.ok (), e) => (.ok (some doc), e)

def getDocument (e : HybridStorageEngine C) (collection : String) (docId : DocumentId) :
    Except StorageError (Option Document) × HybridStorageEngine C :=
  match e.schemas[collection]? with
  | none => (e.persistentLayer.getDocument json now collection docId, e)
  | some schema =>
    match schema.cacheConfig.strategy with
    | .none => (e.persistentLayer.getDocument json now collection docId, e)
    | .writeThrough | .writeBehind _ | .readThrough =>
      e.getCached cache json now collection docId schema

/-! ## Warming -/

/-- The loop of `preload_collection` and `refresh_collection_cache`. -/
def populateAll (collection : String) (schema : Schema) : List Document → HybridStorageEngine C →
    Except StorageError Unit × HybridStorageEngine C
  | [], e => (.ok (), e)
  | doc :: docs, e =>
    match e.populateCache cache collection doc.id doc schema with
    | (.error error, e) => (.error error, e)
    | (.ok (), e) => populateAll collection schema docs e

def preloadCollection (e : HybridStorageEngine C) (collection : String) (limit : Nat) :
    Except StorageError Unit × HybridStorageEngine C :=
  match e.schemas[collection]? with
  | none => (.error .schemaNotFound, e)
  | some schema =>
    match e.persistentLayer.scanCollection json now collection with
    | .error error => (.error error, e)
    | .ok documents => populateAll cache collection schema (documents.take limit) e

def refreshCollectionCache (e : HybridStorageEngine C) (collection : String) :
    Except StorageError Unit × HybridStorageEngine C :=
  match e.schemas[collection]? with
  | none => (.error .schemaNotFound, e)
  | some schema =>
    match e.persistentLayer.scanCollection json now collection with
    | .error error => (.error error, e)
    | .ok documents => populateAll cache collection schema documents e

/-! ## Collections and indexes -/

def scanCollection (e : HybridStorageEngine C) (collection : String) :
    Except StorageError (List Document) :=
  e.persistentLayer.scanCollection json now collection

variable (catalogue : CatalogueJson)

def createCollection (e : HybridStorageEngine C) (name : String) :
    Except StorageError Unit × HybridStorageEngine C :=
  e.persist (e.persistentLayer.createCollection catalogue name)

def dropCollection (e : HybridStorageEngine C) (collection : String) :
    Except StorageError Unit × HybridStorageEngine C :=
  let e := e.invalidateCollectionCache cache
  let (result, layer) := e.persistentLayer.dropCollection catalogue collection
  (result, { e with persistentLayer := layer })

def createIndex (e : HybridStorageEngine C) (collection name : String) (fields : List IndexField)
    (unique : Bool) : Except StorageError Unit × HybridStorageEngine C :=
  e.persist (e.persistentLayer.createIndex catalogue collection name fields unique)

def dropIndex (e : HybridStorageEngine C) (collection name : String) :
    Except StorageError Unit × HybridStorageEngine C :=
  e.persist (e.persistentLayer.dropIndex catalogue collection name)

/-! ## The write-behind queue -/

def processWriteBehindEntry (e : HybridStorageEngine C) (entry : WriteBehindEntry) :
    Except StorageError Unit × HybridStorageEngine C :=
  match entry.operation with
  | .write doc =>
    e.persist (e.persistentLayer.insertDocument json entry.collection entry.docId doc)
  | .delete =>
    e.persist (.ok (e.persistentLayer.deleteDocument entry.collection entry.docId).2)

def isDue (now : DateTime) (entry : WriteBehindEntry) : Bool :=
  entry.delayMs ≤ ((now - entry.queuedAt) / 1000000).toNat

/-- One pass of `process_write_behind_queue`: the entries that are due leave the queue, and those
that fail are only reported. -/
def processWriteBehindQueue (e : HybridStorageEngine C) : HybridStorageEngine C :=
  let entries := e.writeBehindQueue.filter (isDue now)
  let queue := e.writeBehindQueue.filter fun entry => !isDue now entry
  entries.foldl (fun e entry => (e.processWriteBehindEntry json entry).2)
    { e with writeBehindQueue := queue }

/-- The loop of `flush`: the first entry that fails ends it, and those behind it are lost. -/
def processQueue : List WriteBehindEntry → HybridStorageEngine C →
    Except StorageError Unit × HybridStorageEngine C
  | [], e => (.ok (), e)
  | entry :: entries, e =>
    match e.processWriteBehindEntry json entry with
    | (.error error, e) => (.error error, e)
    | (.ok (), e) => processQueue entries e

def flush (e : HybridStorageEngine C) : Except StorageError Unit × HybridStorageEngine C :=
  processQueue json e.writeBehindQueue { e with writeBehindQueue := [] }

end

/-! ## Engines without schemas -/

/-- What holds of every engine that no schema was registered with. -/
structure Plain (e : HybridStorageEngine C) : Prop where
  schemas_eq : e.schemas = ∅
  queue_eq : e.writeBehindQueue = []

theorem plain_new (cacheLayer : C) (layer : PersistentLayer) : (new cacheLayer layer).Plain :=
  ⟨rfl, rfl⟩

namespace Plain

variable {e : HybridStorageEngine C} (h : e.Plain)

include h

theorem schema_eq_none (collection : String) : e.schemas[collection]? = none := by
  rw [h.schemas_eq, Std.ExtTreeMap.getElem?_empty]

theorem persist (result : Except StorageError PersistentLayer) : (e.persist result).2.Plain := by
  unfold HybridStorageEngine.persist
  cases result with
  | error error => exact h
  | ok layer => exact ⟨h.schemas_eq, h.queue_eq⟩

variable (cache : CacheOps C) (json : DocumentJson) (now : DateTime)

theorem updateDocument_eq (collection : String) (docId : DocumentId) (doc : Document) :
    e.updateDocument cache json now collection docId doc =
      e.persist (e.persistentLayer.insertDocument json collection docId doc) := by
  simp only [updateDocument, writeDocument, h.schema_eq_none]

theorem insertDocument_eq (collection : String) (doc : Document) :
    (e.insertDocument cache json now collection doc).2 =
      (e.persist (e.persistentLayer.insertDocument json collection doc.id doc)).2 := by
  simp only [insertDocument, writeDocument, h.schema_eq_none]
  rcases e.persist (e.persistentLayer.insertDocument json collection doc.id doc) with
    ⟨error | ok, e'⟩
  · rfl
  · rfl

theorem getDocument_eq (collection : String) (docId : DocumentId) :
    e.getDocument cache json now collection docId =
      (e.persistentLayer.getDocument json now collection docId, e) := by
  simp only [getDocument, h.schema_eq_none]

theorem deleteDocument_eq (collection : String) (docId : DocumentId) :
    e.deleteDocument cache now collection docId =
      ((e.persistentLayer.deleteDocument collection docId).1,
        { e with persistentLayer := (e.persistentLayer.deleteDocument collection docId).2 }) := by
  simp only [deleteDocument, h.schema_eq_none]

theorem flush_eq : e.flush json = (.ok (), e) := by
  have hqueue : { e with writeBehindQueue := [] } = e := by
    rw [← h.queue_eq]
  rw [flush, h.queue_eq, processQueue, hqueue]

end Plain

end HybridStorageEngine

/-!
## What the strategies make of a write

Under every cache strategy but write-behind a document is written and deleted in the persistent
layer at once.  Where the new document goes to the cache as well, the cache has the last word on
what is reported.
-/

namespace HybridStorageEngine

variable {C : Type} (cache : CacheOps C) (collection : String)

/-- Writes of the collection wait in the queue before they go to the persistent layer. -/
def queues (e : HybridStorageEngine C) : Bool :=
  match e.schemas[collection]? with
  | none => false
  | some schema =>
    match schema.cacheConfig.strategy with
    | .writeBehind _ => true
    | .none | .writeThrough | .readThrough => false

/-- What the cache says to a document that is written, and what it holds then. -/
def cacheWrite (schema : Option Schema) (docId : DocumentId) (doc : Document) (state : C) :
    Except String Unit × C :=
  match schema with
  | none => (.ok (), state)
  | some schema =>
    match schema.cacheConfig.strategy with
    | .none => (.ok (), state)
    | .readThrough => (.ok (), cache.remove state (makeCacheKey collection docId))
    | .writeThrough | .writeBehind _ =>
      cache.setWithTtl state (makeCacheKey collection docId) (documentToCacheData doc schema)
        schema.cacheConfig.ttl

def refusals (schema : Option Schema) (new : DocumentId → Document) : List DocumentId → C → Nat
  | [], _ => 0
  | id :: ids, state =>
    match cacheWrite cache collection schema id (new id) state with
    | (.error _, state) => refusals schema new ids state + 1
    | (.ok (), state) => refusals schema new ids state

theorem refusals_le (schema : Option Schema) (new : DocumentId → Document) (ids : List DocumentId)
    (state : C) : refusals cache collection schema new ids state ≤ ids.length := by
  induction ids generalizing state with
  | nil => exact Nat.le_refl 0
  | cons id ids ih =>
    rw [refusals, List.length_cons]
    split
    · exact Nat.succ_le_succ (ih _)
    · exact Nat.le_succ_of_le (ih _)

variable (json : DocumentJson) (now : DateTime) (e : HybridStorageEngine C) (docId : DocumentId)

theorem updateDocument_spec {doc : Document} {layer : PersistentLayer}
    (hinsert : e.persistentLayer.insertDocument json collection docId doc = .ok layer) :
    ∃ added, e.updateDocument cache json now collection docId doc =
      ((cacheWrite cache collection e.schemas[collection]? docId doc e.cacheLayer).1.mapError
        .cache,
       { e with
          cacheLayer :=
            (cacheWrite cache collection e.schemas[collection]? docId doc e.cacheLayer).2
          persistentLayer := if e.queues collection then e.persistentLayer else layer
          writeBehindQueue := e.writeBehindQueue ++ added }) ∧
      (added = [] ↔ e.queues collection = false ∨
        (cacheWrite cache collection e.schemas[collection]? docId doc e.cacheLayer).1 ≠
          .ok ()) := by
  cases hschema : e.schemas[collection]? with
  | none =>
    refine ⟨[], ?_, ?_⟩
    · simp [updateDocument, writeDocument, queues, cacheWrite, hschema, hinsert, persist,
        Except.mapError]
    · simp [queues, hschema]
  | some schema =>
    cases hstrategy : schema.cacheConfig.strategy with
    | none =>
      refine ⟨[], ?_, ?_⟩
      · simp [updateDocument, writeDocument, queues, cacheWrite, hschema, hstrategy, hinsert,
          persist, Except.mapError]
      · simp [queues, hschema, hstrategy]
    | readThrough =>
      refine ⟨[], ?_, ?_⟩
      · simp [updateDocument, writeDocument, queues, cacheWrite, hschema, hstrategy, hinsert,
          persist, Except.mapError, invalidateCacheEntry]
      · simp [queues, hschema, hstrategy]
    | writeThrough =>
      refine ⟨[], ?_, ?_⟩
      · simp only [updateDocument, writeDocument, queues, cacheWrite, hschema, hstrategy,
          writeThrough, hinsert, persist, populateCache]
        rcases cache.setWithTtl e.cacheLayer (makeCacheKey collection docId)
          (documentToCacheData doc schema) schema.cacheConfig.ttl with ⟨error | ok, state⟩
        · simp [Except.mapError]
        · simp [Except.mapError]
      · simp [queues, hschema, hstrategy]
    | writeBehind delayMs =>
      simp only [updateDocument, writeDocument, queues, cacheWrite, hschema, hstrategy,
        writeBehind, populateCache]
      rcases cache.setWithTtl e.cacheLayer (makeCacheKey collection docId)
        (documentToCacheData doc schema) schema.cacheConfig.ttl with ⟨error | ok, state⟩
      · exact ⟨[], by simp [Except.mapError], by simp⟩
      · exact ⟨[⟨collection, docId, .write doc, delayMs, now⟩],
          by simp [Except.mapError, queueWriteBehind], by simp⟩

theorem deleteDocument_spec :
    ∃ state added, e.deleteDocument cache now collection docId =
      (e.queues collection || (e.persistentLayer.deleteDocument collection docId).1,
       { e with
          cacheLayer := state
          persistentLayer := if e.queues collection then e.persistentLayer
            else (e.persistentLayer.deleteDocument collection docId).2
          writeBehindQueue := e.writeBehindQueue ++ added }) ∧
      (added = [] ↔ e.queues collection = false) := by
  cases hschema : e.schemas[collection]? with
  | none =>
    exact ⟨e.cacheLayer, [], by simp [deleteDocument, queues, hschema], by simp [queues, hschema]⟩
  | some schema =>
    cases hstrategy : schema.cacheConfig.strategy with
    | none =>
      exact ⟨e.cacheLayer, [], by simp [deleteDocument, queues, hschema, hstrategy],
        by simp [queues, hschema, hstrategy]⟩
    | readThrough | writeThrough =>
      exact ⟨cache.remove e.cacheLayer (makeCacheKey collection docId), [],
        by simp [deleteDocument, queues, hschema, hstrategy, invalidateCacheEntry],
        by simp [queues, hschema, hstrategy]⟩
    | writeBehind delayMs =>
      exact ⟨cache.remove e.cacheLayer (makeCacheKey collection docId),
        [⟨collection, docId, .delete, delayMs, now⟩],
        by simp [deleteDocument, queues, hschema, hstrategy, invalidateCacheEntry,
          queueWriteBehind],
        by simp [queues, hschema, hstrategy]⟩

end HybridStorageEngine

end VedDb
