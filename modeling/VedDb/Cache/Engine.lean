import VedDb.Cache.CacheLayer
import VedDb.Storage.Refinement

/-!
# The engine over its cache

The calls that the hybrid engine serves over the cache layer, and what its background tasks do, each
as one step at one instant.
-/

namespace VedDb

open HybridStorageEngine (makeCacheKey documentToCacheData)
open PersistentLayer (makeDocumentKey)

/-- What a call meets: the time of the clock, and the order the cache is iterated in. -/
structure Moment where
  now : DateTime
  order : CacheOrder

def Moment.ops (moment : Moment) : CacheOps CacheLayer := CacheLayer.ops moment.order moment.now

inductive EngineCall where
  | registerSchema (collection : String) (schema : Schema)
  | insert (collection : String) (doc : Document)
  | update (collection : String) (docId : DocumentId) (doc : Document)
  | delete (collection : String) (docId : DocumentId)
  | get (collection : String) (docId : DocumentId)
  /-- Entries of the cache expire. -/
  | expire
  /-- The cache evicts entries until the bytes are free. -/
  | evict (target : UInt64)
  | preload (collection : String) (limit : Nat)
  | refresh (collection : String)
  /-- A pass over the write-behind queue. -/
  | processQueue
  | flush
  | dropCollection (collection : String)

inductive EngineReply where
  | written (result : Except StorageError Unit)
  | deleted (existed : Bool)
  | found (result : Except StorageError (Option Document))
  | done

abbrev CachedEngine := HybridStorageEngine CacheLayer

namespace CachedEngine

/-- `HybridStorageEngine::new` on an empty data directory, with schemas that are registered before
any other call. -/
def new (config : CacheConfig) (schemas : Std.ExtTreeMap String Schema) : CachedEngine :=
  { HybridStorageEngine.new (CacheLayer.new config) PersistentLayer.empty with schemas := schemas }

variable (json : DocumentJson) (catalogue : CatalogueJson)

def call (e : CachedEngine) (moment : Moment) : EngineCall → EngineReply × CachedEngine
  | .registerSchema collection schema => (.done, e.registerSchema collection schema)
  | .insert collection doc =>
    let (result, e) := e.insertDocument moment.ops json moment.now collection doc
    (.written (result.map fun _ => ()), e)
  | .update collection docId doc =>
    let (result, e) := e.updateDocument moment.ops json moment.now collection docId doc
    (.written result, e)
  | .delete collection docId =>
    let (existed, e) := e.deleteDocument moment.ops moment.now collection docId
    (.deleted existed, e)
  | .get collection docId =>
    let (result, e) := e.getDocument moment.ops json moment.now collection docId
    (.found result, e)
  | .expire => (.done, { e with cacheLayer := e.cacheLayer.evictExpired moment.now })
  | .evict target =>
    (.done, { e with cacheLayer := e.cacheLayer.evictByPolicy moment.order moment.now target })
  | .preload collection limit =>
    (.done, (e.preloadCollection moment.ops json moment.now collection limit).2)
  | .refresh collection =>
    (.done, (e.refreshCollectionCache moment.ops json moment.now collection).2)
  | .processQueue => (.done, e.processWriteBehindQueue json moment.now)
  | .flush => (.done, (e.flush json).2)
  | .dropCollection collection => (.done, (e.dropCollection moment.ops catalogue collection).2)

def after (e : CachedEngine) (op : Moment × EngineCall) : CachedEngine :=
  (e.call json catalogue op.1 op.2).2

theorem insert_eq (e : CachedEngine) (moment : Moment) (collection : String) (doc : Document) :
    e.call json catalogue moment (.insert collection doc) =
      e.call json catalogue moment (.update collection doc.id doc) := by
  simp only [call, HybridStorageEngine.insertDocument, HybridStorageEngine.updateDocument]
  split
  · next h =>
      rw [h]
      rfl
  · next h =>
      rw [h]
      rfl

end CachedEngine

/-! ## Runs -/

/-- What a call that succeeds makes of the documents. -/
def Database.afterCall (db : Database) : EngineCall → Database
  | .insert collection doc => db.insert collection doc.id doc.content
  | .update collection docId doc => db.insert collection docId doc.content
  | .delete collection docId => db.erase collection docId
  | .dropCollection collection => db.drop collection
  | .registerSchema _ _ | .get _ _ | .expire | .evict _ | .preload _ _ | .refresh _
  | .processQueue | .flush => db

/-- The engine, next to the documents that were written to it. -/
abbrev EngineRun := CachedEngine × Database

def EngineRun.step (json : DocumentJson) (catalogue : CatalogueJson) (run : EngineRun)
    (op : Moment × EngineCall) : EngineRun :=
  ((run.1.call json catalogue op.1 op.2).2, run.2.afterCall op.2)

/-- A read that succeeds returns the last version of the document that was written. -/
def EngineRun.Reads (json : DocumentJson) (catalogue : CatalogueJson) (run : EngineRun)
    (op : Moment × EngineCall) : Prop :=
  ∀ collection docId doc, op.2 = .get collection docId →
    (run.1.call json catalogue op.1 op.2).1 = .found (.ok doc) →
    doc.map Document.content = run.2 collection docId

/-! ## What the engine does to the cache -/

namespace CachedEngine

variable {json : DocumentJson} {e : CachedEngine} {moment : Moment} {collection : String}
  {docId : DocumentId} {doc : Document} {schema : Schema}

/-- The cache after a document was put into it, and whether that succeeded. -/
def setDocument (layer : CacheLayer) (moment : Moment) (collection : String) (docId : DocumentId)
    (doc : Document) (schema : Schema) : Except String Unit × CacheLayer :=
  layer.setWithTtl moment.order moment.now (makeCacheKey collection docId)
    (documentToCacheData doc schema) schema.cacheConfig.ttl

theorem setDocument_eq_ok_iff {layer : CacheLayer} :
    (setDocument layer moment collection docId doc schema).1 = .ok () ↔
      layer.Fits (documentToCacheData doc schema) :=
  CacheLayer.setWithTtl_eq_ok_iff

-- A document that fits is cached.
theorem peek_setDocument_self {layer : CacheLayer}
    (h : layer.Fits (documentToCacheData doc schema)) :
    (setDocument layer moment collection docId doc schema).2.peek
      (makeCacheKey collection docId) = some (documentToCacheData doc schema) :=
  CacheLayer.peek_setWithTtl_self (setDocument_eq_ok_iff.mpr h)

-- No other value is cached than before.
theorem peek_setDocument_other {layer : CacheLayer} {key : String} {data : CacheData}
    (hkey : key ≠ makeCacheKey collection docId)
    (h : (setDocument layer moment collection docId doc schema).2.peek key = some data) :
    layer.peek key = some data :=
  (CacheLayer.peek_setWithTtl h).resolve_left fun hown => hkey hown.1

theorem setDocument_of_not_fits {layer : CacheLayer}
    (h : ¬layer.Fits (documentToCacheData doc schema)) :
    setDocument layer moment collection docId doc schema =
      (.error "Cache is full and eviction is disabled",
        layer.recordExpiry (makeCacheKey collection docId)
          (CacheLayer.cachedValue moment.now (documentToCacheData doc schema)
            schema.cacheConfig.ttl).expiresAt) :=
  CacheLayer.setWithTtl_of_not_fits h

theorem populateCache_eq :
    e.populateCache moment.ops collection docId doc schema =
      ((setDocument e.cacheLayer moment collection docId doc schema).1.mapError .cache,
        { e with
          cacheLayer := (setDocument e.cacheLayer moment collection docId doc schema).2 }) := by
  have hset : moment.ops.setWithTtl e.cacheLayer (makeCacheKey collection docId)
      (documentToCacheData doc schema) schema.cacheConfig.ttl =
      setDocument e.cacheLayer moment collection docId doc schema := rfl
  unfold HybridStorageEngine.populateCache
  rw [hset]
  split
  · next h =>
      rw [h]
      rfl
  · next h =>
      rw [h]
      rfl

/-- What each document that is put into the cache keeps of the cache, all of them keep. -/
theorem populateAll_cache {P : CacheLayer → Prop} {docs : List Document}
    (hset : ∀ layer, ∀ doc ∈ docs, P layer →
      P (setDocument layer moment collection doc.id doc schema).2) (h : P e.cacheLayer) :
    ∃ cacheLayer, P cacheLayer ∧
      (HybridStorageEngine.populateAll moment.ops collection schema docs e).2 =
        { e with cacheLayer := cacheLayer } := by
  induction docs generalizing e with
  | nil => exact ⟨e.cacheLayer, h, rfl⟩
  | cons doc docs ih =>
    have hone := hset e.cacheLayer doc List.mem_cons_self h
    rw [HybridStorageEngine.populateAll, populateCache_eq]
    cases hresult : (setDocument e.cacheLayer moment collection doc.id doc schema).1 with
    | error error => exact ⟨_, hone, rfl⟩
    | ok result =>
      obtain ⟨cacheLayer, hcache, heq⟩ := ih
        (e := { e with
          cacheLayer := (setDocument e.cacheLayer moment collection doc.id doc schema).2 })
        (fun layer own hown => hset layer own (List.mem_cons_of_mem _ hown)) hone
      exact ⟨cacheLayer, hcache, heq⟩

-- The documents that a warming puts into the cache are those of a scan.
theorem preload_cache {P : CacheLayer → Prop} {limit : Nat}
    (hset : ∀ schema docs layer, e.schemas[collection]? = some schema →
      e.persistentLayer.scanCollection json moment.now collection = .ok docs →
      ∀ doc ∈ docs.take limit, P layer →
        P (setDocument layer moment collection doc.id doc schema).2)
    (h : P e.cacheLayer) :
    ∃ cacheLayer, P cacheLayer ∧
      (e.preloadCollection moment.ops json moment.now collection limit).2 =
        { e with cacheLayer := cacheLayer } := by
  unfold HybridStorageEngine.preloadCollection
  split
  · exact ⟨e.cacheLayer, h, rfl⟩
  · next schema hschema =>
      split
      · exact ⟨e.cacheLayer, h, rfl⟩
      · next docs hscan =>
          exact populateAll_cache (fun layer => hset schema docs layer hschema hscan) h

theorem refresh_cache {P : CacheLayer → Prop}
    (hset : ∀ schema docs layer, e.schemas[collection]? = some schema →
      e.persistentLayer.scanCollection json moment.now collection = .ok docs →
      ∀ doc ∈ docs, P layer → P (setDocument layer moment collection doc.id doc schema).2)
    (h : P e.cacheLayer) :
    ∃ cacheLayer, P cacheLayer ∧
      (e.refreshCollectionCache moment.ops json moment.now collection).2 =
        { e with cacheLayer := cacheLayer } := by
  unfold HybridStorageEngine.refreshCollectionCache
  split
  · exact ⟨e.cacheLayer, h, rfl⟩
  · next schema hschema =>
      split
      · exact ⟨e.cacheLayer, h, rfl⟩
      · next docs hscan =>
          exact populateAll_cache (fun layer => hset schema docs layer hschema hscan) h

/-! ## What a write does -/

/-- The collection is served from the persistent layer alone. -/
def Uncached (e : CachedEngine) (collection : String) : Prop :=
  ∀ schema, e.schemas[collection]? = some schema → schema.cacheConfig.strategy = .none

theorem uncached_or_cached (e : CachedEngine) (collection : String) :
    Uncached e collection ∨
      ∃ schema, e.schemas[collection]? = some schema ∧ schema.cacheConfig.strategy ≠ .none := by
  by_cases h : Uncached e collection
  · exact .inl h
  · simp only [Uncached, not_forall] at h
    obtain ⟨schema, hschema, hstrategy⟩ := h
    exact .inr ⟨schema, hschema, hstrategy⟩

theorem updateDocument_uncached (h : Uncached e collection) :
    e.updateDocument moment.ops json moment.now collection docId doc =
      e.persist (e.persistentLayer.insertDocument json collection docId doc) := by
  unfold HybridStorageEngine.updateDocument HybridStorageEngine.writeDocument
  cases hschema : e.schemas[collection]? with
  | none => rfl
  | some schema => simp only [h schema hschema]

theorem updateDocument_writeThrough {layer : PersistentLayer}
    (hschema : e.schemas[collection]? = some schema)
    (hstrategy : schema.cacheConfig.strategy = .writeThrough)
    (hinsert : e.persistentLayer.insertDocument json collection docId doc = .ok layer) :
    e.updateDocument moment.ops json moment.now collection docId doc =
      ((setDocument e.cacheLayer moment collection docId doc schema).1.mapError .cache,
        { e with
          persistentLayer := layer
          cacheLayer := (setDocument e.cacheLayer moment collection docId doc schema).2 }) := by
  unfold HybridStorageEngine.updateDocument HybridStorageEngine.writeDocument
  simp only [hschema, hstrategy, HybridStorageEngine.writeThrough, hinsert,
    HybridStorageEngine.persist, populateCache_eq]

theorem updateDocument_writeThrough_error {error : StorageError}
    (hschema : e.schemas[collection]? = some schema)
    (hstrategy : schema.cacheConfig.strategy = .writeThrough)
    (hinsert : e.persistentLayer.insertDocument json collection docId doc = .error error) :
    e.updateDocument moment.ops json moment.now collection docId doc = (.error error, e) := by
  unfold HybridStorageEngine.updateDocument HybridStorageEngine.writeDocument
  simp only [hschema, hstrategy, HybridStorageEngine.writeThrough, hinsert,
    HybridStorageEngine.persist]

theorem updateDocument_readThrough {layer : PersistentLayer}
    (hschema : e.schemas[collection]? = some schema)
    (hstrategy : schema.cacheConfig.strategy = .readThrough)
    (hinsert : e.persistentLayer.insertDocument json collection docId doc = .ok layer) :
    e.updateDocument moment.ops json moment.now collection docId doc =
      (.ok (), { e with
        persistentLayer := layer
        cacheLayer := (e.cacheLayer.remove (makeCacheKey collection docId)).2 }) := by
  unfold HybridStorageEngine.updateDocument HybridStorageEngine.writeDocument
  simp only [hschema, hstrategy, hinsert, HybridStorageEngine.persist]
  rfl

theorem updateDocument_readThrough_error {error : StorageError}
    (hschema : e.schemas[collection]? = some schema)
    (hstrategy : schema.cacheConfig.strategy = .readThrough)
    (hinsert : e.persistentLayer.insertDocument json collection docId doc = .error error) :
    e.updateDocument moment.ops json moment.now collection docId doc = (.error error, e) := by
  unfold HybridStorageEngine.updateDocument HybridStorageEngine.writeDocument
  simp only [hschema, hstrategy, hinsert, HybridStorageEngine.persist]

def queuedEntry (moment : Moment) (collection : String) (docId : DocumentId)
    (operation : WriteBehindOperation) (delayMs : Nat) : WriteBehindEntry :=
  { collection := collection, docId := docId, operation := operation, delayMs := delayMs,
    queuedAt := moment.now }

theorem updateDocument_writeBehind {delayMs : Nat}
    (hschema : e.schemas[collection]? = some schema)
    (hstrategy : schema.cacheConfig.strategy = .writeBehind delayMs)
    (hfits : e.cacheLayer.Fits (documentToCacheData doc schema)) :
    e.updateDocument moment.ops json moment.now collection docId doc =
      (.ok (), { e with
        cacheLayer := (setDocument e.cacheLayer moment collection docId doc schema).2
        writeBehindQueue := e.writeBehindQueue ++
          [queuedEntry moment collection docId (.write doc) delayMs] }) := by
  have hset : (setDocument e.cacheLayer moment collection docId doc schema).1 = .ok () :=
    setDocument_eq_ok_iff.mpr hfits
  unfold HybridStorageEngine.updateDocument HybridStorageEngine.writeDocument
  simp only [hschema, hstrategy, HybridStorageEngine.writeBehind, populateCache_eq, hset]
  rfl

theorem updateDocument_writeBehind_error {delayMs : Nat}
    (hschema : e.schemas[collection]? = some schema)
    (hstrategy : schema.cacheConfig.strategy = .writeBehind delayMs)
    (hfits : ¬e.cacheLayer.Fits (documentToCacheData doc schema)) :
    e.updateDocument moment.ops json moment.now collection docId doc =
      (.error (.cache "Cache is full and eviction is disabled"), { e with
        cacheLayer := (setDocument e.cacheLayer moment collection docId doc schema).2 }) := by
  have hset : (setDocument e.cacheLayer moment collection docId doc schema).1 =
      .error "Cache is full and eviction is disabled" :=
    congrArg Prod.fst (setDocument_of_not_fits hfits)
  unfold HybridStorageEngine.updateDocument HybridStorageEngine.writeDocument
  simp only [hschema, hstrategy, HybridStorageEngine.writeBehind, populateCache_eq, hset]
  rfl

/-! ## What a delete does -/

theorem deleteDocument_uncached (h : Uncached e collection) :
    e.deleteDocument moment.ops moment.now collection docId =
      ((e.persistentLayer.deleteDocument collection docId).1,
        { e with persistentLayer := (e.persistentLayer.deleteDocument collection docId).2 }) := by
  unfold HybridStorageEngine.deleteDocument
  cases hschema : e.schemas[collection]? with
  | none => rfl
  | some schema => simp only [h schema hschema]

theorem deleteDocument_writeBehind {delayMs : Nat}
    (hschema : e.schemas[collection]? = some schema)
    (hstrategy : schema.cacheConfig.strategy = .writeBehind delayMs) :
    e.deleteDocument moment.ops moment.now collection docId =
      (true, { e with
        cacheLayer := (e.cacheLayer.remove (makeCacheKey collection docId)).2
        writeBehindQueue := e.writeBehindQueue ++
          [queuedEntry moment collection docId .delete delayMs] }) := by
  unfold HybridStorageEngine.deleteDocument
  simp only [hschema, hstrategy]
  rfl

theorem deleteDocument_synchronous (hschema : e.schemas[collection]? = some schema)
    (hcached : schema.cacheConfig.strategy ≠ .none)
    (hsync : ∀ delayMs, schema.cacheConfig.strategy ≠ .writeBehind delayMs) :
    e.deleteDocument moment.ops moment.now collection docId =
      ((e.persistentLayer.deleteDocument collection docId).1, { e with
        persistentLayer := (e.persistentLayer.deleteDocument collection docId).2
        cacheLayer := (e.cacheLayer.remove (makeCacheKey collection docId)).2 }) := by
  unfold HybridStorageEngine.deleteDocument
  simp only [hschema]
  cases hstrategy : schema.cacheConfig.strategy with
  | none => exact absurd hstrategy hcached
  | writeThrough => rfl
  | writeBehind delayMs => exact absurd hstrategy (hsync delayMs)
  | readThrough => rfl

/-! ## What a read does -/

theorem getDocument_uncached (h : Uncached e collection) :
    e.getDocument moment.ops json moment.now collection docId =
      (e.persistentLayer.getDocument json moment.now collection docId, e) := by
  unfold HybridStorageEngine.getDocument
  cases hschema : e.schemas[collection]? with
  | none => rfl
  | some schema => simp only [h schema hschema]

theorem getDocument_cached (hschema : e.schemas[collection]? = some schema)
    (hcached : schema.cacheConfig.strategy ≠ .none) :
    e.getDocument moment.ops json moment.now collection docId =
      e.getCached moment.ops json moment.now collection docId schema := by
  unfold HybridStorageEngine.getDocument
  simp only [hschema]
  cases hstrategy : schema.cacheConfig.strategy with
  | none => exact absurd hstrategy hcached
  | writeThrough => rfl
  | writeBehind delayMs => rfl
  | readThrough => rfl

theorem getCached_hit {data : CacheData}
    (h : (e.cacheLayer.get moment.now (makeCacheKey collection docId)).1 = some data) :
    e.getCached moment.ops json moment.now collection docId schema =
      ((HybridStorageEngine.cacheDataToDocument moment.now data docId).map some,
        { e with
          cacheLayer := (e.cacheLayer.get moment.now (makeCacheKey collection docId)).2 }) := by
  have hget : moment.ops.get e.cacheLayer (makeCacheKey collection docId) =
      (some data, (e.cacheLayer.get moment.now (makeCacheKey collection docId)).2) :=
    Prod.ext h rfl
  unfold HybridStorageEngine.getCached
  rw [hget]

theorem getCached_miss
    (h : (e.cacheLayer.get moment.now (makeCacheKey collection docId)).1 = none) :
    e.getCached moment.ops json moment.now collection docId schema =
      let layer := (e.cacheLayer.get moment.now (makeCacheKey collection docId)).2
      match e.persistentLayer.getDocument json moment.now collection docId with
      | .error error => (.error error, { e with cacheLayer := layer })
      | .ok none => (.ok none, { e with cacheLayer := layer })
      | .ok (some doc) =>
        ((setDocument layer moment collection docId doc schema).1.mapError .cache |>.map
            fun _ => some doc,
          { e with cacheLayer := (setDocument layer moment collection docId doc schema).2 }) := by
  have hget : moment.ops.get e.cacheLayer (makeCacheKey collection docId) =
      (none, (e.cacheLayer.get moment.now (makeCacheKey collection docId)).2) :=
    Prod.ext h rfl
  unfold HybridStorageEngine.getCached
  rw [hget]
  dsimp only
  cases e.persistentLayer.getDocument json moment.now collection docId with
  | error error => rfl
  | ok found =>
    cases found with
    | none => rfl
    | some doc =>
      simp only [populateCache_eq]
      cases (setDocument (e.cacheLayer.get moment.now (makeCacheKey collection docId)).2 moment
          collection docId doc schema).1 with
      | error error => rfl
      | ok result => rfl

-- A miss that succeeds returns the stored document.
theorem eq_of_populated {result : Except String Unit} {found : Option Document}
    (h : ((result.mapError StorageError.cache).map fun _ => some doc) = .ok found) :
    found = some doc := by
  cases result with
  | error error => cases h
  | ok done => exact (Except.ok.inj h).symm

/-! ## What a call leaves alone -/

variable (json moment docId doc) in
-- A write that is not queued touches one record and one cached value, whether or not it succeeds.
theorem updateDocument_frame
    (hsync : ∀ schema delayMs, e.schemas[collection]? = some schema →
      schema.cacheConfig.strategy ≠ .writeBehind delayMs) :
    ∃ persistentLayer cacheLayer,
      (e.updateDocument moment.ops json moment.now collection docId doc).2 =
        { e with persistentLayer := persistentLayer, cacheLayer := cacheLayer } ∧
      (∀ key, key ≠ makeDocumentKey collection docId →
        persistentLayer.decoded json key = e.persistentLayer.decoded json key) ∧
      ∀ key data, key ≠ makeCacheKey collection docId → cacheLayer.peek key = some data →
        e.cacheLayer.peek key = some data := by
  cases hinsert : e.persistentLayer.insertDocument json collection docId doc with
  | error error =>
    have hsame : (e.updateDocument moment.ops json moment.now collection docId doc).2 = e := by
      obtain huncached | ⟨schema, hschema, hcached⟩ := uncached_or_cached e collection
      · rw [updateDocument_uncached huncached, hinsert]
        rfl
      · cases hstrategy : schema.cacheConfig.strategy with
        | none => exact absurd hstrategy hcached
        | writeThrough => rw [updateDocument_writeThrough_error hschema hstrategy hinsert]
        | writeBehind delayMs => exact absurd hstrategy (hsync schema delayMs hschema)
        | readThrough => rw [updateDocument_readThrough_error hschema hstrategy hinsert]
    exact ⟨e.persistentLayer, e.cacheLayer, hsame, fun _ _ => rfl, fun _ _ _ => id⟩
  | ok layer =>
    obtain ⟨value, -, hlayer⟩ := PersistentLayer.decoded_insertDocument hinsert
    have hother : ∀ key, key ≠ makeDocumentKey collection docId →
        layer.decoded json key = e.persistentLayer.decoded json key := by
      intro key hkey
      rw [hlayer, if_neg (Ne.symm hkey)]
    obtain huncached | ⟨schema, hschema, hcached⟩ := uncached_or_cached e collection
    · rw [updateDocument_uncached huncached, hinsert]
      exact ⟨layer, e.cacheLayer, rfl, hother, fun _ _ _ => id⟩
    · cases hstrategy : schema.cacheConfig.strategy with
      | none => exact absurd hstrategy hcached
      | writeThrough =>
        rw [updateDocument_writeThrough hschema hstrategy hinsert]
        exact ⟨layer, _, rfl, hother, fun _ _ => peek_setDocument_other⟩
      | writeBehind delayMs => exact absurd hstrategy (hsync schema delayMs hschema)
      | readThrough =>
        rw [updateDocument_readThrough hschema hstrategy hinsert]
        exact ⟨layer, _, rfl, hother, fun key data _ => CacheLayer.covers_remove _ _ key data⟩

variable (moment docId) in
theorem deleteDocument_frame
    (hsync : ∀ schema delayMs, e.schemas[collection]? = some schema →
      schema.cacheConfig.strategy ≠ .writeBehind delayMs) :
    ∃ cacheLayer, (e.deleteDocument moment.ops moment.now collection docId).2 =
        { e with
          persistentLayer := (e.persistentLayer.deleteDocument collection docId).2
          cacheLayer := cacheLayer } ∧
      e.cacheLayer.Covers cacheLayer := by
  obtain huncached | ⟨schema, hschema, hcached⟩ := uncached_or_cached e collection
  · rw [deleteDocument_uncached huncached]
    exact ⟨e.cacheLayer, rfl, .refl _⟩
  · rw [deleteDocument_synchronous hschema hcached (fun delayMs => hsync schema delayMs hschema)]
    exact ⟨_, rfl, CacheLayer.covers_remove _ _⟩

variable (json e moment collection docId) in
theorem getDocument_frame :
    ∃ cacheLayer, (e.getDocument moment.ops json moment.now collection docId).2 =
        { e with cacheLayer := cacheLayer } ∧
      ∀ key data, key ≠ makeCacheKey collection docId → cacheLayer.peek key = some data →
        e.cacheLayer.peek key = some data := by
  obtain huncached | ⟨schema, hschema, hcached⟩ := uncached_or_cached e collection
  · rw [getDocument_uncached huncached]
    exact ⟨e.cacheLayer, rfl, fun _ _ _ => id⟩
  rw [getDocument_cached hschema hcached]
  have hcovers := CacheLayer.covers_get e.cacheLayer moment.now (makeCacheKey collection docId)
  cases hlookup : (e.cacheLayer.get moment.now (makeCacheKey collection docId)).1 with
  | some data =>
    rw [getCached_hit hlookup]
    exact ⟨_, rfl, fun key data _ => hcovers key data⟩
  | none =>
    rw [getCached_miss hlookup]
    cases e.persistentLayer.getDocument json moment.now collection docId with
    | error error => exact ⟨_, rfl, fun key data _ => hcovers key data⟩
    | ok found =>
      cases found with
      | none => exact ⟨_, rfl, fun key data _ => hcovers key data⟩
      | some doc =>
        refine ⟨_, rfl, fun key data hkey hdata => ?_⟩
        exact hcovers key data (peek_setDocument_other hkey hdata)

-- A warming touches the cache alone.
theorem preload_frame (json : DocumentJson) (e : CachedEngine) (moment : Moment)
    (collection : String) (limit : Nat) :
    ∃ cacheLayer, (e.preloadCollection moment.ops json moment.now collection limit).2 =
      { e with cacheLayer := cacheLayer } := by
  obtain ⟨cacheLayer, -, heq⟩ :=
    preload_cache (P := fun _ => True) (fun _ _ _ _ _ _ _ => id) trivial
  exact ⟨cacheLayer, heq⟩

theorem refresh_frame (json : DocumentJson) (e : CachedEngine) (moment : Moment)
    (collection : String) :
    ∃ cacheLayer, (e.refreshCollectionCache moment.ops json moment.now collection).2 =
      { e with cacheLayer := cacheLayer } := by
  obtain ⟨cacheLayer, -, heq⟩ :=
    refresh_cache (P := fun _ => True) (fun _ _ _ _ _ _ _ => id) trivial
  exact ⟨cacheLayer, heq⟩

end CachedEngine

/-! ## Cache keys -/

theorem makeCacheKey_injective {collection collection' : String} {docId docId' : DocumentId}
    (h : makeCacheKey collection docId =
      makeCacheKey collection' docId') :
    collection = collection' ∧ docId = docId' := by
  apply PersistentLayer.makeDocumentKey_injective
  have hchars := congrArg String.toList h
  simp only [makeCacheKey, String.toList_append, List.append_assoc] at hchars
  have hrest := List.append_cancel_left hchars
  rw [makeDocumentKey, makeDocumentKey]
  congr 1
  apply String.toList_injective
  simp only [String.toList_append, List.append_assoc]
  exact hrest

/-! ## A small engine -/

def wholeSchema (strategy : CacheStrategy) : Schema :=
  { version := 1, fields := ∅, indexes := [],
    cacheConfig := { strategy := strategy, ttl := none, fields := none, warming := .none },
    validation := none }

def usersSchemas (strategy : CacheStrategy) : Std.ExtTreeMap String Schema :=
  (∅ : Std.ExtTreeMap String Schema).insert "users" (wholeSchema strategy)

theorem usersSchemas_eq_some {strategy : CacheStrategy} {collection : String} {schema : Schema}
    (h : (usersSchemas strategy)[collection]? = some schema) :
    collection = "users" ∧ schema = wholeSchema strategy := by
  rw [usersSchemas, lookup_insert, Std.ExtTreeMap.getElem?_empty] at h
  by_cases hname : "users" = collection
  · rw [if_pos hname, Option.some.injEq] at h
    exact ⟨hname.symm, h.symm⟩
  · rw [if_neg hname] at h
    cases h

def smallCache : CacheConfig :=
  { maxSizeBytes := 1000, evictionPolicy := .lru, defaultTtl := none }

end VedDb
