import VedDb.Cache.Queue

/-!
# The cache as a view of the store

A cached document is a hash of its fields, or of those that its schema lists.  A read that finds it
builds the document from that hash; one that does not decodes the stored record.  The two agree as
long as whole documents are cached, under the identifier they carry, and the stored version is not
changed behind the back of the cache.
-/

namespace VedDb

open LittleEndian (Bytes)
open HybridStorageEngine (makeCacheKey documentToCacheData cacheDataToDocument isDue)
open PersistentLayer (makeDocumentKey makeDocumentKey_injective)

/-! ## One document -/

/-- The schema lists all of these fields for the cache, or does not restrict it. -/
def Schema.CachesAll (schema : Schema) (fields : Fields) : Prop :=
  ∀ names, schema.cacheConfig.fields = some names →
    ∀ name value, fields[name]? = some value → name ∈ names

-- The hash that is built from a list of names holds the fields of these names.
theorem getElem?_foldl_cached (fields : Fields) {step : Fields → String → Fields}
    (hstep : ∀ hash name other, (step hash name)[other]? =
      if name = other then fields[name]?.or hash[other]? else hash[other]?)
    (names : List String) (hash : Fields) (name : String) :
    (names.foldl step hash)[name]? =
      if name ∈ names then fields[name]?.or hash[name]? else hash[name]? := by
  induction names generalizing hash with
  | nil => rfl
  | cons own names ih =>
    rw [List.foldl_cons, ih, hstep]
    by_cases hname : own = name
    · rw [if_pos hname, hname, if_pos List.mem_cons_self]
      cases fields[name]? with
      | none => simp
      | some value => simp
    · have hmem : name ∈ own :: names ↔ name ∈ names := by simp [Ne.symm hname]
      simp only [if_neg hname, hmem]

theorem documentToCacheData_hash (doc : Document) (schema : Schema) :
    ∃ hash : Fields, documentToCacheData doc schema = .hash hash ∧
      ∀ name, hash[name]? =
        match schema.cacheConfig.fields with
        | some names => if name ∈ names then doc.fields[name]? else none
        | none => doc.fields[name]? := by
  unfold documentToCacheData
  cases schema.cacheConfig.fields with
  | none => exact ⟨doc.fields, rfl, fun _ => rfl⟩
  | some names =>
    refine ⟨_, rfl, fun name => ?_⟩
    rw [getElem?_foldl_cached doc.fields, Std.ExtTreeMap.getElem?_empty, Option.or_none]
    intro hash name other
    cases hfield : doc.fields[name]? with
    | none => simp
    | some value =>
      simp only [lookup_insert, Option.some_or]

theorem documentToCacheData_eq_iff {doc : Document} {schema : Schema} :
    documentToCacheData doc schema = .hash doc.fields ↔ schema.CachesAll doc.fields := by
  obtain ⟨hash, hdata, hread⟩ := documentToCacheData_hash doc schema
  rw [hdata, CacheData.hash.injEq]
  constructor
  · intro heq names hnames name value hvalue
    by_contra hmem
    have hown := hread name
    simp only [heq, hvalue, hnames, if_neg hmem, reduceCtorEq] at hown
  · intro hall
    apply Std.ExtTreeMap.ext_getElem?
    intro name
    rw [hread]
    cases hnames : schema.cacheConfig.fields with
    | none => rfl
    | some names =>
      cases hvalue : doc.fields[name]? with
      | none => simp
      | some value => simp [hall names hnames name value hvalue]

/-- Reading a document back from its cached hash gives it back exactly when it is read under its own
identifier and its schema caches all of it. -/
theorem cacheDataToDocument_eq_iff {now : DateTime} {doc : Document} {schema : Schema}
    {docId : DocumentId} :
    (cacheDataToDocument now (documentToCacheData doc schema) docId).map Document.content =
        .ok doc.content ↔
      docId = doc.id ∧ schema.CachesAll doc.fields := by
  obtain ⟨fields, hfields, -⟩ := documentToCacheData_hash doc schema
  rw [← documentToCacheData_eq_iff, hfields]
  show (Except.ok (docId, fields) : Except StorageError _) = .ok (doc.id, doc.fields) ↔ _
  rw [Except.ok.injEq, Prod.mk.injEq, CacheData.hash.injEq]

/-! ## The engine -/

namespace CachedEngine

/-- What is cached for a document is what is stored for it, if a document is stored. -/
def Agrees (json : DocumentJson) (e : CachedEngine) (collection : String) (docId : DocumentId) :
    Prop :=
  ∀ data content, e.cacheLayer.peek (makeCacheKey collection docId) = some data →
    e.persistentLayer.decoded json (makeDocumentKey collection docId) = some (.ok content) →
    data = .hash content.2 ∧ content.1 = docId

/-- The collections that are read through the cache agree with the store. -/
structure Alike (json : DocumentJson) (e : CachedEngine) : Prop where
  agrees : ∀ collection schema, e.schemas[collection]? = some schema →
    schema.cacheConfig.strategy ≠ .none → ∀ docId, e.Agrees json collection docId
  queued : ∀ entry ∈ e.writeBehindQueue, entry.RoundTrips json

/-- A read of a stored document returns its identifier and fields wherever it finds them, and fails
only where the cache had no answer. -/
def AnswersAlike (json : DocumentJson) (e : CachedEngine) : Prop :=
  ∀ (moment : Moment) collection docId doc,
    e.persistentLayer.getDocument json moment.now collection docId = .ok (some doc) →
    match (e.getDocument moment.ops json moment.now collection docId).1 with
    | .ok found => found.map Document.content = some doc.content
    | .error _ => (e.cacheLayer.get moment.now (makeCacheKey collection docId)).1 = none

/-! ## Which steps keep them alike -/

/-- A write-through caches the whole of what it stores, or finds it cached; a write-behind caches no
other version than the stored one.  A write under the other strategies may store anything. -/
def WritesAlike (json : DocumentJson) (e : CachedEngine) (collection : String)
    (docId : DocumentId) (doc : Document) : Prop :=
  ∀ schema, e.schemas[collection]? = some schema →
    match schema.cacheConfig.strategy with
    | .none | .readThrough => True
    | .writeThrough =>
      ∀ value content, json.toVec doc.id doc.fields = .ok value →
        json.fromSlice value = .ok content →
        if e.cacheLayer.Fits (documentToCacheData doc schema) then
          content = (docId, doc.fields) ∧ schema.CachesAll doc.fields
        else
          ∀ data, e.cacheLayer.peek (makeCacheKey collection docId) = some data →
            data = .hash content.2 ∧ content.1 = docId
    | .writeBehind _ =>
      json.RoundTrips doc ∧ (e.cacheLayer.Fits (documentToCacheData doc schema) →
        ∀ content, e.persistentLayer.decoded json (makeDocumentKey collection docId) =
          some (.ok content) → content = (docId, doc.fields) ∧ schema.CachesAll doc.fields)

/-- The document that a pass leaves stored is the one that is cached, if one is. -/
def AppliesAlike (e : CachedEngine) (entries : List WriteBehindEntry) : Prop :=
  ∀ collection schema docId data doc, e.schemas[collection]? = some schema →
    schema.cacheConfig.strategy ≠ .none →
    e.cacheLayer.peek (makeCacheKey collection docId) = some data →
    (operationsOn entries collection docId).getLast? = some (.write doc) →
    data = .hash doc.fields ∧ doc.id = docId

def WarmsAlike (json : DocumentJson) (e : CachedEngine) (now : DateTime) (collection : String)
    (loaded : List Document → List Document) : Prop :=
  ∀ schema docs, e.schemas[collection]? = some schema → schema.cacheConfig.strategy ≠ .none →
    e.persistentLayer.scanCollection json now collection = .ok docs →
    ∀ doc ∈ loaded docs, ∀ content,
      e.persistentLayer.decoded json (makeDocumentKey collection doc.id) = some (.ok content) →
      content = doc.content ∧ schema.CachesAll doc.fields

/-- The condition under which a call leaves cache and store alike. -/
def KeepsAlike (json : DocumentJson) (e : CachedEngine) (op : Moment × EngineCall) : Prop :=
  match op.2 with
  | .registerSchema collection schema =>
    schema.cacheConfig.strategy ≠ .none → ∀ docId, e.Agrees json collection docId
  | .insert collection doc => e.WritesAlike json collection doc.id doc
  | .update collection docId doc => e.WritesAlike json collection docId doc
  | .get collection docId =>
    ∀ schema content, e.schemas[collection]? = some schema →
      schema.cacheConfig.strategy ≠ .none →
      (e.cacheLayer.get op.1.now (makeCacheKey collection docId)).1 = none →
      e.persistentLayer.decoded json (makeDocumentKey collection docId) = some (.ok content) →
      content.1 = docId ∧ schema.CachesAll content.2
  | .preload collection limit => e.WarmsAlike json op.1.now collection (List.take limit)
  | .refresh collection => e.WarmsAlike json op.1.now collection id
  | .processQueue => e.AppliesAlike (e.writeBehindQueue.filter (isDue op.1.now))
  | .flush => e.AppliesAlike e.writeBehindQueue
  | .delete _ _ | .expire | .evict _ | .dropCollection _ => True

variable {json : DocumentJson} {e e' : CachedEngine} {collection : String} {docId : DocumentId}

-- A cache and a store that hold no more than before agree as before.
theorem Agrees.mono (h : e.Agrees json collection docId)
    (hpeek : ∀ data, e'.cacheLayer.peek (makeCacheKey collection docId) = some data →
      e.cacheLayer.peek (makeCacheKey collection docId) = some data)
    (hdecoded : ∀ content,
      e'.persistentLayer.decoded json (makeDocumentKey collection docId) = some (.ok content) →
      e.persistentLayer.decoded json (makeDocumentKey collection docId) = some (.ok content)) :
    e'.Agrees json collection docId :=
  fun data content hdata hcontent => h data content (hpeek data hdata) (hdecoded content hcontent)

namespace Alike

variable (h : e.Alike json)

include h

theorem of_covers {cacheLayer : CacheLayer} (hcovers : e.cacheLayer.Covers cacheLayer) :
    CachedEngine.Alike json { e with cacheLayer := cacheLayer } where
  agrees collection schema hschema hstrategy docId :=
    (h.agrees collection schema hschema hstrategy docId).mono (hcovers _) (fun _ => id)
  queued := h.queued

-- A step that changes what is cached or stored for one document of a cached collection.
theorem changed (collection : String) (docId : DocumentId) {persistentLayer : PersistentLayer}
    {cacheLayer : CacheLayer}
    (hpeek : ∀ key data, key ≠ makeCacheKey collection docId → cacheLayer.peek key = some data →
      e.cacheLayer.peek key = some data)
    (hdecoded : ∀ key, key ≠ makeDocumentKey collection docId →
      persistentLayer.decoded json key = e.persistentLayer.decoded json key)
    (hown : ∀ schema, e.schemas[collection]? = some schema →
      schema.cacheConfig.strategy ≠ .none →
      CachedEngine.Agrees json
        { e with persistentLayer := persistentLayer, cacheLayer := cacheLayer } collection docId) :
    CachedEngine.Alike json
      { e with persistentLayer := persistentLayer, cacheLayer := cacheLayer } := by
  refine ⟨?_, h.queued⟩
  intro name schema hschema hstrategy id
  by_cases hsame : name = collection ∧ id = docId
  · obtain ⟨rfl, rfl⟩ := hsame
    exact hown schema hschema hstrategy
  · refine (h.agrees name schema hschema hstrategy id).mono ?_ ?_
    · intro data
      exact hpeek _ data (fun hkey => hsame (makeCacheKey_injective hkey))
    · intro content hcontent
      rw [← hdecoded _ (fun hkey => hsame (makeDocumentKey_injective hkey))]
      exact hcontent

-- Documents are put into the cache one by one.
theorem setDocument {schema : Schema} {doc : Document} (moment : Moment)
    (collection : String) (docId : DocumentId)
    (hdoc : ∀ schema', e.schemas[collection]? = some schema' →
      schema'.cacheConfig.strategy ≠ .none → ∀ content,
      e.persistentLayer.decoded json (makeDocumentKey collection docId) = some (.ok content) →
      documentToCacheData doc schema = .hash content.2 ∧ content.1 = docId) :
    CachedEngine.Alike json { e with
      cacheLayer := (CachedEngine.setDocument e.cacheLayer moment collection docId doc
        schema).2 } := by
  refine h.changed collection docId ?_ (fun _ _ => rfl) ?_
  · intro key data hkey hdata
    exact peek_setDocument_other hkey hdata
  · intro schema' hschema' hstrategy data content hdata hcontent
    obtain ⟨-, hvalue⟩ | hold := CacheLayer.peek_setWithTtl hdata
    · rw [hvalue]
      exact hdoc schema' hschema' hstrategy content hcontent
    · exact h.agrees collection schema' hschema' hstrategy docId data content hold hcontent

theorem queue {entry : WriteBehindEntry} (hround : entry.RoundTrips json) :
    CachedEngine.Alike json
      { e with writeBehindQueue := e.writeBehindQueue ++ [entry] } where
  agrees := h.agrees
  queued := by
    rw [List.forall_mem_append, List.forall_mem_singleton]
    exact ⟨h.queued, hround⟩

/-! ## Steps -/

-- A write-through stores the document, and caches all of it where it has room for it.
theorem writeThrough {doc : Document} {schema : Schema} {layer : PersistentLayer} (moment : Moment)
    (hinsert : e.persistentLayer.insertDocument json collection docId doc = .ok layer)
    (hwrites : ∀ value content, json.toVec doc.id doc.fields = .ok value →
      json.fromSlice value = .ok content →
      if e.cacheLayer.Fits (documentToCacheData doc schema) then
        content = (docId, doc.fields) ∧ schema.CachesAll doc.fields
      else
        ∀ data, e.cacheLayer.peek (makeCacheKey collection docId) = some data →
          data = .hash content.2 ∧ content.1 = docId) :
    CachedEngine.Alike json { e with
      persistentLayer := layer
      cacheLayer :=
        (CachedEngine.setDocument e.cacheLayer moment collection docId doc schema).2 } := by
  obtain ⟨value, hto, hlayer⟩ := PersistentLayer.decoded_insertDocument hinsert
  refine h.changed collection docId ?_ (PersistentLayer.decoded_insertDocument_other hinsert) ?_
  · intro key data hkey hdata
    exact peek_setDocument_other hkey hdata
  · intro schema' hschema' _ data content hdata hcontent
    rw [hlayer, if_pos rfl, Option.some.injEq] at hcontent
    have hwrite := hwrites value content hto hcontent
    by_cases hfits : e.cacheLayer.Fits (documentToCacheData doc schema)
    · rw [if_pos hfits] at hwrite
      rw [peek_setDocument_self hfits, Option.some.injEq] at hdata
      rw [← hdata, documentToCacheData_eq_iff.mpr hwrite.2, hwrite.1]
      exact ⟨rfl, rfl⟩
    · rw [if_neg hfits] at hwrite
      apply hwrite data
      rw [setDocument_of_not_fits hfits] at hdata
      exact CacheLayer.covers_recordExpiry _ _ _ _ _ hdata

theorem updateDocument {doc : Document} (moment : Moment)
    (hwrites : e.WritesAlike json collection docId doc) :
    CachedEngine.Alike json
      (e.updateDocument moment.ops json moment.now collection docId doc).2 := by
  obtain huncached | ⟨schema, hschema, hcached⟩ := uncached_or_cached e collection
  · rw [updateDocument_uncached huncached]
    cases hinsert : e.persistentLayer.insertDocument json collection docId doc with
    | error error => exact h
    | ok layer =>
      refine h.changed collection docId (fun _ _ _ => id)
        (PersistentLayer.decoded_insertDocument_other hinsert) ?_
      intro schema hschema hcached
      exact absurd (huncached schema hschema) hcached
  have hwrites := hwrites schema hschema
  cases hstrategy : schema.cacheConfig.strategy with
  | none => exact absurd hstrategy hcached
  | writeThrough =>
    rw [hstrategy] at hwrites
    cases hinsert : e.persistentLayer.insertDocument json collection docId doc with
    | error error =>
      rw [updateDocument_writeThrough_error hschema hstrategy hinsert]
      exact h
    | ok layer =>
      rw [updateDocument_writeThrough hschema hstrategy hinsert]
      exact h.writeThrough moment hinsert hwrites
  | writeBehind delayMs =>
    rw [hstrategy] at hwrites
    by_cases hfits : e.cacheLayer.Fits (documentToCacheData doc schema)
    · rw [updateDocument_writeBehind hschema hstrategy hfits]
      refine (h.setDocument moment collection docId ?_).queue ?_
      · intro schema' hschema' _ content hcontent
        obtain ⟨hown, hall⟩ := hwrites.2 hfits content hcontent
        rw [documentToCacheData_eq_iff.mpr hall, hown]
        exact ⟨rfl, rfl⟩
      · intro own hown
        cases hown
        exact hwrites.1
    · rw [updateDocument_writeBehind_error hschema hstrategy hfits,
        setDocument_of_not_fits hfits]
      exact h.of_covers (CacheLayer.covers_recordExpiry _ _ _)
  | readThrough =>
    cases hinsert : e.persistentLayer.insertDocument json collection docId doc with
    | error error =>
      rw [updateDocument_readThrough_error hschema hstrategy hinsert]
      exact h
    | ok layer =>
      rw [updateDocument_readThrough hschema hstrategy hinsert]
      refine h.changed collection docId ?_
        (PersistentLayer.decoded_insertDocument_other hinsert) ?_
      · intro key data _
        exact CacheLayer.covers_remove _ _ key data
      · intro schema' _ _ data content hdata
        rw [CacheLayer.peek_remove, if_pos rfl] at hdata
        cases hdata

theorem deleteDocument (moment : Moment) :
    CachedEngine.Alike json (e.deleteDocument moment.ops moment.now collection docId).2 := by
  have hother : ∀ key, key ≠ makeDocumentKey collection docId →
      (e.persistentLayer.deleteDocument collection docId).2.decoded json key =
        e.persistentLayer.decoded json key := by
    intro key hkey
    rw [PersistentLayer.decoded_deleteDocument, if_neg (Ne.symm hkey)]
  have hremoved {layer : PersistentLayer} : ∀ schema, e.schemas[collection]? = some schema →
      schema.cacheConfig.strategy ≠ .none → CachedEngine.Agrees json { e with
        persistentLayer := layer
        cacheLayer := (e.cacheLayer.remove (makeCacheKey collection docId)).2 }
        collection docId := by
    intro schema _ _ data content hdata
    rw [CacheLayer.peek_remove, if_pos rfl] at hdata
    cases hdata
  have hcovers : ∀ key data, key ≠ makeCacheKey collection docId →
      (e.cacheLayer.remove (makeCacheKey collection docId)).2.peek key = some data →
      e.cacheLayer.peek key = some data :=
    fun key data _ => CacheLayer.covers_remove _ _ key data
  obtain huncached | ⟨schema, hschema, hcached⟩ := uncached_or_cached e collection
  · rw [deleteDocument_uncached huncached]
    refine h.changed collection docId (fun _ _ _ => id) hother ?_
    intro schema hschema hcached
    exact absurd (huncached schema hschema) hcached
  · by_cases hsync : ∀ delayMs, schema.cacheConfig.strategy ≠ .writeBehind delayMs
    · rw [deleteDocument_synchronous hschema hcached hsync]
      exact h.changed collection docId hcovers hother hremoved
    · simp only [ne_eq, not_forall, not_not] at hsync
      obtain ⟨delayMs, hstrategy⟩ := hsync
      rw [deleteDocument_writeBehind hschema hstrategy]
      refine (h.of_covers (CacheLayer.covers_remove e.cacheLayer _)).queue ?_
      exact nofun

theorem getDocument (moment : Moment)
    (hget : e.KeepsAlike json (moment, .get collection docId)) :
    CachedEngine.Alike json
      (e.getDocument moment.ops json moment.now collection docId).2 := by
  obtain huncached | ⟨schema, hschema, hcached⟩ := uncached_or_cached e collection
  · rw [getDocument_uncached huncached]
    exact h
  rw [getDocument_cached hschema hcached]
  have hafter := h.of_covers
    (CacheLayer.covers_get e.cacheLayer moment.now (makeCacheKey collection docId))
  cases hlookup : (e.cacheLayer.get moment.now (makeCacheKey collection docId)).1 with
  | some data =>
    rw [getCached_hit hlookup]
    exact hafter
  | none =>
    rw [getCached_miss hlookup]
    dsimp only
    cases hread : e.persistentLayer.getDocument json moment.now collection docId with
    | error error => exact hafter
    | ok found =>
      cases found with
      | none => exact hafter
      | some doc =>
        refine hafter.setDocument moment collection docId ?_
        intro schema' hschema' _ content hcontent
        have hread' := hread
        rw [PersistentLayer.getDocument_eq_documentOf] at hread'
        rw [hcontent] at hread'
        cases hread'
        obtain ⟨hid, hall⟩ := hget schema content hschema hcached hlookup hcontent
        exact ⟨documentToCacheData_eq_iff.mpr hall, hid⟩

-- The store after a pass agrees with the cache, which the pass does not touch.
theorem applied {entries queue : List WriteBehindEntry} {layer : PersistentLayer}
    (happlies : e.AppliesAlike entries) (hqueue : ∀ entry ∈ queue, entry ∈ e.writeBehindQueue)
    (hlayer : ∀ collection docId, layer.decoded json (makeDocumentKey collection docId) =
      replay (operationsOn entries collection docId)
        (e.persistentLayer.decoded json (makeDocumentKey collection docId))) :
    CachedEngine.Alike json { e with persistentLayer := layer, writeBehindQueue := queue } := by
  refine ⟨?_, fun entry hentry => h.queued entry (hqueue entry hentry)⟩
  intro name schema hschema hcached id data content hdata hcontent
  rw [hlayer, replay_eq] at hcontent
  cases hlast : (operationsOn entries name id).getLast? with
  | none =>
    rw [hlast] at hcontent
    exact h.agrees name schema hschema hcached id data content hdata hcontent
  | some operation =>
    rw [hlast] at hcontent
    cases operation with
    | delete => cases hcontent
    | write doc =>
      cases hcontent
      exact happlies name schema id data doc hschema hcached hdata hlast

omit h in
-- A warming puts scanned documents into the cache.
theorem warmed {moment : Moment} {loaded : List Document → List Document}
    (hwarms : e.WarmsAlike json moment.now collection loaded) :
    ∀ schema docs layer, e.schemas[collection]? = some schema →
      e.persistentLayer.scanCollection json moment.now collection = .ok docs →
      ∀ doc ∈ loaded docs, CachedEngine.Alike json { e with cacheLayer := layer } →
        CachedEngine.Alike json { e with
          cacheLayer :=
            (CachedEngine.setDocument layer moment collection doc.id doc schema).2 } := by
  intro schema docs layer hschema hscan doc hdoc hlayer
  refine hlayer.setDocument moment collection doc.id ?_
  intro schema' hschema' hcached content hcontent
  rw [Option.some.inj (hschema'.symm.trans hschema)] at hcached
  obtain ⟨hown, hall⟩ := hwarms schema docs hschema hcached hscan doc hdoc content hcontent
  rw [documentToCacheData_eq_iff.mpr hall, hown]
  exact ⟨rfl, rfl⟩

theorem step {catalogue : CatalogueJson} {op : Moment × EngineCall}
    (hop : e.KeepsAlike json op) : (e.after json catalogue op).Alike json := by
  obtain ⟨moment, engineCall⟩ := op
  cases engineCall with
  | registerSchema collection schema =>
    refine ⟨?_, h.queued⟩
    intro name schema' hschema' hcached
    have hread : (e.schemas.insert collection schema)[name]? = some schema' := hschema'
    rw [lookup_insert] at hread
    by_cases hname : collection = name
    · rw [if_pos hname, Option.some.injEq] at hread
      subst hname hread
      exact hop hcached
    · rw [if_neg hname] at hread
      exact h.agrees name schema' hread hcached
  | insert collection doc =>
    rw [CachedEngine.after, insert_eq]
    exact h.updateDocument moment hop
  | update collection docId doc => exact h.updateDocument moment hop
  | delete collection docId => exact h.deleteDocument moment
  | get collection docId => exact h.getDocument moment hop
  | expire => exact h.of_covers (CacheLayer.covers_evictExpired _ _)
  | evict target => exact h.of_covers (CacheLayer.covers_evictByPolicy _ _ _ _)
  | preload collection limit =>
    have hwarms : e.WarmsAlike json moment.now collection (List.take limit) := hop
    obtain ⟨cacheLayer, hcache, heq⟩ := preload_cache (warmed hwarms) h
    show CachedEngine.Alike json
      (e.preloadCollection moment.ops json moment.now collection limit).2
    rw [heq]
    exact hcache
  | refresh collection =>
    obtain ⟨cacheLayer, hcache, heq⟩ := refresh_cache (warmed hop) h
    show CachedEngine.Alike json
      (e.refreshCollectionCache moment.ops json moment.now collection).2
    rw [heq]
    exact hcache
  | processQueue =>
    obtain ⟨layer, hpass, hlayer⟩ :=
      HybridStorageEngine.processWriteBehindQueue_eq e moment.now h.queued
    show CachedEngine.Alike json (e.processWriteBehindQueue json moment.now)
    rw [hpass]
    exact h.applied hop (fun _ => List.mem_of_mem_filter) hlayer
  | flush =>
    obtain ⟨layer, hflush, hlayer⟩ := HybridStorageEngine.flush_eq e h.queued
    show CachedEngine.Alike json (e.flush json).2
    rw [hflush]
    exact h.applied hop (fun _ => nofun) hlayer
  | dropCollection collection =>
    refine ⟨?_, h.queued⟩
    intro name schema _ _ docId data content hdata
    have hgone : e.cacheLayer.clear.peek (makeCacheKey name docId) = some data := hdata
    rw [CacheLayer.peek_clear] at hgone
    cases hgone

theorem answersAlike : e.AnswersAlike json := by
  intro moment collection docId doc hread
  obtain huncached | ⟨schema, hschema, hcached⟩ := uncached_or_cached e collection
  · rw [getDocument_uncached huncached, hread]
    rfl
  rw [getDocument_cached hschema hcached]
  cases hlookup : (e.cacheLayer.get moment.now (makeCacheKey collection docId)).1 with
  | some data =>
    rw [getCached_hit hlookup]
    obtain ⟨value, hvalue, hdecodes, -⟩ := PersistentLayer.getDocument_eq_some_iff.mp hread
    have hcontent : e.persistentLayer.decoded json (makeDocumentKey collection docId) =
        some (.ok doc.content) := by
      rw [PersistentLayer.decoded, hvalue, Option.map_some, hdecodes]
      rfl
    obtain ⟨hdata, hid⟩ := h.agrees collection schema hschema hcached docId data doc.content
      (CacheLayer.get_peek hlookup) hcontent
    rw [hdata, ← hid]
    rfl
  | none =>
    rw [getCached_miss hlookup, hread]
    dsimp only
    cases (CachedEngine.setDocument
        (e.cacheLayer.get moment.now (makeCacheKey collection docId)).2 moment collection docId doc
        schema).1 with
    | error error => trivial
    | ok result => trivial

end Alike

theorem alike_new (json : DocumentJson) (config : CacheConfig)
    (schemas : Std.ExtTreeMap String Schema) : (new config schemas).Alike json where
  agrees collection schema _ _ docId data content hdata := by
    rw [show (new config schemas).cacheLayer = CacheLayer.new config from rfl,
      CacheLayer.peek_new] at hdata
    cases hdata
  queued := nofun

end CachedEngine

/-- The cache codec gives a document back exactly when it is read under its own identifier and its
schema caches all of it; and in every state of a run whose steps keep cache and store alike, a read
answers the same from either. -/
theorem cache_answers_as_store (json : DocumentJson) (catalogue : CatalogueJson) :
    (∀ now doc schema docId,
      (cacheDataToDocument now (documentToCacheData doc schema) docId).map Document.content =
          .ok doc.content ↔
        docId = doc.id ∧ schema.CachesAll doc.fields) ∧
    ∀ config schemas ops,
      MeetsAlong (CachedEngine.after json catalogue) (CachedEngine.KeepsAlike json)
        (CachedEngine.new config schemas) ops →
      (ops.foldl (CachedEngine.after json catalogue)
        (CachedEngine.new config schemas)).AnswersAlike json := by
  refine ⟨fun now doc schema docId => cacheDataToDocument_eq_iff, ?_⟩
  intro config schemas ops hops
  have halike := MeetsAlong.invariant (I := fun e : CachedEngine => e.Alike json)
    (fun h hop => h.step hop) (CachedEngine.alike_new json config schemas) hops
  exact halike.answersAlike

/-- A schema under which only the field `name` is cached. -/
def namesOnly : Schema :=
  { wholeSchema .writeThrough with
    cacheConfig := { (wholeSchema .writeThrough).cacheConfig with fields := some ["name"] } }

/-- A document whose field is not cached is read without it. -/
theorem restricted_cache_drops_field :
    ¬((CachedEngine.new smallCache
      ((∅ : Std.ExtTreeMap String Schema).insert "users" namesOnly)).after
        nullDocuments plainCatalogue
        (⟨0, .sorted⟩, .insert "users" (nullDocument ⟨1⟩))).AnswersAlike nullDocuments := by
  intro h
  have hstored : PersistentLayer.getDocument nullDocuments 1
      ((CachedEngine.new smallCache
        ((∅ : Std.ExtTreeMap String Schema).insert "users" namesOnly)).after nullDocuments
        plainCatalogue (⟨0, .sorted⟩, .insert "users" (nullDocument ⟨1⟩))).persistentLayer "users"
      ⟨1⟩ = .ok (some { nullDocument ⟨1⟩ with metadata := .default 1 }) := by
    rw [PersistentLayer.getDocument_eq_some_iff]
    exact ⟨nullJson ⟨1⟩ true, rfl, nullDocuments_fromSlice_nullJson ⟨1⟩ true, rfl⟩
  have hread : some ((⟨1⟩ : DocumentId), (∅ : Fields)) = some (nullDocument ⟨1⟩).content :=
    h ⟨1, .sorted⟩ "users" ⟨1⟩ { nullDocument ⟨1⟩ with metadata := .default 1 } hstored
  have hfields : (∅ : Fields) = (nullDocument ⟨1⟩).fields :=
    (Prod.mk.inj (Option.some.inj hread)).2
  have hsize := congrArg Std.ExtTreeMap.size hfields
  exact absurd hsize (by decide)

/-- Documents whose only field is the cached one are read alike, from the cache and from the
store. -/
theorem writtenAndRead_alike :
    MeetsAlong (CachedEngine.after nullDocuments plainCatalogue)
      (CachedEngine.KeepsAlike nullDocuments)
      (CachedEngine.new smallCache (usersSchemas .writeThrough))
      [(⟨0, .sorted⟩, .insert "users" (nullDocument ⟨1⟩)), (⟨1, .sorted⟩, .get "users" ⟨1⟩)] ∧
    (([(⟨0, .sorted⟩, .insert "users" (nullDocument ⟨1⟩)), (⟨1, .sorted⟩, .get "users" ⟨1⟩)] :
        List (Moment × EngineCall)).foldl (CachedEngine.after nullDocuments plainCatalogue)
      (CachedEngine.new smallCache (usersSchemas .writeThrough))).AnswersAlike nullDocuments := by
  have hops : MeetsAlong (CachedEngine.after nullDocuments plainCatalogue)
      (CachedEngine.KeepsAlike nullDocuments)
      (CachedEngine.new smallCache (usersSchemas .writeThrough))
      [(⟨0, .sorted⟩, .insert "users" (nullDocument ⟨1⟩)),
        (⟨1, .sorted⟩, .get "users" ⟨1⟩)] := by
    refine ⟨?_, ?_, trivial⟩
    · intro schema hschema
      obtain rfl : wholeSchema .writeThrough = schema := Option.some.inj hschema
      intro value content hto hfrom
      obtain rfl : nullJson ⟨1⟩ true = value := Except.ok.inj hto
      rw [nullDocuments_fromSlice_nullJson, Except.ok.injEq] at hfrom
      rw [if_pos (by decide), ← hfrom]
      exact ⟨rfl, nofun⟩
    · intro schema content hschema _ hmiss
      cases hmiss
  exact ⟨hops, (cache_answers_as_store nullDocuments plainCatalogue).2 _ _ _ hops⟩

end VedDb
