import VedDb.Cache.Engine

/-!
# Reading what was written

Under the strategies that write to the store at once, every value in the cache is that of the stored
document, whatever is evicted, expires or is loaded in between.  So a read returns the last write,
wherever it finds it.
-/

namespace VedDb

open HybridStorageEngine (makeCacheKey documentToCacheData)

/-- The schemas write to the store at once, and cache whole documents. -/
def Synchronous (schemas : Std.ExtTreeMap String Schema) : Prop :=
  ∀ (collection : String) (schema : Schema), schemas[collection]? = some schema →
    (∀ delayMs, schema.cacheConfig.strategy ≠ .writeBehind delayMs) ∧
      schema.cacheConfig.fields = none

namespace CachedEngine

/-- The store holds the documents of the database, and so does the cache where it is read. -/
structure Coherent (json : DocumentJson) (e : CachedEngine) (db : Database) : Prop where
  synchronous : Synchronous e.schemas
  represents : e.persistentLayer.Represents json db
  named : ∀ collection docId, db collection docId ≠ none → ':' ∉ collection.toList
  own : ∀ collection docId content, db collection docId = some content → content.1 = docId
  cached : ∀ collection schema docId data, e.schemas[collection]? = some schema →
    schema.cacheConfig.strategy ≠ .none →
    e.cacheLayer.peek (makeCacheKey collection docId) = some data →
    ∃ fields, data = .hash fields ∧ db collection docId = some (docId, fields)

namespace Coherent

variable {json : DocumentJson} {e : CachedEngine} {db : Database} (h : e.Coherent json db)

include h

-- A cache that holds no more is as coherent.
theorem of_covers {cacheLayer : CacheLayer} (hcovers : e.cacheLayer.Covers cacheLayer) :
    CachedEngine.Coherent json { e with cacheLayer := cacheLayer } db where
  synchronous := h.synchronous
  represents := h.represents
  named := h.named
  own := h.own
  cached collection schema docId data hschema hstrategy hpeek :=
    h.cached collection schema docId data hschema hstrategy (hcovers _ _ hpeek)

-- A document of the store may be put into the cache, and the attempt may fail.
theorem setDocument {collection : String} {schema : Schema} {doc : Document} (moment : Moment)
    (hschema : e.schemas[collection]? = some schema)
    (hdoc : db collection doc.id = some doc.content) :
    CachedEngine.Coherent json { e with
      cacheLayer := (CachedEngine.setDocument e.cacheLayer moment collection doc.id doc schema).2 }
      db := by
  have hdata : documentToCacheData doc schema = .hash doc.fields := by
    rw [documentToCacheData, (h.synchronous collection schema hschema).2]
  refine ⟨h.synchronous, h.represents, h.named, h.own, ?_⟩
  intro other schema' docId data hother hstrategy hpeek
  obtain ⟨hkey, hvalue⟩ | hold := CacheLayer.peek_setWithTtl hpeek
  · obtain ⟨rfl, rfl⟩ := makeCacheKey_injective hkey
    exact ⟨doc.fields, hvalue.trans hdata, hdoc⟩
  · exact h.cached other schema' docId data hother hstrategy hold

-- A scan finds documents of the collection, under their own identifiers.
theorem scanned {collection : String} {now : DateTime} {docs : List Document}
    (hscan : e.persistentLayer.scanCollection json now collection = .ok docs) :
    ∀ doc ∈ docs, db collection doc.id = some doc.content := by
  obtain ⟨keys, docs', hscan', -, hkeys, hdocs⟩ := h.represents.scanCollection collection now
  rw [hscan, Except.ok.injEq] at hscan'
  subst hscan'
  intro doc hdoc
  have hmem : (some ∘ Document.content) doc ∈ docs.map (some ∘ Document.content) :=
    List.mem_map_of_mem hdoc
  rw [← hdocs, List.mem_map] at hmem
  obtain ⟨key, hkey, hcontent⟩ := hmem
  obtain ⟨hholds, hcollection⟩ := (hkeys key).mp hkey
  have hown := h.own key.1 key.2 doc.content hcontent
  have hsame : collection = key.1 := by
    apply hcollection.resolve_right
    intro hpre
    exact h.named key.1 key.2 hholds (hpre.subset (by simp))
  rw [hsame, show doc.id = key.2 from hown]
  exact hcontent

/-! ## Writes and deletes -/

variable {collection : String} {docId : DocumentId} {persistentLayer : PersistentLayer}
  {cacheLayer : CacheLayer}

-- A document is stored under its own identifier, and no other value than it is cached for it.
theorem written {doc : Document} (hname : ':' ∉ collection.toList) (hid : doc.id = docId)
    (hrepresents : persistentLayer.Represents json (db.insert collection docId doc.content))
    (hnew : ∀ schema data, e.schemas[collection]? = some schema →
      schema.cacheConfig.strategy ≠ .none →
      cacheLayer.peek (makeCacheKey collection docId) = some data → data = .hash doc.fields)
    (hothers : ∀ key data, key ≠ makeCacheKey collection docId →
      cacheLayer.peek key = some data → e.cacheLayer.peek key = some data) :
    CachedEngine.Coherent json
      { e with cacheLayer := cacheLayer, persistentLayer := persistentLayer }
      (db.insert collection docId doc.content) := by
  refine ⟨h.synchronous, hrepresents, ?_, ?_, ?_⟩
  · intro name id hholds
    by_cases hown : name = collection ∧ id = docId
    · rw [hown.1]
      exact hname
    · rw [Database.insert, if_neg hown] at hholds
      exact h.named name id hholds
  · intro name id content hcontent
    by_cases hown : name = collection ∧ id = docId
    · rw [Database.insert, if_pos hown, Option.some.injEq] at hcontent
      rw [← hcontent, hown.2]
      exact hid
    · rw [Database.insert, if_neg hown] at hcontent
      exact h.own name id content hcontent
  · intro name schema id data hschema hstrategy hpeek
    by_cases hown : name = collection ∧ id = docId
    · obtain ⟨rfl, rfl⟩ := hown
      refine ⟨doc.fields, hnew schema data hschema hstrategy hpeek, ?_⟩
      rw [Database.insert, if_pos ⟨rfl, rfl⟩, Document.content, hid]
    · rw [Database.insert, if_neg hown]
      refine h.cached name schema id data hschema hstrategy (hothers _ data ?_ hpeek)
      exact fun hkey => hown (makeCacheKey_injective hkey)

-- A document is gone from the store, and none is cached for it.
theorem erased
    (hrepresents : persistentLayer.Represents json (db.erase collection docId))
    (hgone : ∀ schema, e.schemas[collection]? = some schema →
      schema.cacheConfig.strategy ≠ .none →
      cacheLayer.peek (makeCacheKey collection docId) = none)
    (hothers : e.cacheLayer.Covers cacheLayer) :
    CachedEngine.Coherent json
      { e with cacheLayer := cacheLayer, persistentLayer := persistentLayer }
      (db.erase collection docId) := by
  refine ⟨h.synchronous, hrepresents, ?_, ?_, ?_⟩
  · intro name id hholds
    by_cases hown : name = collection ∧ id = docId
    · rw [Database.erase, if_pos hown] at hholds
      exact absurd rfl hholds
    · rw [Database.erase, if_neg hown] at hholds
      exact h.named name id hholds
  · intro name id content hcontent
    by_cases hown : name = collection ∧ id = docId
    · rw [Database.erase, if_pos hown] at hcontent
      cases hcontent
    · rw [Database.erase, if_neg hown] at hcontent
      exact h.own name id content hcontent
  · intro name schema id data hschema hstrategy hpeek
    by_cases hown : name = collection ∧ id = docId
    · obtain ⟨rfl, rfl⟩ := hown
      rw [hgone schema hschema hstrategy] at hpeek
      cases hpeek
    · rw [Database.erase, if_neg hown]
      exact h.cached name schema id data hschema hstrategy (hothers _ data hpeek)

theorem updateDocument {doc : Document} {moment : Moment} (hname : ':' ∉ collection.toList)
    (hid : doc.id = docId) (hround : json.RoundTrips doc)
    (hok : (e.updateDocument moment.ops json moment.now collection docId doc).1 = .ok ()) :
    CachedEngine.Coherent json
      (e.updateDocument moment.ops json moment.now collection docId doc).2
      (db.insert collection docId doc.content) := by
  obtain ⟨layer, hinsert, hrepresents⟩ :=
    h.represents.insertDocument collection docId hround
  obtain huncached | ⟨schema, hschema, hcached⟩ :=
    CachedEngine.uncached_or_cached e collection
  · rw [CachedEngine.updateDocument_uncached huncached, hinsert]
    refine h.written hname hid hrepresents ?_ (fun _ _ _ hpeek => hpeek)
    intro schema data hschema hcached
    exact absurd (huncached schema hschema) hcached
  · cases hstrategy : schema.cacheConfig.strategy with
    | none => exact absurd hstrategy hcached
    | writeThrough =>
      rw [CachedEngine.updateDocument_writeThrough hschema hstrategy hinsert] at hok ⊢
      have hfits : e.cacheLayer.Fits (documentToCacheData doc schema) := by
        by_contra hfits
        rw [CachedEngine.setDocument_of_not_fits hfits] at hok
        cases hok
      have hdata : documentToCacheData doc schema = .hash doc.fields := by
        rw [documentToCacheData, (h.synchronous collection schema hschema).2]
      refine h.written hname hid hrepresents ?_ ?_
      · intro schema' data hother hne hpeek
        rw [CachedEngine.peek_setDocument_self hfits, Option.some.injEq] at hpeek
        exact hpeek.symm.trans hdata
      · intro key data hkey hpeek
        exact CachedEngine.peek_setDocument_other hkey hpeek
    | writeBehind delayMs =>
      exact absurd hstrategy ((h.synchronous collection schema hschema).1 delayMs)
    | readThrough =>
      rw [CachedEngine.updateDocument_readThrough hschema hstrategy hinsert]
      refine h.written hname hid hrepresents ?_ ?_
      · intro schema' data hother hne hpeek
        have hgone := CacheLayer.peek_remove e.cacheLayer (makeCacheKey collection docId)
          (makeCacheKey collection docId)
        rw [if_pos rfl] at hgone
        cases hgone.symm.trans hpeek
      · intro key data _ hpeek
        exact CacheLayer.covers_remove e.cacheLayer _ key data hpeek

theorem deleteDocument {moment : Moment} :
    CachedEngine.Coherent json (e.deleteDocument moment.ops moment.now collection docId).2
      (db.erase collection docId) := by
  have hrepresents := h.represents.deleteDocument collection docId
  obtain huncached | ⟨schema, hschema, hcached⟩ :=
    CachedEngine.uncached_or_cached e collection
  · rw [CachedEngine.deleteDocument_uncached huncached]
    refine h.erased hrepresents ?_ (.refl _)
    intro schema hschema hcached
    exact absurd (huncached schema hschema) hcached
  · rw [CachedEngine.deleteDocument_synchronous hschema hcached
      (h.synchronous collection schema hschema).1]
    refine h.erased hrepresents ?_ (CacheLayer.covers_remove e.cacheLayer _)
    intro schema' _ _
    rw [CacheLayer.peek_remove, if_pos rfl]

/-! ## Reads -/

-- A read through the cache returns what is cached, and that is the stored document; or what is
-- stored, and puts it into the cache.
theorem getCached {schema : Schema} (moment : Moment) (collection : String) (docId : DocumentId)
    (hschema : e.schemas[collection]? = some schema)
    (hstrategy : schema.cacheConfig.strategy ≠ .none) :
    CachedEngine.Coherent json
        (e.getCached moment.ops json moment.now collection docId schema).2 db ∧
      ∀ doc, (e.getCached moment.ops json moment.now collection docId schema).1 = .ok doc →
        doc.map Document.content = db collection docId := by
  obtain ⟨stored, hread, hstored⟩ := h.represents.getDocument collection docId moment.now
  have hcovers := CacheLayer.covers_get e.cacheLayer moment.now (makeCacheKey collection docId)
  have hafter := h.of_covers hcovers
  cases hlookup : (e.cacheLayer.get moment.now (makeCacheKey collection docId)).1 with
  | some data =>
    rw [CachedEngine.getCached_hit hlookup]
    obtain ⟨fields, hdata, hdb⟩ := h.cached collection schema docId data hschema hstrategy
      (CacheLayer.get_peek hlookup)
    refine ⟨hafter, fun doc hdoc => ?_⟩
    rw [hdata] at hdoc
    rw [← Except.ok.inj hdoc, hdb]
    rfl
  | none =>
    rw [CachedEngine.getCached_miss hlookup, hread]
    cases stored with
    | none =>
      refine ⟨hafter, fun doc hdoc => ?_⟩
      rw [← Except.ok.inj hdoc]
      exact hstored
    | some own =>
      have hid : own.id = docId := h.own collection docId own.content hstored.symm
      have hset := hafter.setDocument moment hschema (hid ▸ hstored.symm)
      rw [hid] at hset
      refine ⟨hset, fun doc hdoc => ?_⟩
      rw [CachedEngine.eq_of_populated hdoc]
      exact hstored

/-- A read that succeeds returns the document of the database, and may put it into the cache. -/
theorem getDocument (moment : Moment) (collection : String) (docId : DocumentId) :
    CachedEngine.Coherent json
        (e.getDocument moment.ops json moment.now collection docId).2 db ∧
      ∀ doc, (e.getDocument moment.ops json moment.now collection docId).1 = .ok doc →
        doc.map Document.content = db collection docId := by
  obtain ⟨doc, hread, hdoc⟩ := h.represents.getDocument collection docId moment.now
  obtain huncached | ⟨schema, hschema, hcached⟩ :=
    CachedEngine.uncached_or_cached e collection
  · rw [CachedEngine.getDocument_uncached huncached]
    refine ⟨h, fun own hown => ?_⟩
    rw [hread, Except.ok.injEq] at hown
    rw [← hown]
    exact hdoc
  · rw [CachedEngine.getDocument_cached hschema hcached]
    exact h.getCached moment collection docId hschema hcached

end Coherent

end CachedEngine

/-! ## Runs -/

/-- The calls of a run over collections with synchronous strategies: writes succeed, and an update
is given a document that carries the identifier it updates. -/
def EngineRun.Synchronous (json : DocumentJson) (catalogue : CatalogueJson) (run : EngineRun)
    (op : Moment × EngineCall) : Prop :=
  match op.2 with
  | .insert collection doc =>
    ':' ∉ collection.toList ∧ json.RoundTrips doc ∧
      (run.1.call json catalogue op.1 op.2).1 = .written (.ok ())
  | .update collection docId doc =>
    ':' ∉ collection.toList ∧ doc.id = docId ∧ json.RoundTrips doc ∧
      (run.1.call json catalogue op.1 op.2).1 = .written (.ok ())
  | .delete collection _ | .get collection _ | .preload collection _ | .refresh collection =>
    ':' ∉ collection.toList
  | .expire | .evict _ => True
  | .registerSchema _ _ | .processQueue | .flush | .dropCollection _ => False

namespace CachedEngine.Coherent

theorem new {json : DocumentJson} (config : CacheConfig)
    {schemas : Std.ExtTreeMap String Schema} (hschemas : VedDb.Synchronous schemas) :
    (CachedEngine.new config schemas).Coherent json Database.empty where
  synchronous := hschemas
  represents := .empty
  named _ _ hholds := absurd rfl hholds
  own _ _ _ hcontent := by cases hcontent
  cached _ _ _ data _ _ hpeek := by
    rw [show (CachedEngine.new config schemas).cacheLayer = CacheLayer.new config from rfl,
      CacheLayer.peek_new] at hpeek
    cases hpeek

/-- Every call keeps the cache coherent with the store. -/
theorem step {json : DocumentJson} {catalogue : CatalogueJson} {run : EngineRun}
    {op : Moment × EngineCall} (h : run.1.Coherent json run.2)
    (hop : run.Synchronous json catalogue op) :
    (run.step json catalogue op).1.Coherent json (run.step json catalogue op).2 := by
  obtain ⟨moment, engineCall⟩ := op
  have hupdate {collection : String} {docId : DocumentId} {doc : Document}
      (hname : ':' ∉ collection.toList) (hid : doc.id = docId) (hround : json.RoundTrips doc)
      (hreply : (run.1.call json catalogue moment (.update collection docId doc)).1 =
        .written (.ok ())) :
      (run.1.call json catalogue moment (.update collection docId doc)).2.Coherent json
        (run.2.insert collection docId doc.content) :=
    h.updateDocument hname hid hround (EngineReply.written.inj hreply)
  have hwarm {collection : String} :
      ∀ schema docs layer, run.1.schemas[collection]? = some schema →
        run.1.persistentLayer.scanCollection json moment.now collection = .ok docs →
        ∀ doc ∈ docs, CachedEngine.Coherent json { run.1 with cacheLayer := layer } run.2 →
          CachedEngine.Coherent json { run.1 with
            cacheLayer := (CachedEngine.setDocument layer moment collection doc.id doc schema).2 }
            run.2 :=
    fun schema docs layer hschema hscan doc hdoc hlayer =>
      hlayer.setDocument moment hschema (h.scanned hscan doc hdoc)
  cases engineCall with
  | registerSchema collection schema => exact hop.elim
  | insert collection doc =>
    obtain ⟨hname, hround, hreply⟩ := hop
    show (run.1.call json catalogue moment (.insert collection doc)).2.Coherent json _
    dsimp only at hreply
    rw [insert_eq] at hreply ⊢
    exact hupdate hname rfl hround hreply
  | update collection docId doc =>
    obtain ⟨hname, hid, hround, hreply⟩ := hop
    exact hupdate hname hid hround hreply
  | delete collection docId => exact h.deleteDocument
  | get collection docId => exact (h.getDocument moment collection docId).1
  | expire => exact h.of_covers (CacheLayer.covers_evictExpired _ _)
  | evict target => exact h.of_covers (CacheLayer.covers_evictByPolicy _ _ _ _)
  | preload collection limit =>
    obtain ⟨cacheLayer, hcache, heq⟩ := preload_cache
      (fun schema docs layer hschema hscan doc hdoc =>
        hwarm schema docs layer hschema hscan doc (List.mem_of_mem_take hdoc)) h
    show CachedEngine.Coherent json
      (run.1.preloadCollection moment.ops json moment.now collection limit).2 _
    rw [heq]
    exact hcache
  | refresh collection =>
    obtain ⟨cacheLayer, hcache, heq⟩ := refresh_cache hwarm h
    show CachedEngine.Coherent json
      (run.1.refreshCollectionCache moment.ops json moment.now collection).2 _
    rw [heq]
    exact hcache
  | processQueue => exact hop.elim
  | flush => exact hop.elim
  | dropCollection collection => exact hop.elim

end CachedEngine.Coherent

/-- Under synchronous strategies every read that succeeds returns the last write, over any cache and
whatever expires, is evicted or loaded in between. -/
theorem reads_own_writes {json : DocumentJson} {catalogue : CatalogueJson} (config : CacheConfig)
    {schemas : Std.ExtTreeMap String Schema} (hschemas : Synchronous schemas)
    {ops : List (Moment × EngineCall)}
    (h : MeetsAlong (EngineRun.step json catalogue) (EngineRun.Synchronous json catalogue)
      (CachedEngine.new config schemas, Database.empty) ops) :
    MeetsAlong (EngineRun.step json catalogue) (EngineRun.Reads json catalogue)
      (CachedEngine.new config schemas, Database.empty) ops := by
  refine MeetsAlong.imp (I := fun run : EngineRun => run.1.Coherent json run.2)
    ?_ ?_ (.new config hschemas) h
  · intro run op hcoherent hop
    exact hcoherent.step hop
  · intro run op hcoherent _ collection docId doc hget hreply
    rw [hget] at hreply
    exact (hcoherent.getDocument op.1 collection docId).2 doc (EngineReply.found.inj hreply)

def writtenAndRead : List (Moment × EngineCall) :=
  [(⟨0, .sorted⟩, .insert "users" (nullDocument ⟨1⟩)), (⟨1, .sorted⟩, .get "users" ⟨1⟩),
    (⟨2, .sorted⟩, .evict 10), (⟨3, .sorted⟩, .delete "users" ⟨1⟩),
    (⟨4, .sorted⟩, .get "users" ⟨1⟩)]

/-- A document is written, read, evicted, deleted and read again. -/
theorem writtenAndRead_reads :
    Synchronous (usersSchemas .writeThrough) ∧
    MeetsAlong (EngineRun.step nullDocuments plainCatalogue)
      (EngineRun.Synchronous nullDocuments plainCatalogue)
      (CachedEngine.new smallCache (usersSchemas .writeThrough), Database.empty) writtenAndRead ∧
    MeetsAlong (EngineRun.step nullDocuments plainCatalogue)
      (EngineRun.Reads nullDocuments plainCatalogue)
      (CachedEngine.new smallCache (usersSchemas .writeThrough), Database.empty)
      writtenAndRead := by
  have hschemas : Synchronous (usersSchemas .writeThrough) := by
    intro collection schema hschema
    obtain ⟨-, rfl⟩ := usersSchemas_eq_some hschema
    exact ⟨fun _ => nofun, rfl⟩
  have hname : ':' ∉ "users".toList := by decide
  have hrun : MeetsAlong (EngineRun.step nullDocuments plainCatalogue)
      (EngineRun.Synchronous nullDocuments plainCatalogue)
      (CachedEngine.new smallCache (usersSchemas .writeThrough), Database.empty)
      writtenAndRead :=
    ⟨⟨hname, nullDocuments_roundTrips_null _, rfl⟩, hname, trivial, hname, hname, trivial⟩
  exact ⟨hschemas, hrun, reads_own_writes smallCache hschemas hrun⟩

end VedDb
