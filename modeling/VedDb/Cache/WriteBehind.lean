import VedDb.Cache.Views

/-!
# Reading what was written behind

Under the write-behind strategy a write goes to the cache and waits in the queue; the store follows
later.  What is queued, replayed over the store, is what was last written, and so is what is cached.
So a read returns the last write when the cache has it whole, and on a miss when nothing queued
would still change the stored document.
-/

namespace VedDb

open HybridStorageEngine (makeCacheKey documentToCacheData)
open PersistentLayer (makeDocumentKey)

namespace CachedEngine

/-- What is queued brings the store to the documents written, and no other version is cached. -/
structure Behind (json : DocumentJson) (e : CachedEngine) (db : Database) (clock : DateTime) :
    Prop extends e.Pending json db clock where
  cached : ∀ collection schema docId data, WrittenBehind e.schemas collection schema →
    e.cacheLayer.peek (makeCacheKey collection docId) = some data →
    ∃ doc, db collection docId = some doc.content ∧ data = documentToCacheData doc schema

namespace Behind

variable {json : DocumentJson} {e : CachedEngine} {db db' : Database} {clock : DateTime}
  {moment : Moment} {collection : String} {docId : DocumentId} {doc : Document} {schema : Schema}

section

variable (h : e.Behind json db clock)

include h

theorem of_covers {cacheLayer : CacheLayer} (hcovers : e.cacheLayer.Covers cacheLayer) :
    CachedEngine.Behind json { e with cacheLayer := cacheLayer } db clock where
  toPending := h.toPending.of_cache cacheLayer
  cached name schema id data hbehind hdata :=
    h.cached name schema id data hbehind (hcovers _ _ hdata)

theorem mono {now : DateTime} (hclock : clock ≤ now) : e.Behind json db now where
  toPending := h.toPending.mono hclock
  cached := h.cached

-- What is cached after a call on one document: its last version, or nothing.
theorem cached_of {cacheLayer : CacheLayer}
    (hdb : ∀ name id, ¬(name = collection ∧ id = docId) → db' name id = db name id)
    (hown : ∀ schema, WrittenBehind e.schemas collection schema → ∀ data,
      cacheLayer.peek (makeCacheKey collection docId) = some data →
      ∃ doc, db' collection docId = some doc.content ∧ data = documentToCacheData doc schema)
    (hpeek : ∀ key data, key ≠ makeCacheKey collection docId → cacheLayer.peek key = some data →
      e.cacheLayer.peek key = some data) :
    ∀ name schema id data, WrittenBehind e.schemas name schema →
      cacheLayer.peek (makeCacheKey name id) = some data →
      ∃ doc, db' name id = some doc.content ∧ data = documentToCacheData doc schema := by
  intro name schema id data hbehind hdata
  by_cases hsame : name = collection ∧ id = docId
  · obtain ⟨rfl, rfl⟩ := hsame
    exact hown schema hbehind data hdata
  · rw [hdb name id hsame]
    refine h.cached name schema id data hbehind (hpeek _ data ?_ hdata)
    exact fun hkey => hsame (makeCacheKey_injective hkey)

-- The document that was last written may be put into the cache.
theorem setDocument (moment : Moment) (docId : DocumentId) (doc : Document)
    (hschema : e.schemas[collection]? = some schema)
    (hdoc : WrittenBehind e.schemas collection schema →
      db collection docId = some doc.content) :
    CachedEngine.Behind json { e with
      cacheLayer := (CachedEngine.setDocument e.cacheLayer moment collection docId doc schema).2 }
      db clock := by
  refine ⟨h.toPending.of_cache _, ?_⟩
  intro name schema' id data hbehind hdata
  obtain ⟨hkey, hvalue⟩ | hold := CacheLayer.peek_setWithTtl hdata
  · obtain ⟨rfl, rfl⟩ := makeCacheKey_injective hkey
    obtain rfl := hbehind.unique hschema
    exact ⟨doc, hdoc hbehind, hvalue⟩
  · exact h.cached name schema' id data hbehind hold

/-! ## Calls -/

theorem updateDocument (hclock : clock ≤ moment.now)
    (hwrite : ∀ schema, WrittenBehind e.schemas collection schema → json.RoundTrips doc ∧
      (e.updateDocument moment.ops json moment.now collection docId doc).1 = .ok ()) :
    CachedEngine.Behind json (e.updateDocument moment.ops json moment.now collection docId doc).2
      (db.insert collection docId doc.content) moment.now := by
  have hdb : ∀ name id, ¬(name = collection ∧ id = docId) →
      db.insert collection docId doc.content name id = db name id := by
    intro name id hsame
    rw [Database.insert, if_neg hsame]
  have hround (schema : Schema) (hbehind : WrittenBehind e.schemas collection schema) :
      json.RoundTrips doc := (hwrite schema hbehind).1
  by_cases hbehind : ∃ schema, WrittenBehind e.schemas collection schema
  · obtain ⟨schema, hbehind⟩ := hbehind
    have hok := (hwrite schema hbehind).2
    have hpending := h.toPending.updateDocument docId hclock hround
    rw [hok] at hpending
    refine ⟨hpending, ?_⟩
    obtain ⟨hschema, delayMs, hstrategy⟩ := hbehind
    have hfits : e.cacheLayer.Fits (documentToCacheData doc schema) := by
      by_contra hfits
      rw [updateDocument_writeBehind_error hschema hstrategy hfits] at hok
      cases hok
    rw [updateDocument_writeBehind hschema hstrategy hfits]
    refine h.cached_of hdb ?_ (fun _ _ => peek_setDocument_other)
    intro schema' hbehind data hdata
    obtain rfl := hbehind.unique hschema
    rw [peek_setDocument_self hfits, Option.some.injEq] at hdata
    exact ⟨doc, if_pos ⟨rfl, rfl⟩, hdata.symm⟩
  · have hnot : ∀ schema, ¬WrittenBehind e.schemas collection schema :=
      fun schema hown => hbehind ⟨schema, hown⟩
    obtain ⟨persistentLayer, cacheLayer, heq, hdecoded, hpeek⟩ :=
      updateDocument_frame json moment docId doc
        (fun schema delayMs hschema hstrategy => hnot schema ⟨hschema, delayMs, hstrategy⟩)
    rw [heq]
    refine ⟨((h.toPending.mono hclock).elsewhere docId hnot ?_ hdecoded).of_cache cacheLayer,
      h.cached_of hdb (fun schema hown => absurd hown (hnot schema)) hpeek⟩
    exact fun name id hname => hdb name id (fun hsame => hname hsame.1)

theorem deleteDocument (hclock : clock ≤ moment.now) :
    CachedEngine.Behind json (e.deleteDocument moment.ops moment.now collection docId).2
      (db.erase collection docId) moment.now := by
  refine ⟨h.toPending.deleteDocument collection docId hclock, ?_⟩
  have hdb : ∀ name id, ¬(name = collection ∧ id = docId) →
      db.erase collection docId name id = db name id := by
    intro name id hsame
    rw [Database.erase, if_neg hsame]
  by_cases hbehind : ∃ schema, WrittenBehind e.schemas collection schema
  · obtain ⟨schema, hschema, delayMs, hstrategy⟩ := hbehind
    rw [deleteDocument_writeBehind hschema hstrategy]
    refine h.cached_of hdb ?_ (fun key data _ => CacheLayer.covers_remove _ _ key data)
    intro _ _ data hdata
    rw [CacheLayer.peek_remove, if_pos rfl] at hdata
    cases hdata
  · have hnot : ∀ schema, ¬WrittenBehind e.schemas collection schema :=
      fun schema hown => hbehind ⟨schema, hown⟩
    obtain ⟨cacheLayer, heq, hcovers⟩ := deleteDocument_frame moment docId
      (fun schema delayMs hschema hstrategy => hnot schema ⟨hschema, delayMs, hstrategy⟩)
    rw [heq]
    exact h.cached_of hdb (fun schema hown => absurd hown (hnot schema))
      (fun key data _ => hcovers key data)

/-- A read of a collection that is written behind returns the last write, when it finds all of it in
the cache or nothing queued would change what is stored. -/
theorem getDocument (moment : Moment) (hbehind : WrittenBehind e.schemas collection schema)
    (hget : match (e.cacheLayer.get moment.now (makeCacheKey collection docId)).1 with
      | some _ => ∀ content, db collection docId = some content →
          content.1 = docId ∧ schema.CachesAll content.2
      | none => e.Settled json collection docId) :
    CachedEngine.Behind json
        (e.getDocument moment.ops json moment.now collection docId).2 db clock ∧
      ∀ doc, (e.getDocument moment.ops json moment.now collection docId).1 = .ok doc →
        doc.map Document.content = db collection docId := by
  rw [getDocument_cached hbehind.1 hbehind.cached]
  have hafter := h.of_covers
    (CacheLayer.covers_get e.cacheLayer moment.now (makeCacheKey collection docId))
  cases hlookup : (e.cacheLayer.get moment.now (makeCacheKey collection docId)).1 with
  | some data =>
    rw [hlookup] at hget
    rw [getCached_hit hlookup]
    obtain ⟨own, hown, hdata⟩ :=
      h.cached collection schema docId data hbehind (CacheLayer.get_peek hlookup)
    obtain ⟨hid, hall⟩ := hget own.content hown
    refine ⟨hafter, fun doc hdoc => ?_⟩
    rw [hdata, documentToCacheData_eq_iff.mpr hall] at hdoc
    rw [← Except.ok.inj hdoc, hown, ← hid]
    rfl
  | none =>
    rw [hlookup] at hget
    have hstored := h.toPending.stored_of_settled hbehind hget
    rw [getCached_miss hlookup]
    dsimp only
    rw [PersistentLayer.getDocument_eq_documentOf, hstored]
    cases hdb : db collection docId with
    | none => exact ⟨hafter, fun doc hdoc => by rw [← Except.ok.inj hdoc]; rfl⟩
    | some content =>
      refine ⟨hafter.setDocument moment docId _ hbehind.1 (fun _ => hdb), fun doc hdoc => ?_⟩
      rw [eq_of_populated hdoc]
      rfl

-- The scanned documents that are loaded are the last written.
theorem loaded {loaded : List Document → List Document}
    (hloads : ∀ schema docs, WrittenBehind e.schemas collection schema →
      e.persistentLayer.scanCollection json moment.now collection = .ok docs →
      ∀ doc ∈ loaded docs,
        e.persistentLayer.decoded json (makeDocumentKey collection doc.id) =
            some (.ok doc.content) ∧
          e.Settled json collection doc.id) :
    ∀ schema docs layer, e.schemas[collection]? = some schema →
      e.persistentLayer.scanCollection json moment.now collection = .ok docs →
      ∀ doc ∈ loaded docs, CachedEngine.Behind json { e with cacheLayer := layer } db clock →
        CachedEngine.Behind json { e with
          cacheLayer := (CachedEngine.setDocument layer moment collection doc.id doc schema).2 }
          db clock := by
  intro schema docs layer hschema hscan doc hdoc hlayer
  refine hlayer.setDocument moment doc.id doc hschema fun hbehind => ?_
  obtain ⟨hdecoded, hsettled⟩ := hloads schema docs hbehind hscan doc hdoc
  have hstored := h.toPending.stored_of_settled hbehind hsettled
  rw [hdecoded] at hstored
  cases hdb : db collection doc.id with
  | none =>
    rw [hdb] at hstored
    cases hstored
  | some content =>
    rw [hdb] at hstored
    rw [Except.ok.inj (Option.some.inj hstored)]

end

theorem new (json : DocumentJson) (config : CacheConfig)
    (schemas : Std.ExtTreeMap String Schema) (clock : DateTime) :
    (CachedEngine.new config schemas).Behind json Database.empty clock where
  toPending := pending_new json config schemas clock
  cached collection schema docId data _ hdata := by
    rw [show (CachedEngine.new config schemas).cacheLayer = CacheLayer.new config from rfl,
      CacheLayer.peek_new] at hdata
    cases hdata

end Behind

end CachedEngine

/-! ## Runs -/

/-- A run of an engine, and the time of its last call. -/
abbrev ClockedRun := EngineRun × DateTime

namespace ClockedRun

variable (json : DocumentJson) (catalogue : CatalogueJson)

def step (run : ClockedRun) (op : Moment × EngineCall) : ClockedRun :=
  (EngineRun.step json catalogue run.1 op, op.1.now)

/-- A read of a collection that is written behind, if it succeeds, returns the last version of the
document that was written. -/
def ReadsBehind (run : ClockedRun) (op : Moment × EngineCall) : Prop :=
  ∀ collection docId schema doc, op.2 = .get collection docId →
    WrittenBehind run.1.1.schemas collection schema →
    (run.1.1.call json catalogue op.1 op.2).1 = .found (.ok doc) →
    doc.map Document.content = run.1.2 collection docId

/-- A document to be written is read back as written, and the write succeeds. -/
def Writes (run : ClockedRun) (op : Moment × EngineCall) (collection : String) (doc : Document) :
    Prop :=
  ∀ schema, WrittenBehind run.1.1.schemas collection schema →
    json.RoundTrips doc ∧ (run.1.1.call json catalogue op.1 op.2).1 = .written (.ok ())

/-- The scanned documents are stored under their own identifiers, and nothing queued would change
them. -/
def LoadsSettled (run : ClockedRun) (now : DateTime) (collection : String)
    (loaded : List Document → List Document) : Prop :=
  ∀ schema docs, WrittenBehind run.1.1.schemas collection schema →
    run.1.1.persistentLayer.scanCollection json now collection = .ok docs →
    ∀ doc ∈ loaded docs,
      run.1.1.persistentLayer.decoded json (makeDocumentKey collection doc.id) =
          some (.ok doc.content) ∧
        run.1.1.Settled json collection doc.id

/-- The calls of a run over collections that are written behind.  Writes succeed; a read finds the
last version whole in the cache, or misses it when nothing queued would change the store; only
documents that nothing queued would change are loaded. -/
def KeepsBehind (run : ClockedRun) (op : Moment × EngineCall) : Prop :=
  run.2 ≤ op.1.now ∧
    match op.2 with
    | .insert collection doc | .update collection _ doc =>
      run.Writes json catalogue op collection doc
    | .get collection docId =>
      ∀ schema, WrittenBehind run.1.1.schemas collection schema →
        match (run.1.1.cacheLayer.get op.1.now (makeCacheKey collection docId)).1 with
        | some _ => ∀ content, run.1.2 collection docId = some content →
            content.1 = docId ∧ schema.CachesAll content.2
        | none => run.1.1.Settled json collection docId
    | .preload collection limit => run.LoadsSettled json op.1.now collection (List.take limit)
    | .refresh collection => run.LoadsSettled json op.1.now collection id
    | .delete _ _ | .expire | .evict _ | .processQueue | .flush => True
    | .registerSchema _ _ | .dropCollection _ => False

end ClockedRun

theorem CachedEngine.Behind.step {json : DocumentJson} {catalogue : CatalogueJson}
    {run : ClockedRun} {op : Moment × EngineCall} (h : run.1.1.Behind json run.1.2 run.2)
    (hop : run.KeepsBehind json catalogue op) :
    (run.step json catalogue op).1.1.Behind json (run.step json catalogue op).1.2
      (run.step json catalogue op).2 := by
  obtain ⟨moment, engineCall⟩ := op
  obtain ⟨hclock, hop⟩ := hop
  have hnow := h.mono hclock
  cases engineCall with
  | registerSchema collection schema => exact hop.elim
  | insert collection doc =>
    show (run.1.1.call json catalogue moment (.insert collection doc)).2.Behind json _ _
    have hwrites (schema : Schema) (hbehind : WrittenBehind run.1.1.schemas collection schema) :=
      hop schema hbehind
    simp only [insert_eq] at hwrites
    rw [insert_eq]
    exact h.updateDocument hclock fun schema hbehind =>
      ⟨(hwrites schema hbehind).1, EngineReply.written.inj (hwrites schema hbehind).2⟩
  | update collection docId doc =>
    exact h.updateDocument hclock fun schema hbehind =>
      ⟨(hop schema hbehind).1, EngineReply.written.inj (hop schema hbehind).2⟩
  | delete collection docId => exact h.deleteDocument hclock
  | get collection docId =>
    by_cases hbehind : ∃ schema, WrittenBehind run.1.1.schemas collection schema
    · obtain ⟨schema, hbehind⟩ := hbehind
      exact (hnow.getDocument moment hbehind (hop schema hbehind)).1
    · obtain ⟨cacheLayer, heq, hpeek⟩ :=
        CachedEngine.getDocument_frame json run.1.1 moment collection docId
      show CachedEngine.Behind json
        (run.1.1.getDocument moment.ops json moment.now collection docId).2 _ _
      rw [heq]
      exact ⟨hnow.toPending.of_cache cacheLayer, hnow.cached_of (fun _ _ _ => rfl)
        (fun schema hown => absurd ⟨schema, hown⟩ hbehind) hpeek⟩
  | expire => exact hnow.of_covers (CacheLayer.covers_evictExpired _ _)
  | evict target => exact hnow.of_covers (CacheLayer.covers_evictByPolicy _ _ _ _)
  | preload collection limit =>
    have hloads : run.LoadsSettled json moment.now collection (List.take limit) := hop
    obtain ⟨cacheLayer, hcache, heq⟩ := CachedEngine.preload_cache (hnow.loaded hloads) hnow
    show CachedEngine.Behind json
      (run.1.1.preloadCollection moment.ops json moment.now collection limit).2 _ _
    rw [heq]
    exact hcache
  | refresh collection =>
    obtain ⟨cacheLayer, hcache, heq⟩ := CachedEngine.refresh_cache (hnow.loaded hop) hnow
    show CachedEngine.Behind json
      (run.1.1.refreshCollectionCache moment.ops json moment.now collection).2 _ _
    rw [heq]
    exact hcache
  | processQueue =>
    obtain ⟨layer, heq, -⟩ :=
      HybridStorageEngine.processWriteBehindQueue_eq run.1.1 moment.now h.queued
    have hpending := hnow.toPending.processQueue moment.now
    show CachedEngine.Behind json (run.1.1.processWriteBehindQueue json moment.now) _ _
    rw [heq] at hpending ⊢
    exact ⟨hpending, h.cached⟩
  | flush =>
    obtain ⟨layer, heq, -⟩ := HybridStorageEngine.flush_eq run.1.1 h.queued
    have hpending := hnow.toPending.flush
    show CachedEngine.Behind json (run.1.1.flush json).2 _ _
    rw [heq] at hpending ⊢
    exact ⟨hpending, h.cached⟩
  | dropCollection collection => exact hop.elim

/-- Under the write-behind strategy every read that succeeds returns the last write, in every run
that does not read or load a document while the cache lacks the last version and the queue still
holds it. -/
theorem reads_own_writes_behind {json : DocumentJson} {catalogue : CatalogueJson}
    (config : CacheConfig) (schemas : Std.ExtTreeMap String Schema) (clock : DateTime)
    {ops : List (Moment × EngineCall)}
    (h : MeetsAlong (ClockedRun.step json catalogue) (ClockedRun.KeepsBehind json catalogue)
      ((CachedEngine.new config schemas, Database.empty), clock) ops) :
    MeetsAlong (ClockedRun.step json catalogue) (ClockedRun.ReadsBehind json catalogue)
      ((CachedEngine.new config schemas, Database.empty), clock) ops := by
  refine MeetsAlong.imp (I := fun run : ClockedRun => run.1.1.Behind json run.1.2 run.2)
    ?_ ?_ (.new json config schemas clock) h
  · intro run op hbehind hop
    exact hbehind.step hop
  · intro run op h hop collection docId schema doc hget hbehind hreply
    obtain ⟨moment, engineCall⟩ := op
    subst hget
    exact (h.getDocument moment hbehind (hop.2 schema hbehind)).2 doc (EngineReply.found.inj hreply)

/-- A schema under which a document expires from the cache before it is written to the store. -/
def briefSchema : Schema :=
  { wholeSchema (.writeBehind 10000) with
    cacheConfig := { (wholeSchema (.writeBehind 10000)).cacheConfig with ttl := some 1 } }

/-- A document that expires while it waits in the queue is not found. -/
theorem expired_document_missed :
    ¬MeetsAlong (ClockedRun.step nullDocuments plainCatalogue)
        (ClockedRun.ReadsBehind nullDocuments plainCatalogue)
        ((CachedEngine.new smallCache
          ((∅ : Std.ExtTreeMap String Schema).insert "users" briefSchema), Database.empty), 0)
        [(⟨0, .sorted⟩, .insert "users" (nullDocument ⟨1⟩)),
          (⟨5000000000, .sorted⟩, .get "users" ⟨1⟩)] := by
  intro ⟨_, hget, _⟩
  have hnone := hget "users" ⟨1⟩ briefSchema none rfl ⟨rfl, 10000, rfl⟩ rfl
  cases hnone

/-- A document is written, read from the cache, flushed, deleted and read again once the delete was
applied. -/
def writtenBehindAndRead : List (Moment × EngineCall) :=
  [(⟨0, .sorted⟩, .insert "users" (nullDocument ⟨1⟩)), (⟨1, .sorted⟩, .get "users" ⟨1⟩),
    (⟨2, .sorted⟩, .flush), (⟨3, .sorted⟩, .delete "users" ⟨1⟩), (⟨4, .sorted⟩, .flush),
    (⟨5, .sorted⟩, .get "users" ⟨1⟩)]

theorem writtenBehindAndRead_reads :
    MeetsAlong (ClockedRun.step nullDocuments plainCatalogue)
      (ClockedRun.KeepsBehind nullDocuments plainCatalogue)
      ((CachedEngine.new smallCache (usersSchemas (.writeBehind 100)), Database.empty), 0)
      writtenBehindAndRead ∧
    MeetsAlong (ClockedRun.step nullDocuments plainCatalogue)
      (ClockedRun.ReadsBehind nullDocuments plainCatalogue)
      ((CachedEngine.new smallCache (usersSchemas (.writeBehind 100)), Database.empty), 0)
      writtenBehindAndRead := by
  have hops : MeetsAlong (ClockedRun.step nullDocuments plainCatalogue)
      (ClockedRun.KeepsBehind nullDocuments plainCatalogue)
      ((CachedEngine.new smallCache (usersSchemas (.writeBehind 100)), Database.empty), 0)
      writtenBehindAndRead := by
    refine ⟨⟨by decide, ?_⟩, ⟨by decide, ?_⟩, ⟨by decide, trivial⟩, ⟨by decide, trivial⟩,
      ⟨by decide, trivial⟩, ⟨by decide, ?_⟩, trivial⟩
    · intro schema hbehind
      obtain rfl : wholeSchema (.writeBehind 100) = schema := Option.some.inj hbehind.1
      exact ⟨nullDocuments_roundTrips_null _, rfl⟩
    · intro schema hbehind
      obtain rfl : wholeSchema (.writeBehind 100) = schema := Option.some.inj hbehind.1
      intro content hcontent
      obtain rfl : (nullDocument ⟨1⟩).content = content := Option.some.inj hcontent
      exact ⟨rfl, nofun⟩
    · intro schema hbehind
      rfl
  exact ⟨hops, reads_own_writes_behind smallCache (usersSchemas (.writeBehind 100)) 0 hops⟩

end VedDb
