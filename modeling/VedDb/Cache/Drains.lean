import VedDb.Cache.Queue

/-!
# Draining the queue

A background pass and a flush both take entries from the queue before they apply them.  When the
store refuses a write, a pass reports it and goes on without the entry, and a flush stops there,
with the rest of the queue already taken.  Dropping a collection leaves the queue as it is.
-/

namespace VedDb

open HybridStorageEngine (documentToCacheData isDue)
open PersistentLayer (makeDocumentKey makeDocumentKey_injective isPrefixOf_makeDocumentKey_iff)

/-! ## A store that may refuse -/

namespace HybridStorageEngine

variable {C : Type} (json : DocumentJson)

/-- `process_write_behind_entry`, over a store that may refuse the write. -/
def processEntry (refusal : Option String) (e : HybridStorageEngine C) (entry : WriteBehindEntry) :
    Except StorageError Unit × HybridStorageEngine C :=
  match refusal with
  | some cause => (.error (.store cause), e)
  | none => e.processWriteBehindEntry json entry

/-- The loop of `process_write_behind_queue` over the entries it took, with the refusals of the
store by their position. -/
def processEntries :
    (Nat → Option String) → List WriteBehindEntry → HybridStorageEngine C → HybridStorageEngine C
  | _, [], e => e
  | refusals, entry :: entries, e =>
    processEntries (fun n => refusals (n + 1)) entries (e.processEntry json (refusals 0) entry).2

/-- One pass of `process_write_behind_queue`. -/
def pass (refusals : Nat → Option String) (now : DateTime) (e : HybridStorageEngine C) :
    HybridStorageEngine C :=
  processEntries json refusals (e.writeBehindQueue.filter (isDue now))
    { e with writeBehindQueue := e.writeBehindQueue.filter fun entry => !isDue now entry }

/-- The loop of `flush`. -/
def flushEntries : (Nat → Option String) → List WriteBehindEntry → HybridStorageEngine C →
    Except StorageError Unit × HybridStorageEngine C
  | _, [], e => (.ok (), e)
  | refusals, entry :: entries, e =>
    match e.processEntry json (refusals 0) entry with
    | (.error error, e) => (.error error, e)
    | (.ok (), e) => flushEntries (fun n => refusals (n + 1)) entries e

/-- `flush`. -/
def flushRefused (refusals : Nat → Option String) (e : HybridStorageEngine C) :
    Except StorageError Unit × HybridStorageEngine C :=
  flushEntries json refusals e.writeBehindQueue { e with writeBehindQueue := [] }

variable {json} {refusals : Nat → Option String} {entries : List WriteBehindEntry}

theorem processEntries_eq (h : ∀ n < entries.length, refusals n = none)
    (e : HybridStorageEngine C) :
    processEntries json refusals entries e =
      entries.foldl (fun e entry => (e.processWriteBehindEntry json entry).2) e := by
  induction entries generalizing refusals e with
  | nil => rfl
  | cons entry entries ih =>
    rw [processEntries, h 0 (Nat.zero_lt_succ _), List.foldl_cons]
    exact ih (fun n hn => h (n + 1) (Nat.succ_lt_succ hn)) _

theorem flushEntries_eq (h : ∀ n < entries.length, refusals n = none)
    (e : HybridStorageEngine C) :
    flushEntries json refusals entries e = processQueue json entries e := by
  induction entries generalizing refusals e with
  | nil => rfl
  | cons entry entries ih =>
    have hentry : e.processEntry json none entry = e.processWriteBehindEntry json entry := rfl
    have hrest := ih (fun n hn => h (n + 1) (Nat.succ_lt_succ hn))
    rw [flushEntries, processQueue, h 0 (Nat.zero_lt_succ _), hentry]
    rcases e.processWriteBehindEntry json entry with ⟨error | ok, e'⟩
    · rfl
    · exact hrest e'

theorem pass_eq {now : DateTime} (e : HybridStorageEngine C)
    (h : ∀ n < (e.writeBehindQueue.filter (isDue now)).length, refusals n = none) :
    e.pass json refusals now = e.processWriteBehindQueue json now :=
  processEntries_eq h _

theorem flushRefused_eq (e : HybridStorageEngine C)
    (h : ∀ n < e.writeBehindQueue.length, refusals n = none) :
    e.flushRefused json refusals = e.flush json :=
  flushEntries_eq h _

end HybridStorageEngine

/-! ## Runs -/

/-- The calls of the engine, and the drains of its queue over a store that may refuse writes. -/
inductive QueueCall where
  | call (engineCall : EngineCall)
  | pass (refusals : Nat → Option String)
  | flush (refusals : Nat → Option String)

/-- What was last done to each document: what the last write or delete that was queued leaves, and
which documents were dropped with their collection and not written since. -/
structure Ledger where
  last : Database
  gone : String → DocumentId → Prop

namespace Ledger

def empty : Ledger := { last := Database.empty, gone := fun _ _ => False }

def write (ledger : Ledger) (collection : String) (docId : DocumentId) (doc : Document) : Ledger :=
  { last := ledger.last.insert collection docId doc.content
    gone := fun name id => ¬(name = collection ∧ id = docId) ∧ ledger.gone name id }

/-- A call and its reply: a write that fails is not queued. -/
def after (ledger : Ledger) : EngineCall → EngineReply → Ledger
  | .insert collection doc, .written (.ok ()) => ledger.write collection doc.id doc
  | .update collection docId doc, .written (.ok ()) => ledger.write collection docId doc
  | .delete collection docId, _ => { ledger with last := ledger.last.erase collection docId }
  | .dropCollection collection, _ =>
    { last := ledger.last.drop collection
      gone := fun name id => name = collection ∨ ledger.gone name id }
  | _, _ => ledger

theorem after_update (ledger : Ledger) (collection : String) (docId : DocumentId) (doc : Document)
    (result : Except StorageError Unit) :
    ledger.after (.update collection docId doc) (.written result) =
      match result with
      | .ok () => ledger.write collection docId doc
      | .error _ => ledger := by
  cases result with
  | ok done => rfl
  | error error => rfl

theorem after_insert (ledger : Ledger) (collection : String) (doc : Document)
    (reply : EngineReply) :
    ledger.after (.insert collection doc) reply =
      ledger.after (.update collection doc.id doc) reply := by
  rcases reply with (error | done) | existed | result | -
  · rfl
  · rfl
  · rfl
  · rfl
  · rfl

end Ledger

structure QueueRun where
  engine : CachedEngine
  ledger : Ledger
  clock : DateTime

namespace QueueRun

variable (json : DocumentJson) (catalogue : CatalogueJson)

def new (config : CacheConfig) (schemas : Std.ExtTreeMap String Schema) (clock : DateTime) :
    QueueRun :=
  { engine := CachedEngine.new config schemas, ledger := .empty, clock := clock }

def step (run : QueueRun) (op : Moment × QueueCall) : QueueRun :=
  match op.2 with
  | .call engineCall =>
    let (reply, engine) := run.engine.call json catalogue op.1 engineCall
    { engine := engine, ledger := run.ledger.after engineCall reply, clock := op.1.now }
  | .pass refusals =>
    { run with engine := run.engine.pass json refusals op.1.now, clock := op.1.now }
  | .flush refusals =>
    { run with engine := (run.engine.flushRefused json refusals).2, clock := op.1.now }

/-- Each entry that left the queue was applied, in its order. -/
def Accounted (before after : CachedEngine) : Prop :=
  ∀ collection docId, ∃ applied,
    operationsOn before.writeBehindQueue collection docId =
      applied ++ operationsOn after.writeBehindQueue collection docId ∧
    after.persistentLayer.decoded json (makeDocumentKey collection docId) =
      replay applied (before.persistentLayer.decoded json (makeDocumentKey collection docId))

/-- What a step is to keep.  A drain applies what it takes from the queue; with nothing left in the
queue, the store holds the effect of the last operation on each document; and the store holds no
document that was dropped. -/
structure LosesNothing (run : QueueRun) (op : Moment × QueueCall) : Prop where
  accounted : (∀ engineCall, op.2 ≠ .call engineCall) →
    Accounted json run.engine (run.step json catalogue op).engine
  settled : (run.step json catalogue op).engine.writeBehindQueue = [] →
    ∀ collection schema docId,
      WrittenBehind (run.step json catalogue op).engine.schemas collection schema →
      (run.step json catalogue op).engine.persistentLayer.decoded json
          (makeDocumentKey collection docId) =
        ((run.step json catalogue op).ledger.last collection docId).map .ok
  gone : ∀ collection schema docId,
    WrittenBehind (run.step json catalogue op).engine.schemas collection schema →
    (run.step json catalogue op).ledger.gone collection docId →
    (run.step json catalogue op).engine.persistentLayer.decoded json
      (makeDocumentKey collection docId) = none

/-- The store refuses nothing that a drain takes from the queue.  A collection is dropped when no
write of it is queued, and the prefix that the drop removes reaches no stored document of another
collection, unless an operation on it is queued. -/
def Unrefused (run : QueueRun) (op : Moment × QueueCall) : Prop :=
  run.clock ≤ op.1.now ∧
    match op.2 with
    | .call (.insert collection doc) | .call (.update collection _ doc) =>
      ∀ schema, WrittenBehind run.engine.schemas collection schema → json.RoundTrips doc
    | .call (.dropCollection collection) =>
      (∀ entry ∈ run.engine.writeBehindQueue, entry.collection = collection →
        entry.operation = .delete) ∧
      ∀ name schema docId, WrittenBehind run.engine.schemas name schema →
        (collection ++ ":").toList <+: name.toList →
        operationsOn run.engine.writeBehindQueue name docId ≠ [] ∨
          run.engine.persistentLayer.decoded json (makeDocumentKey name docId) = none
    | .call (.registerSchema _ _) => False
    | .call _ => True
    | .pass refusals =>
      ∀ n < (run.engine.writeBehindQueue.filter (isDue op.1.now)).length, refusals n = none
    | .flush refusals => ∀ n < run.engine.writeBehindQueue.length, refusals n = none

/-! ## What a run keeps -/

/-- What is queued brings the store to the effects of the last operations, and neither the store nor
the queue holds a document that was dropped. -/
structure Kept (run : QueueRun) : Prop where
  pending : run.engine.Pending json run.ledger.last run.clock
  gone : ∀ collection schema docId, WrittenBehind run.engine.schemas collection schema →
    run.ledger.gone collection docId →
    run.engine.persistentLayer.decoded json (makeDocumentKey collection docId) = none ∧
      ∀ operation ∈ operationsOn run.engine.writeBehindQueue collection docId,
        operation.effect = none

theorem kept_new (config : CacheConfig) (schemas : Std.ExtTreeMap String Schema)
    (clock : DateTime) : (new config schemas clock).Kept json where
  pending := CachedEngine.pending_new json config schemas clock
  gone _ _ _ _ hgone := hgone.elim

namespace Kept

variable {json : DocumentJson} {catalogue : CatalogueJson} {run : QueueRun} {moment : Moment}
  {collection : String} {docId : DocumentId} {doc : Document} (h : run.Kept json)

include h

-- The cache plays no part.
theorem of_cache (hclock : run.clock ≤ moment.now) (cacheLayer : CacheLayer) :
    QueueRun.Kept json
      { run with engine := { run.engine with cacheLayer := cacheLayer }, clock := moment.now } where
  pending := (h.pending.mono hclock).of_cache cacheLayer
  gone := h.gone

theorem updateDocument (hclock : run.clock ≤ moment.now)
    (hround : ∀ schema, WrittenBehind run.engine.schemas collection schema → json.RoundTrips doc) :
    QueueRun.Kept json
      { engine := (run.engine.updateDocument moment.ops json moment.now collection docId doc).2
        ledger :=
          match (run.engine.updateDocument moment.ops json moment.now collection docId doc).1 with
          | .ok () => run.ledger.write collection docId doc
          | .error _ => run.ledger
        clock := moment.now } := by
  have hpending := h.pending.updateDocument docId hclock hround
  by_cases hbehind : ∃ schema, WrittenBehind run.engine.schemas collection schema
  · obtain ⟨schema, hschema, delayMs, hstrategy⟩ := hbehind
    by_cases hfits : run.engine.cacheLayer.Fits (documentToCacheData doc schema)
    · rw [CachedEngine.updateDocument_writeBehind hschema hstrategy hfits] at hpending ⊢
      refine ⟨hpending, ?_⟩
      intro name schema' id hbehind ⟨hother, hgone⟩
      obtain ⟨hstored, hqueued⟩ := h.gone name schema' id hbehind hgone
      refine ⟨hstored, fun operation hoperation => ?_⟩
      obtain hold | ⟨hname, hid, -⟩ := mem_operationsOn_concat.mp hoperation
      · exact hqueued operation hold
      · exact absurd ⟨hname.symm, hid.symm⟩ hother
    · rw [CachedEngine.updateDocument_writeBehind_error hschema hstrategy hfits] at hpending ⊢
      exact ⟨hpending, h.gone⟩
  · have hnot : ∀ schema, ¬WrittenBehind run.engine.schemas collection schema :=
      fun schema hown => hbehind ⟨schema, hown⟩
    obtain ⟨persistentLayer, cacheLayer, heq, hdecoded, -⟩ :=
      CachedEngine.updateDocument_frame json moment docId doc
        (fun schema delayMs hschema hstrategy => hnot schema ⟨hschema, delayMs, hstrategy⟩)
    rw [heq] at hpending ⊢
    have hgone {ledger : Ledger} (hledger : ∀ name id, ledger.gone name id →
        run.ledger.gone name id) : ∀ name schema id, WrittenBehind run.engine.schemas name schema →
        ledger.gone name id →
        persistentLayer.decoded json (makeDocumentKey name id) = none ∧
          ∀ operation ∈ operationsOn run.engine.writeBehindQueue name id,
            operation.effect = none := by
      intro name schema id hbehind hgone
      have hname : name ≠ collection := by
        intro heq
        rw [heq] at hbehind
        exact hnot schema hbehind
      rw [hdecoded _ (fun hkey => hname (makeDocumentKey_injective hkey).1)]
      exact h.gone name schema id hbehind (hledger name id hgone)
    cases hresult : (run.engine.updateDocument moment.ops json moment.now collection docId
        doc).1 with
    | ok done =>
      rw [hresult] at hpending
      exact ⟨hpending, hgone fun _ _ hown => hown.2⟩
    | error error =>
      rw [hresult] at hpending
      exact ⟨hpending, hgone fun _ _ => id⟩

theorem deleteDocument (hclock : run.clock ≤ moment.now) :
    QueueRun.Kept json
      { engine := (run.engine.deleteDocument moment.ops moment.now collection docId).2
        ledger := { run.ledger with last := run.ledger.last.erase collection docId }
        clock := moment.now } := by
  have hpending := h.pending.deleteDocument collection docId hclock
  by_cases hbehind : ∃ schema, WrittenBehind run.engine.schemas collection schema
  · obtain ⟨schema, hschema, delayMs, hstrategy⟩ := hbehind
    rw [CachedEngine.deleteDocument_writeBehind hschema hstrategy] at hpending ⊢
    refine ⟨hpending, ?_⟩
    intro name schema' id hbehind hgone
    obtain ⟨hstored, hqueued⟩ := h.gone name schema' id hbehind hgone
    refine ⟨hstored, fun operation hoperation => ?_⟩
    obtain hold | ⟨-, -, hdelete⟩ := mem_operationsOn_concat.mp hoperation
    · exact hqueued operation hold
    · rw [← hdelete]
      rfl
  · have hnot : ∀ schema, ¬WrittenBehind run.engine.schemas collection schema :=
      fun schema hown => hbehind ⟨schema, hown⟩
    obtain ⟨cacheLayer, heq, -⟩ := CachedEngine.deleteDocument_frame moment docId
      (fun schema delayMs hschema hstrategy => hnot schema ⟨hschema, delayMs, hstrategy⟩)
    rw [heq] at hpending ⊢
    refine ⟨hpending, ?_⟩
    intro name schema id hbehind hgone
    have hstored := h.gone name schema id hbehind hgone
    rw [PersistentLayer.decoded_deleteDocument]
    refine ⟨?_, hstored.2⟩
    split
    · rfl
    · exact hstored.1

theorem dropCollection (hclock : run.clock ≤ moment.now)
    (hqueue : ∀ entry ∈ run.engine.writeBehindQueue, entry.collection = collection →
      entry.operation = .delete)
    (hreach : ∀ name schema docId, WrittenBehind run.engine.schemas name schema →
      (collection ++ ":").toList <+: name.toList →
      operationsOn run.engine.writeBehindQueue name docId ≠ [] ∨
        run.engine.persistentLayer.decoded json (makeDocumentKey name docId) = none) :
    QueueRun.Kept json
      { engine := (run.engine.dropCollection moment.ops catalogue collection).2
        ledger := run.ledger.after (.dropCollection collection) .done
        clock := moment.now } := by
  have hdecoded (name : String) (id : DocumentId) :
      (run.engine.dropCollection moment.ops catalogue collection).2.persistentLayer.decoded json
          (makeDocumentKey name id) =
        if collection = name ∨ (collection ++ ":").toList <+: name.toList then none
        else run.engine.persistentLayer.decoded json (makeDocumentKey name id) := by
    refine (PersistentLayer.decoded_dropCollection json catalogue run.engine.persistentLayer
      collection (makeDocumentKey name id)).trans ?_
    simp only [isPrefixOf_makeDocumentKey_iff]
  have hdeletes (id : DocumentId) :
      ∀ operation ∈ operationsOn run.engine.writeBehindQueue collection id,
        operation.effect = none := by
    intro operation hoperation
    obtain ⟨entry, hentry, hown, -, heq⟩ := mem_operationsOn.mp hoperation
    rw [← heq, hqueue entry hentry hown]
    rfl
  refine ⟨⟨h.pending.steady.mono hclock, h.pending.queued, ?_⟩, ?_⟩
  · intro name schema id hbehind
    have hpending := h.pending.pending name schema id hbehind
    show replay (operationsOn run.engine.writeBehindQueue name id) _ =
      (run.ledger.last.drop collection name id).map .ok
    rw [hdecoded, Database.drop]
    by_cases hname : name = collection
    · rw [if_pos hname, if_pos (.inl hname.symm), hname]
      exact replay_eq_none (hdeletes id)
    · rw [if_neg hname, ← hpending]
      by_cases hreached : (collection ++ ":").toList <+: name.toList
      · rw [if_pos (.inr hreached)]
        obtain hqueued | hnone := hreach name schema id hbehind hreached
        · exact replay_congr hqueued _ _
        · rw [hnone]
      · rw [if_neg (not_or.mpr ⟨Ne.symm hname, hreached⟩)]
  · intro name schema id hbehind hgone
    show _ ∧ ∀ operation ∈ operationsOn run.engine.writeBehindQueue name id, _
    rw [hdecoded]
    obtain rfl | hgone := hgone
    · exact ⟨if_pos (.inl rfl), hdeletes id⟩
    · have hstored := h.gone name schema id hbehind hgone
      rw [hstored.1, ite_self]
      exact ⟨rfl, hstored.2⟩

-- A drain over a store that refuses nothing.
theorem drained {engine : CachedEngine} (hclock : run.clock ≤ moment.now)
    (hpending : engine.Pending json run.ledger.last run.clock)
    (hschemas : engine.schemas = run.engine.schemas)
    (haccounted : Accounted json run.engine engine) :
    QueueRun.Kept json { run with engine := engine, clock := moment.now } := by
  refine ⟨hpending.mono hclock, ?_⟩
  intro name schema id hbehind hgone
  rw [hschemas] at hbehind
  obtain ⟨hstored, hqueued⟩ := h.gone name schema id hbehind hgone
  obtain ⟨applied, hoperations, hdecoded⟩ := haccounted name id
  rw [hoperations, List.forall_mem_append] at hqueued
  rw [hdecoded, hstored]
  exact ⟨replay_eq_none hqueued.1, hqueued.2⟩

theorem processQueue_accounted (now : DateTime) :
    Accounted json run.engine (run.engine.processWriteBehindQueue json now) := by
  obtain ⟨layer, heq, hlayer⟩ :=
    HybridStorageEngine.processWriteBehindQueue_eq run.engine now h.pending.queued
  intro name id
  rw [heq]
  exact ⟨_, h.pending.steady.operationsOn_eq now name id, hlayer name id⟩

theorem processQueue (hclock : run.clock ≤ moment.now) :
    QueueRun.Kept json { run with
      engine := run.engine.processWriteBehindQueue json moment.now
      clock := moment.now } := by
  obtain ⟨layer, heq, -⟩ :=
    HybridStorageEngine.processWriteBehindQueue_eq run.engine moment.now h.pending.queued
  exact h.drained hclock (h.pending.processQueue moment.now) (by rw [heq])
    (h.processQueue_accounted moment.now)

theorem flush_accounted : Accounted json run.engine (run.engine.flush json).2 := by
  obtain ⟨layer, heq, hlayer⟩ := HybridStorageEngine.flush_eq run.engine h.pending.queued
  intro name id
  rw [heq]
  exact ⟨_, (List.append_nil _).symm, hlayer name id⟩

theorem flush (hclock : run.clock ≤ moment.now) :
    QueueRun.Kept json
      { run with engine := (run.engine.flush json).2, clock := moment.now } := by
  obtain ⟨layer, heq, -⟩ := HybridStorageEngine.flush_eq run.engine h.pending.queued
  exact h.drained hclock h.pending.flush (by rw [heq]) h.flush_accounted

theorem step {op : Moment × QueueCall} (hop : run.Unrefused json op) :
    (run.step json catalogue op).Kept json := by
  obtain ⟨moment, call⟩ := op
  obtain ⟨hclock, hop⟩ := hop
  have hcache (cacheLayer : CacheLayer) := h.of_cache hclock cacheLayer
  have hupdate {collection : String} {docId : DocumentId} {doc : Document}
      (hround : ∀ schema, WrittenBehind run.engine.schemas collection schema →
        json.RoundTrips doc) :
      (run.step json catalogue (moment, .call (.update collection docId doc))).Kept json := by
    show QueueRun.Kept json
      { engine := (run.engine.updateDocument moment.ops json moment.now collection docId doc).2
        ledger := run.ledger.after (.update collection docId doc)
          (.written (run.engine.updateDocument moment.ops json moment.now collection docId doc).1)
        clock := moment.now }
    rw [Ledger.after_update]
    exact h.updateDocument hclock hround
  cases call with
  | call engineCall =>
    cases engineCall with
    | registerSchema collection schema => exact hop.elim
    | insert collection doc =>
      simp only [QueueRun.step, CachedEngine.insert_eq, Ledger.after_insert]
      exact hupdate hop
    | update collection docId doc => exact hupdate hop
    | delete collection docId => exact h.deleteDocument hclock
    | get collection docId =>
      obtain ⟨cacheLayer, heq, -⟩ :=
        CachedEngine.getDocument_frame json run.engine moment collection docId
      show QueueRun.Kept json { run with
        engine := (run.engine.getDocument moment.ops json moment.now collection docId).2
        clock := moment.now }
      rw [heq]
      exact hcache cacheLayer
    | expire => exact hcache _
    | evict target => exact hcache _
    | preload collection limit =>
      obtain ⟨cacheLayer, heq⟩ :=
        CachedEngine.preload_frame json run.engine moment collection limit
      show QueueRun.Kept json { run with
        engine := (run.engine.preloadCollection moment.ops json moment.now collection limit).2
        clock := moment.now }
      rw [heq]
      exact hcache cacheLayer
    | refresh collection =>
      obtain ⟨cacheLayer, heq⟩ :=
        CachedEngine.refresh_frame json run.engine moment collection
      show QueueRun.Kept json { run with
        engine := (run.engine.refreshCollectionCache moment.ops json moment.now collection).2
        clock := moment.now }
      rw [heq]
      exact hcache cacheLayer
    | processQueue => exact h.processQueue hclock
    | flush => exact h.flush hclock
    | dropCollection collection => exact h.dropCollection hclock hop.1 hop.2
  | pass refusals =>
    have heq : run.engine.pass json refusals moment.now =
        run.engine.processWriteBehindQueue json moment.now :=
      HybridStorageEngine.pass_eq run.engine hop
    show QueueRun.Kept json
      { run with engine := run.engine.pass json refusals moment.now, clock := moment.now }
    rw [heq]
    exact h.processQueue hclock
  | flush refusals =>
    have heq : run.engine.flushRefused json refusals = run.engine.flush json :=
      HybridStorageEngine.flushRefused_eq run.engine hop
    show QueueRun.Kept json
      { run with engine := (run.engine.flushRefused json refusals).2, clock := moment.now }
    rw [heq]
    exact h.flush hclock

theorem losesNothing {op : Moment × QueueCall} (hop : run.Unrefused json op) :
    run.LosesNothing json catalogue op := by
  have hafter : (run.step json catalogue op).Kept json := h.step hop
  refine ⟨?_, ?_, ?_⟩
  · intro hdrain
    obtain ⟨moment, call⟩ := op
    cases call with
    | call engineCall => exact absurd rfl (hdrain engineCall)
    | pass refusals =>
      have heq : run.engine.pass json refusals moment.now =
          run.engine.processWriteBehindQueue json moment.now :=
        HybridStorageEngine.pass_eq run.engine hop.2
      show Accounted json run.engine (run.engine.pass json refusals moment.now)
      rw [heq]
      exact h.processQueue_accounted moment.now
    | flush refusals =>
      have heq : run.engine.flushRefused json refusals = run.engine.flush json :=
        HybridStorageEngine.flushRefused_eq run.engine hop.2
      show Accounted json run.engine (run.engine.flushRefused json refusals).2
      rw [heq]
      exact h.flush_accounted
  · intro hempty collection schema docId hbehind
    have hpending := hafter.pending.pending collection schema docId hbehind
    rw [hempty] at hpending
    exact hpending
  · intro collection schema docId hbehind hgone
    exact (hafter.gone collection schema docId hbehind hgone).1

end Kept

end QueueRun

/-- The write-behind queue loses nothing and brings back nothing that was dropped, in every run in
which the store refuses no write of a drain and a collection is dropped only when no write of it is
queued and the drop reaches no other stored document. -/
theorem write_behind_loses_nothing {json : DocumentJson} {catalogue : CatalogueJson}
    (config : CacheConfig) (schemas : Std.ExtTreeMap String Schema) (clock : DateTime)
    {ops : List (Moment × QueueCall)}
    (h : MeetsAlong (QueueRun.step json catalogue) (QueueRun.Unrefused json)
      (QueueRun.new config schemas clock) ops) :
    MeetsAlong (QueueRun.step json catalogue) (QueueRun.LosesNothing json catalogue)
      (QueueRun.new config schemas clock) ops :=
  h.imp (fun hkept hop => hkept.step hop) (fun hkept hop => hkept.losesNothing hop)
    (QueueRun.kept_new json config schemas clock)

/-- A flush that the store refuses at its first entry loses the second. -/
theorem refused_flush_loses_queue :
    ¬MeetsAlong (QueueRun.step nullDocuments plainCatalogue)
        (QueueRun.LosesNothing nullDocuments plainCatalogue)
        (QueueRun.new smallCache (usersSchemas (.writeBehind 100)) 0)
        [(⟨0, .sorted⟩, .call (.insert "users" (nullDocument ⟨1⟩))),
          (⟨1, .sorted⟩, .call (.insert "users" (nullDocument ⟨2⟩))),
          (⟨2, .sorted⟩, .flush fun n => if n = 0 then some "disk full" else none)] := by
  intro ⟨_, _, hflush, _⟩
  have hstored := hflush.settled rfl "users" (wholeSchema (.writeBehind 100)) ⟨2⟩ ⟨rfl, 100, rfl⟩
  cases hstored

def drainedRun : List (Moment × QueueCall) :=
  [(⟨0, .sorted⟩, .call (.insert "users" (nullDocument ⟨1⟩))),
    (⟨50000000, .sorted⟩, .pass fun _ => none), (⟨100000000, .sorted⟩, .pass fun _ => none),
    (⟨100000001, .sorted⟩, .call (.delete "users" ⟨1⟩)),
    (⟨100000002, .sorted⟩, .flush fun _ => none),
    (⟨100000003, .sorted⟩, .call (.dropCollection "users"))]

theorem drainedRun_loses_nothing :
    MeetsAlong (QueueRun.step nullDocuments plainCatalogue) (QueueRun.Unrefused nullDocuments)
      (QueueRun.new smallCache (usersSchemas (.writeBehind 100)) 0) drainedRun ∧
    MeetsAlong (QueueRun.step nullDocuments plainCatalogue)
      (QueueRun.LosesNothing nullDocuments plainCatalogue)
      (QueueRun.new smallCache (usersSchemas (.writeBehind 100)) 0) drainedRun := by
  have hops : MeetsAlong (QueueRun.step nullDocuments plainCatalogue)
      (QueueRun.Unrefused nullDocuments)
      (QueueRun.new smallCache (usersSchemas (.writeBehind 100)) 0) drainedRun := by
    refine ⟨⟨by decide, ?_⟩, ⟨by decide, fun _ _ => rfl⟩, ⟨by decide, fun _ _ => rfl⟩,
      ⟨by decide, trivial⟩, ⟨by decide, fun _ _ => rfl⟩, ⟨by decide, ?_, ?_⟩, trivial⟩
    · exact fun _ _ => nullDocuments_roundTrips_null _
    · intro entry hentry
      cases hentry
    · intro name schema docId hbehind hreach
      obtain ⟨rfl, -⟩ := usersSchemas_eq_some hbehind.1
      exact absurd hreach (not_prefix_append_colon "users")
  exact ⟨hops, write_behind_loses_nothing smallCache (usersSchemas (.writeBehind 100)) 0 hops⟩

end VedDb
