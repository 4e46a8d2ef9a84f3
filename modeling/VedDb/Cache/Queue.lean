import Mathlib.Data.List.Induction
import VedDb.Cache.Engine

/-!
# The write-behind queue

What waits in the queue for one document, in which order it falls due, and what the passes over the
queue make of the store.  Of the operations on a document only the last counts.
-/

namespace VedDb

open PersistentLayer (makeDocumentKey makeDocumentKey_injective)
open HybridStorageEngine (documentToCacheData isDue)

/-! ## Operations on one document -/

/-- What the operation leaves stored, decoded. -/
def WriteBehindOperation.effect :
    WriteBehindOperation → Option (Except String (DocumentId × Fields))
  | .write doc => some (.ok doc.content)
  | .delete => none

def WriteBehindEntry.RoundTrips (json : DocumentJson) (entry : WriteBehindEntry) : Prop :=
  ∀ doc, entry.operation = .write doc → json.RoundTrips doc

def operationsOn (queue : List WriteBehindEntry) (collection : String) (docId : DocumentId) :
    List WriteBehindOperation :=
  (queue.filter fun entry => entry.collection = collection ∧ entry.docId = docId).map
    WriteBehindEntry.operation

def replay (operations : List WriteBehindOperation)
    (stored : Option (Except String (DocumentId × Fields))) :
    Option (Except String (DocumentId × Fields)) :=
  operations.foldl (fun _ operation => operation.effect) stored

theorem operationsOn_append (queue queue' : List WriteBehindEntry) (collection : String)
    (docId : DocumentId) :
    operationsOn (queue ++ queue') collection docId =
      operationsOn queue collection docId ++ operationsOn queue' collection docId := by
  simp only [operationsOn, List.filter_append, List.map_append]

theorem operationsOn_cons_self {entry : WriteBehindEntry} {collection : String}
    {docId : DocumentId} (h : entry.collection = collection ∧ entry.docId = docId)
    (queue : List WriteBehindEntry) :
    operationsOn (entry :: queue) collection docId =
      entry.operation :: operationsOn queue collection docId := by
  simp only [operationsOn, List.filter_cons, h, and_self, decide_true, if_true, List.map_cons]

theorem operationsOn_cons_other {entry : WriteBehindEntry} {collection : String}
    {docId : DocumentId} (h : ¬(entry.collection = collection ∧ entry.docId = docId))
    (queue : List WriteBehindEntry) :
    operationsOn (entry :: queue) collection docId = operationsOn queue collection docId := by
  simp only [operationsOn, List.filter_cons, h, decide_false, Bool.false_eq_true, if_false]

theorem mem_operationsOn {queue : List WriteBehindEntry} {collection : String}
    {docId : DocumentId} {operation : WriteBehindOperation} :
    operation ∈ operationsOn queue collection docId ↔
      ∃ entry ∈ queue, entry.collection = collection ∧ entry.docId = docId ∧
        entry.operation = operation := by
  simp only [operationsOn, List.mem_map, List.mem_filter, decide_eq_true_eq, and_assoc]

theorem replay_append (operations operations' : List WriteBehindOperation)
    (stored : Option (Except String (DocumentId × Fields))) :
    replay (operations ++ operations') stored = replay operations' (replay operations stored) :=
  List.foldl_append

-- The last operation decides, and without one nothing changes.
theorem replay_eq (operations : List WriteBehindOperation)
    (stored : Option (Except String (DocumentId × Fields))) :
    replay operations stored =
      match operations.getLast? with
      | some operation => operation.effect
      | none => stored := by
  induction operations using List.reverseRecOn with
  | nil => rfl
  | append_singleton operations operation ih =>
    rw [replay_append, List.getLast?_append]
    rfl

-- An entry that is queued adds its operation to those on its own document.
theorem mem_operationsOn_concat {queue : List WriteBehindEntry} {entry : WriteBehindEntry}
    {collection : String} {docId : DocumentId} {operation : WriteBehindOperation} :
    operation ∈ operationsOn (queue ++ [entry]) collection docId ↔
      operation ∈ operationsOn queue collection docId ∨
        entry.collection = collection ∧ entry.docId = docId ∧ entry.operation = operation := by
  simp only [mem_operationsOn, List.mem_append, List.mem_singleton, or_and_right, exists_or,
    exists_eq_left]

-- After any operation it no longer matters what was stored before.
theorem replay_congr {operations : List WriteBehindOperation} (h : operations ≠ [])
    (stored stored' : Option (Except String (DocumentId × Fields))) :
    replay operations stored = replay operations stored' := by
  cases operations with
  | nil => exact absurd rfl h
  | cons operation operations => rfl

-- Deletes leave nothing where nothing was.
theorem replay_eq_none {operations : List WriteBehindOperation}
    (h : ∀ operation ∈ operations, operation.effect = none) : replay operations none = none := by
  rw [replay_eq]
  cases hlast : operations.getLast? with
  | none => rfl
  | some operation => exact h operation (List.mem_of_getLast? hlast)

/-! ## Order -/

-- Where the elements taken come before the others, taking them cuts the list in two.
theorem filter_append_of_pairwise {α : Type} {p : α → Bool} {l : List α}
    (h : l.Pairwise fun a b => p b = true → p a = true) :
    l.filter p ++ l.filter (fun a => !p a) = l := by
  induction l with
  | nil => rfl
  | cons a l ih =>
    rw [List.pairwise_cons] at h
    by_cases ha : p a = true
    · rw [List.filter_cons_of_pos ha, List.filter_cons_of_neg (by simpa using ha),
        List.cons_append, ih h.2]
    · have hnone : l.filter p = [] := by
        rw [List.filter_eq_nil_iff]
        exact fun b hb hpb => ha (h.1 b hb hpb)
      have hrest := ih h.2
      rw [hnone, List.nil_append] at hrest
      rw [List.filter_cons_of_neg ha, hnone, List.filter_cons_of_pos (by simpa using ha), hrest]
      rfl

/-- A queue that the calls of an engine fill: the schema of a collection gives its entries their
delay, and the clock does not go back. -/
structure Steady (schemas : Std.ExtTreeMap String Schema) (clock : DateTime)
    (queue : List WriteBehindEntry) : Prop where
  delays : ∀ entry ∈ queue, ∃ schema, schemas[entry.collection]? = some schema ∧
    schema.cacheConfig.strategy = .writeBehind entry.delayMs
  past : ∀ entry ∈ queue, entry.queuedAt ≤ clock
  sorted : queue.Pairwise fun a b => a.queuedAt ≤ b.queuedAt

namespace Steady

variable {schemas : Std.ExtTreeMap String Schema} {clock now : DateTime}
  {queue : List WriteBehindEntry}

theorem nil : Steady schemas clock [] where
  delays := nofun
  past := nofun
  sorted := .nil

theorem filter (h : Steady schemas clock queue) (p : WriteBehindEntry → Bool) :
    Steady schemas clock (queue.filter p) where
  delays entry hentry := h.delays entry (List.mem_of_mem_filter hentry)
  past entry hentry := h.past entry (List.mem_of_mem_filter hentry)
  sorted := h.sorted.filter p

theorem mono (h : Steady schemas clock queue) (hclock : clock ≤ now) :
    Steady schemas now queue where
  delays := h.delays
  past entry hentry := (h.past entry hentry).trans hclock
  sorted := h.sorted

theorem concat (h : Steady schemas clock queue) {entry : WriteBehindEntry} {schema : Schema}
    (hschema : schemas[entry.collection]? = some schema)
    (hstrategy : schema.cacheConfig.strategy = .writeBehind entry.delayMs)
    (hnow : clock ≤ entry.queuedAt) :
    Steady schemas entry.queuedAt (queue ++ [entry]) where
  delays := by
    rw [List.forall_mem_append, List.forall_mem_singleton]
    exact ⟨h.delays, schema, hschema, hstrategy⟩
  past := by
    rw [List.forall_mem_append, List.forall_mem_singleton]
    exact ⟨fun own hown => (h.past own hown).trans hnow, le_refl _⟩
  sorted := by
    rw [List.pairwise_append]
    refine ⟨h.sorted, List.pairwise_singleton _ _, fun own hown other hother => ?_⟩
    rw [List.mem_singleton.mp hother]
    exact (h.past own hown).trans hnow

/-- The operations on a document fall due in their order, so those that are due come first. -/
theorem operationsOn_eq (h : Steady schemas clock queue) (now : DateTime) (collection : String)
    (docId : DocumentId) :
    operationsOn queue collection docId =
      operationsOn (queue.filter (isDue now)) collection docId ++
        operationsOn (queue.filter fun entry => !isDue now entry) collection docId := by
  let own := queue.filter fun entry => entry.collection = collection ∧ entry.docId = docId
  have hcut : own.filter (isDue now) ++ own.filter (fun entry => !isDue now entry) = own := by
    apply filter_append_of_pairwise
    refine (h.sorted.filter _).imp_of_mem ?_
    intro a b ha hb hle hdue
    obtain ⟨haq, ha⟩ := List.mem_filter.mp ha
    obtain ⟨hbq, hb⟩ := List.mem_filter.mp hb
    obtain ⟨schema, hschema, hstrategy⟩ := h.delays a haq
    obtain ⟨schema', hschema', hstrategy'⟩ := h.delays b hbq
    have hsame : a.collection = b.collection := by
      simp only [decide_eq_true_eq] at ha hb
      rw [ha.1, hb.1]
    -- one collection has one schema, and that one delay
    rw [hsame, hschema', Option.some.injEq] at hschema
    rw [← hschema, hstrategy', CacheStrategy.writeBehind.injEq] at hstrategy
    have hwaited := Int.sub_le_sub_left hle now
    simp only [isDue, decide_eq_true_eq] at hdue ⊢
    omega
  unfold operationsOn
  rw [← List.map_append, List.filter_comm _ (isDue now),
    List.filter_comm _ fun entry => !isDue now entry]
  exact congrArg (List.map WriteBehindEntry.operation) hcut.symm

end Steady

/-! ## Passes -/

namespace HybridStorageEngine

variable {C : Type} {json : DocumentJson}

theorem processWriteBehindEntry_eq {entry : WriteBehindEntry} (hround : entry.RoundTrips json)
    (e : HybridStorageEngine C) :
    ∃ layer, e.processWriteBehindEntry json entry =
        (.ok (), { e with persistentLayer := layer }) ∧
      ∀ collection docId, layer.decoded json (makeDocumentKey collection docId) =
        replay (operationsOn [entry] collection docId)
          (e.persistentLayer.decoded json (makeDocumentKey collection docId)) := by
  have hkey (collection : String) (docId : DocumentId) :
      makeDocumentKey entry.collection entry.docId = makeDocumentKey collection docId ↔
        entry.collection = collection ∧ entry.docId = docId := by
    constructor
    · exact makeDocumentKey_injective
    · intro ⟨hcollection, hid⟩
      rw [hcollection, hid]
  unfold processWriteBehindEntry
  cases hoperation : entry.operation with
  | write doc =>
    obtain ⟨value, hto, hfrom⟩ := hround doc hoperation
    refine ⟨{ e.persistentLayer with
      documents := e.persistentLayer.documents.insert
        (makeDocumentKey entry.collection entry.docId) value }, ?_, ?_⟩
    · simp only [persist, PersistentLayer.insertDocument, hto]
    · intro collection docId
      rw [PersistentLayer.decoded_insert, hfrom]
      by_cases hown : entry.collection = collection ∧ entry.docId = docId
      · rw [if_pos ((hkey collection docId).mpr hown), operationsOn_cons_self hown, hoperation]
        rfl
      · rw [if_neg (mt (hkey collection docId).mp hown), operationsOn_cons_other hown]
        rfl
  | delete =>
    refine ⟨(e.persistentLayer.deleteDocument entry.collection entry.docId).2, rfl, ?_⟩
    intro collection docId
    rw [PersistentLayer.decoded_deleteDocument]
    by_cases hown : entry.collection = collection ∧ entry.docId = docId
    · rw [if_pos ((hkey collection docId).mpr hown), operationsOn_cons_self hown, hoperation]
      rfl
    · rw [if_neg (mt (hkey collection docId).mp hown), operationsOn_cons_other hown]
      rfl

theorem processQueue_eq {entries : List WriteBehindEntry}
    (hround : ∀ entry ∈ entries, entry.RoundTrips json) (e : HybridStorageEngine C) :
    ∃ layer, processQueue json entries e = (.ok (), { e with persistentLayer := layer }) ∧
      entries.foldl (fun e entry => (e.processWriteBehindEntry json entry).2) e =
        { e with persistentLayer := layer } ∧
      ∀ collection docId, layer.decoded json (makeDocumentKey collection docId) =
        replay (operationsOn entries collection docId)
          (e.persistentLayer.decoded json (makeDocumentKey collection docId)) := by
  induction entries generalizing e with
  | nil => exact ⟨e.persistentLayer, rfl, rfl, fun _ _ => rfl⟩
  | cons entry entries ih =>
    obtain ⟨first, hentry, hfirst⟩ :=
      processWriteBehindEntry_eq (hround entry List.mem_cons_self) e
    obtain ⟨layer, hflush, hpass, hlayer⟩ :=
      ih (fun own hown => hround own (List.mem_cons_of_mem _ hown))
        { e with persistentLayer := first }
    refine ⟨layer, ?_, ?_, ?_⟩
    · rw [processQueue, hentry]
      exact hflush
    · rw [List.foldl_cons, hentry]
      exact hpass
    · intro collection docId
      rw [hlayer, hfirst, ← replay_append, ← operationsOn_append]
      rfl

-- The passes leave the cache alone, whether or not their writes succeed.
theorem processWriteBehindEntry_cacheLayer (entry : WriteBehindEntry) (e : HybridStorageEngine C) :
    (e.processWriteBehindEntry json entry).2.cacheLayer = e.cacheLayer := by
  unfold processWriteBehindEntry
  split
  · next doc _ =>
      unfold persist
      cases e.persistentLayer.insertDocument json entry.collection entry.docId doc with
      | error error => rfl
      | ok layer => rfl
  · rfl

theorem processWriteBehindQueue_cacheLayer (now : DateTime) (e : HybridStorageEngine C) :
    (e.processWriteBehindQueue json now).cacheLayer = e.cacheLayer := by
  have hfold (entries : List WriteBehindEntry) (e : HybridStorageEngine C) :
      (entries.foldl (fun e entry => (e.processWriteBehindEntry json entry).2) e).cacheLayer =
        e.cacheLayer := by
    induction entries generalizing e with
    | nil => rfl
    | cons entry entries ih => exact (ih _).trans (processWriteBehindEntry_cacheLayer entry e)
  exact hfold _ _

theorem flush_cacheLayer (e : HybridStorageEngine C) :
    (e.flush json).2.cacheLayer = e.cacheLayer := by
  have hloop (entries : List WriteBehindEntry) (e : HybridStorageEngine C) :
      (processQueue json entries e).2.cacheLayer = e.cacheLayer := by
    induction entries generalizing e with
    | nil => rfl
    | cons entry entries ih =>
      have hentry : (e.processWriteBehindEntry json entry).2.cacheLayer = e.cacheLayer :=
        processWriteBehindEntry_cacheLayer entry e
      rw [processQueue]
      split
      · next heq =>
          rw [heq] at hentry
          exact hentry
      · next heq =>
          rw [heq] at hentry
          exact (ih _).trans hentry
  exact hloop _ _

theorem processWriteBehindQueue_eq (e : HybridStorageEngine C) (now : DateTime)
    (hround : ∀ entry ∈ e.writeBehindQueue, entry.RoundTrips json) :
    ∃ layer, e.processWriteBehindQueue json now = { e with
        persistentLayer := layer
        writeBehindQueue := e.writeBehindQueue.filter fun entry => !isDue now entry } ∧
      ∀ collection docId, layer.decoded json (makeDocumentKey collection docId) =
        replay (operationsOn (e.writeBehindQueue.filter (isDue now)) collection docId)
          (e.persistentLayer.decoded json (makeDocumentKey collection docId)) := by
  obtain ⟨layer, -, hpass, hlayer⟩ := processQueue_eq
    (fun entry (hentry : entry ∈ e.writeBehindQueue.filter (isDue now)) =>
      hround entry (List.mem_of_mem_filter hentry))
    { e with writeBehindQueue := e.writeBehindQueue.filter fun entry => !isDue now entry }
  exact ⟨layer, hpass, hlayer⟩

theorem flush_eq (e : HybridStorageEngine C)
    (hround : ∀ entry ∈ e.writeBehindQueue, entry.RoundTrips json) :
    ∃ layer, e.flush json =
        (.ok (), { e with persistentLayer := layer, writeBehindQueue := [] }) ∧
      ∀ collection docId, layer.decoded json (makeDocumentKey collection docId) =
        replay (operationsOn e.writeBehindQueue collection docId)
          (e.persistentLayer.decoded json (makeDocumentKey collection docId)) := by
  obtain ⟨layer, hflush, -, hlayer⟩ :=
    processQueue_eq hround { e with writeBehindQueue := [] }
  exact ⟨layer, hflush, hlayer⟩

end HybridStorageEngine

/-! ## Collections that are written behind -/

def WrittenBehind (schemas : Std.ExtTreeMap String Schema) (collection : String) (schema : Schema) :
    Prop :=
  schemas[collection]? = some schema ∧
    ∃ delayMs, schema.cacheConfig.strategy = .writeBehind delayMs

theorem WrittenBehind.unique {schemas : Std.ExtTreeMap String Schema} {collection : String}
    {schema schema' : Schema} (h : WrittenBehind schemas collection schema)
    (h' : schemas[collection]? = some schema') : schema' = schema :=
  Option.some.inj (h'.symm.trans h.1)

theorem WrittenBehind.cached {schemas : Std.ExtTreeMap String Schema} {collection : String}
    {schema : Schema} (h : WrittenBehind schemas collection schema) :
    schema.cacheConfig.strategy ≠ .none := by
  obtain ⟨delayMs, hstrategy⟩ := h.2
  rw [hstrategy]
  exact nofun

namespace CachedEngine

/-- The operations queued for the document, if any, would leave it as it is stored. -/
def Settled (json : DocumentJson) (e : CachedEngine) (collection : String) (docId : DocumentId) :
    Prop :=
  replay (operationsOn e.writeBehindQueue collection docId)
      (e.persistentLayer.decoded json (makeDocumentKey collection docId)) =
    e.persistentLayer.decoded json (makeDocumentKey collection docId)

/-- What is queued, replayed over the store, gives the documents. -/
structure Pending (json : DocumentJson) (e : CachedEngine) (db : Database) (clock : DateTime) :
    Prop where
  steady : Steady e.schemas clock e.writeBehindQueue
  queued : ∀ entry ∈ e.writeBehindQueue, entry.RoundTrips json
  pending : ∀ collection schema docId, WrittenBehind e.schemas collection schema →
    replay (operationsOn e.writeBehindQueue collection docId)
        (e.persistentLayer.decoded json (makeDocumentKey collection docId)) =
      (db collection docId).map .ok

theorem pending_new (json : DocumentJson) (config : CacheConfig)
    (schemas : Std.ExtTreeMap String Schema) (clock : DateTime) :
    (new config schemas).Pending json Database.empty clock where
  steady := .nil
  queued := nofun
  pending collection schema docId _ := by
    have hnone : PersistentLayer.empty.documents[makeDocumentKey collection docId]? = none :=
      Std.ExtTreeMap.getElem?_empty
    show PersistentLayer.empty.documents[makeDocumentKey collection docId]?.map json.fromSlice = _
    rw [hnone]
    rfl

namespace Pending

variable {json : DocumentJson} {e : CachedEngine} {db db' : Database} {clock : DateTime}
  {moment : Moment} {collection : String} {docId : DocumentId} {doc : Document} {schema : Schema}
  (h : e.Pending json db clock)

include h

theorem mono {now : DateTime} (hclock : clock ≤ now) : e.Pending json db now :=
  { h with steady := h.steady.mono hclock }

-- The cache plays no part.
theorem of_cache (cacheLayer : CacheLayer) :
    CachedEngine.Pending json { e with cacheLayer := cacheLayer } db clock :=
  ⟨h.steady, h.queued, h.pending⟩

-- What is stored, where nothing queued would change it.
theorem stored_of_settled (hbehind : WrittenBehind e.schemas collection schema)
    (hsettled : e.Settled json collection docId) :
    e.persistentLayer.decoded json (makeDocumentKey collection docId) =
      (db collection docId).map .ok := by
  rw [← h.pending collection schema docId hbehind]
  exact hsettled.symm

-- A call on a document of a collection that is not written behind.
theorem elsewhere (docId : DocumentId) {persistentLayer : PersistentLayer}
    (hnot : ∀ schema, ¬WrittenBehind e.schemas collection schema)
    (hdb : ∀ name id, name ≠ collection → db' name id = db name id)
    (hdecoded : ∀ key, key ≠ makeDocumentKey collection docId →
      persistentLayer.decoded json key = e.persistentLayer.decoded json key) :
    CachedEngine.Pending json { e with persistentLayer := persistentLayer } db' clock := by
  refine ⟨h.steady, h.queued, ?_⟩
  intro name schema id hbehind
  have hname : name ≠ collection := by
    intro heq
    rw [heq] at hbehind
    exact hnot schema hbehind
  rw [hdb name id hname, hdecoded _ (fun hkey => hname (makeDocumentKey_injective hkey).1)]
  exact h.pending name schema id hbehind

-- An operation on a document is queued.
theorem queue {operation : WriteBehindOperation} {delayMs : Nat}
    (hschema : e.schemas[collection]? = some schema)
    (hstrategy : schema.cacheConfig.strategy = .writeBehind delayMs)
    (hclock : clock ≤ moment.now)
    (hround : (queuedEntry moment collection docId operation delayMs).RoundTrips json)
    (heffect : operation.effect = (db' collection docId).map .ok)
    (hdb : ∀ name id, ¬(name = collection ∧ id = docId) → db' name id = db name id) :
    CachedEngine.Pending json { e with
      writeBehindQueue :=
        e.writeBehindQueue ++ [queuedEntry moment collection docId operation delayMs] }
      db' moment.now := by
  let entry := queuedEntry moment collection docId operation delayMs
  have hsteady : Steady e.schemas entry.queuedAt (e.writeBehindQueue ++ [entry]) :=
    h.steady.concat hschema hstrategy hclock
  refine ⟨hsteady, ?_, ?_⟩
  · rw [List.forall_mem_append, List.forall_mem_singleton]
    exact ⟨h.queued, hround⟩
  · intro name schema' id hbehind
    rw [operationsOn_append, replay_append, h.pending name schema' id hbehind]
    by_cases hsame : name = collection ∧ id = docId
    · have hentry : entry.collection = collection ∧ entry.docId = docId := ⟨rfl, rfl⟩
      show replay (operationsOn [entry] name id) _ = _
      rw [hsame.1, hsame.2, operationsOn_cons_self hentry, ← heffect]
      rfl
    · have hentry : ¬(entry.collection = name ∧ entry.docId = id) :=
        fun heq => hsame ⟨heq.1.symm, heq.2.symm⟩
      show replay (operationsOn [entry] name id) _ = _
      rw [hdb name id hsame, operationsOn_cons_other hentry]
      rfl

theorem processQueue (now : DateTime) :
    CachedEngine.Pending json (e.processWriteBehindQueue json now) db clock := by
  obtain ⟨layer, heq, hlayer⟩ :=
    HybridStorageEngine.processWriteBehindQueue_eq e now h.queued
  rw [heq]
  refine ⟨h.steady.filter _, fun entry hentry => h.queued entry (List.mem_of_mem_filter hentry), ?_⟩
  intro name schema id hbehind
  rw [hlayer, ← replay_append, ← h.steady.operationsOn_eq]
  exact h.pending name schema id hbehind

theorem flush : CachedEngine.Pending json (e.flush json).2 db clock := by
  obtain ⟨layer, heq, hlayer⟩ := HybridStorageEngine.flush_eq e h.queued
  rw [heq]
  refine ⟨.nil, nofun, ?_⟩
  intro name schema id hbehind
  rw [← h.pending name schema id hbehind, ← hlayer]
  rfl

theorem updateDocument (docId : DocumentId) (hclock : clock ≤ moment.now)
    (hround : ∀ schema, WrittenBehind e.schemas collection schema → json.RoundTrips doc) :
    CachedEngine.Pending json (e.updateDocument moment.ops json moment.now collection docId doc).2
      (match (e.updateDocument moment.ops json moment.now collection docId doc).1 with
        | .ok () => db.insert collection docId doc.content
        | .error _ => db) moment.now := by
  have hdb : ∀ name id, ¬(name = collection ∧ id = docId) →
      db.insert collection docId doc.content name id = db name id := by
    intro name id hsame
    rw [Database.insert, if_neg hsame]
  by_cases hbehind : ∃ schema, WrittenBehind e.schemas collection schema
  · obtain ⟨schema, hbehind⟩ := hbehind
    have hround := hround schema hbehind
    obtain ⟨hschema, delayMs, hstrategy⟩ := hbehind
    by_cases hfits : e.cacheLayer.Fits (documentToCacheData doc schema)
    · rw [updateDocument_writeBehind hschema hstrategy hfits]
      refine (h.of_cache _).queue hschema hstrategy hclock ?_ ?_ hdb
      · intro own hown
        cases hown
        exact hround
      · have hinserted : db.insert collection docId doc.content collection docId =
            some doc.content := if_pos ⟨rfl, rfl⟩
        exact (congrArg (Option.map Except.ok) hinserted).symm
    · rw [updateDocument_writeBehind_error hschema hstrategy hfits]
      exact (h.mono hclock).of_cache _
  · have hnot : ∀ schema, ¬WrittenBehind e.schemas collection schema :=
      fun schema hown => hbehind ⟨schema, hown⟩
    obtain ⟨persistentLayer, cacheLayer, heq, hdecoded, -⟩ :=
      updateDocument_frame json moment docId doc
        (fun schema delayMs hschema hstrategy => hnot schema ⟨hschema, delayMs, hstrategy⟩)
    rw [heq]
    refine ((h.mono hclock).elsewhere docId hnot ?_ hdecoded).of_cache cacheLayer
    intro name id hname
    cases (e.updateDocument moment.ops json moment.now collection docId doc).1 with
    | ok done => exact hdb name id (fun hsame => hname hsame.1)
    | error error => rfl

theorem deleteDocument (collection : String) (docId : DocumentId) (hclock : clock ≤ moment.now) :
    CachedEngine.Pending json (e.deleteDocument moment.ops moment.now collection docId).2
      (db.erase collection docId) moment.now := by
  have hdb : ∀ name id, ¬(name = collection ∧ id = docId) →
      db.erase collection docId name id = db name id := by
    intro name id hsame
    rw [Database.erase, if_neg hsame]
  by_cases hbehind : ∃ schema, WrittenBehind e.schemas collection schema
  · obtain ⟨schema, hschema, delayMs, hstrategy⟩ := hbehind
    rw [deleteDocument_writeBehind hschema hstrategy]
    refine (h.of_cache _).queue hschema hstrategy hclock ?_ ?_ hdb
    · intro doc hdoc
      cases hdoc
    · rw [Database.erase, if_pos ⟨rfl, rfl⟩]
      rfl
  · have hnot : ∀ schema, ¬WrittenBehind e.schemas collection schema :=
      fun schema hown => hbehind ⟨schema, hown⟩
    obtain ⟨cacheLayer, heq, -⟩ := deleteDocument_frame moment docId
      (fun schema delayMs hschema hstrategy => hnot schema ⟨hschema, delayMs, hstrategy⟩)
    rw [heq]
    refine ((h.mono hclock).elsewhere docId hnot ?_ ?_).of_cache cacheLayer
    · exact fun name id hname => hdb name id (fun hsame => hname hsame.1)
    · intro key hkey
      rw [PersistentLayer.decoded_deleteDocument, if_neg (Ne.symm hkey)]

end Pending

end CachedEngine

end VedDb
