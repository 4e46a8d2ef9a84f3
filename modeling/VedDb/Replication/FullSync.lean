import VedDb.Replication.SyncManager
import VedDb.Snapshot.RoundTrip

/-!
# Full synchronisation

What a full synchronisation makes of the store of a slave.  The documents of the snapshot are
inserted over what the slave holds; nothing is removed first.
-/

namespace VedDb

open LittleEndian (Bytes)
open Durable (Outcome)

variable {C : Type}

/-- What a client of the node reads. -/
def SyncManager.getDocument (env : ReplicationEnv C) (now : DateTime) (m : SyncManager C)
    (collection : String) (id : DocumentId) : Except StorageError (Option Document) :=
  match m.storage with
  | none => .ok none
  | some storage => (storage.getDocument env.cache env.json now collection id).1

/-- The node has storage, with no schema registered. -/
structure SyncManager.Stores (m : SyncManager C) (layer : PersistentLayer) : Prop where
  engine : ∃ storage, m.storage = some storage ∧ storage.Plain ∧ storage.persistentLayer = layer

theorem SyncManager.Stores.getDocument {m : SyncManager C} {layer : PersistentLayer}
    (h : m.Stores layer) (env : ReplicationEnv C) (now : DateTime) (collection : String)
    (id : DocumentId) :
    m.getDocument env now collection id = layer.getDocument env.json now collection id := by
  obtain ⟨storage, hstorage, hplain, rfl⟩ := h.engine
  simp only [SyncManager.getDocument, hstorage, hplain.getDocument_eq]

/-! ## What the master sends -/

section

variable {env : ReplicationEnv C} {now : DateTime} {master : SyncManager C}
  {layer : PersistentLayer} {header : SnapshotHeader} {snapshotData : Bytes}

-- The message carries the snapshot of the master's layer at its sequence.
theorem SyncManager.Stores.fullSyncMessage_eq (hmaster : master.Stores layer)
    (hr : Reproduces env.snapshot now layer master.currentSequence) :
    (master.fullSyncMessage env now).1 =
      match createSnapshot env.snapshot now layer master.currentSequence with
      | .crashed => .crashed
      | .error e => .error (.snapshotError e.message)
      | .ok content =>
        match env.zstd.compress content with
        | .error e => .error (.serializationError e)
        | .ok snapshotData =>
          .ok (.fullSync ((SnapshotHeader.new now master.currentSequence).sealed env.snapshot)
            snapshotData) := by
  obtain ⟨storage, hstorage, hplain, rfl⟩ := hmaster.engine
  simp only [SyncManager.fullSyncMessage, SyncManager.createTempSnapshot, hstorage,
    hplain.flush_eq]
  cases hcreate : createSnapshot env.snapshot now storage.persistentLayer
      master.currentSequence with
  | crashed => rfl
  | error e => rfl
  | ok content =>
    obtain ⟨w, hw, rfl⟩ := createSnapshot_eq_ok_iff.mp hcreate
    have hread := (hw.readable hr).readHeader (snapshotRecord w.metadataJson ++
      w.collections.flatMap WrittenCollection.bytes ++ snapshotFooter env.snapshot w.content)
    have hfile : w.file env.snapshot = w.headerBytes ++ (snapshotRecord w.metadataJson ++
        w.collections.flatMap WrittenCollection.bytes ++
          snapshotFooter env.snapshot w.content) := by
      simp only [WrittenSnapshot.file, WrittenSnapshot.content, List.append_assoc]
    rw [← hfile] at hread
    simp only [hread]
    cases env.zstd.compress (w.file env.snapshot) with
    | error e => rfl
    | ok snapshotData => rw [hw.header_eq]

theorem SyncManager.Stores.fullSyncMessage_sent (hmaster : master.Stores layer)
    (hr : Reproduces env.snapshot now layer master.currentSequence)
    (hsent : (master.fullSyncMessage env now).1 = .ok (.fullSync header snapshotData)) :
    header.sequence = master.currentSequence ∧ ∃ content,
      createSnapshot env.snapshot now layer master.currentSequence = .ok content ∧
        env.zstd.compress content = .ok snapshotData := by
  rw [hmaster.fullSyncMessage_eq hr] at hsent
  cases hcreate : createSnapshot env.snapshot now layer master.currentSequence with
  | crashed => simp only [hcreate, reduceCtorEq] at hsent
  | error e => simp only [hcreate, reduceCtorEq] at hsent
  | ok content =>
    cases hcompress : env.zstd.compress content with
    | error e => simp only [hcreate, hcompress, reduceCtorEq] at hsent
    | ok data =>
      simp only [hcreate, hcompress, Outcome.ok.injEq,
        ReplicationMessage.fullSync.injEq] at hsent
      refine ⟨?_, content, rfl, ?_⟩
      · rw [← hsent.1]
        rfl
      · rw [hcompress, hsent.2]

end

/-! ## What the slave makes of it -/

-- Visitors that act alike on collections and documents walk alike over a written snapshot.
theorem visitWritten_alike {S T E F : Type} {R : S → T → Prop} {v : SnapshotVisitor S E}
    {w : SnapshotVisitor T F}
    (hcollection : ∀ {s t} header, R s t → R (v.collection s header) (w.collection t header))
    (hdocument : ∀ {s t} header doc, R s t →
      Alike R (v.document s header doc) (w.document t header doc))
    (env : SnapshotEnv) (now : DateTime) (cs : List WrittenCollection) {s : S} {t : T}
    (h : R s t) : Alike R (v.visitWritten env now cs s) (w.visitWritten env now cs t) := by
  have hjsons (header : CollectionHeader) (jsons : List Bytes) {s : S} {t : T} (h : R s t) :
      Alike R (v.visitJsons env now header jsons s) (w.visitJsons env now header jsons t) := by
    induction jsons generalizing s t with
    | nil => exact .returned h
    | cons json jsons ih =>
      unfold SnapshotVisitor.visitJsons
      cases env.json.fromSlice json with
      | error e => exact .failed h
      | ok read =>
        have hdoc := hdocument header
          { id := read.1, fields := read.2, metadata := DocumentMetadata.default now } h
        dsimp only
        generalize v.document s header _ = p at hdoc ⊢
        generalize w.document t header _ = q at hdoc ⊢
        cases hdoc with
        | failed h => exact .failed h
        | returned h => exact ih h
  induction cs generalizing s t with
  | nil => exact .returned h
  | cons c cs ih =>
    have hown := hjsons c.header c.documents (hcollection c.header h)
    unfold SnapshotVisitor.visitWritten
    generalize v.visitJsons env now c.header c.documents _ = p at hown ⊢
    generalize w.visitJsons env now c.header c.documents _ = q at hown ⊢
    cases hown with
    | failed h => exact .failed h
    | returned h => exact ih h

theorem createCollection_documents (catalogue : CatalogueJson) (layer : PersistentLayer)
    (name : String) :
    (layer.keep (layer.createCollection catalogue name)).documents = layer.documents := by
  unfold PersistentLayer.createCollection PersistentLayer.saveCollectionsList
  dsimp only
  split
  · rfl
  · cases catalogue.collectionsToVec (layer.listCollections ++ [name]) with
    | error e => rfl
    | ok data => rfl

structure WroteOver (layer : PersistentLayer) (e : HybridStorageEngine C)
    (writes : List (Bytes × Bytes)) : Prop where
  plain : e.Plain
  documents_eq : e.persistentLayer.documents = (layer.insertAll writes).documents

section

variable (env : ReplicationEnv C) (now : DateTime) {layer : PersistentLayer}

theorem WroteOver.collection {e : HybridStorageEngine C} {writes : List (Bytes × Bytes)}
    (h : WroteOver layer e writes) (header : CollectionHeader) :
    WroteOver layer ((SyncManager.snapshotApplier env now).collection e header)
      ((snapshotTracer env.snapshot).collection writes header) := by
  refine ⟨h.plain.persist _, ?_⟩
  have hdocs := createCollection_documents env.catalogue e.persistentLayer header.name
  rw [← persist_persistentLayer] at hdocs
  exact hdocs.trans h.documents_eq

theorem WroteOver.document {e : HybridStorageEngine C} {writes : List (Bytes × Bytes)}
    (h : WroteOver layer e writes) (header : CollectionHeader) (doc : Document) :
    Alike (WroteOver layer) ((SyncManager.snapshotApplier env now).document e header doc)
      ((snapshotTracer env.snapshot).document writes header doc) := by
  simp only [SyncManager.snapshotApplier, snapshotTracer, HybridStorageEngine.insertDocument,
    HybridStorageEngine.writeDocument, h.plain.schema_eq_none, PersistentLayer.insertDocument,
    ReplicationEnv.snapshot]
  cases env.json.toVec doc.id doc.fields with
  | error error => exact .failed h
  | ok value =>
    refine .returned ⟨⟨h.plain.schemas_eq, h.plain.queue_eq⟩, ?_⟩
    simp only [PersistentLayer.insertAll, List.foldl_append, List.foldl_cons, List.foldl_nil]
    rw [h.documents_eq]
    rfl

-- The snapshot of a layer, applied: it succeeds exactly when every scanned document can be
-- transported, and then leaves the records over what the slave held.
theorem applySnapshot_createSnapshot {master slave : PersistentLayer} {m : SyncManager C}
    {sequence : Nat} {content : Bytes} {made : DateTime}
    (hcreate : createSnapshot env.snapshot made master sequence = .ok content)
    (hr : Reproduces env.snapshot made master sequence) (hslave : m.Stores slave) :
    (¬Transportable env.snapshot made master ∧
        ∃ e m', m.applySnapshot env now content = (.error e, m')) ∨
      Transportable env.snapshot made master ∧ ∃ after m', m'.Stores after ∧
        m.applySnapshot env now content = (.ok (), m') ∧
        after.documents =
          (slave.insertAll (snapshotRecords env.snapshot made master)).documents := by
  obtain ⟨storage, hstorage, hplain, rfl⟩ := hslave.engine
  obtain ⟨w, hw, rfl⟩ := createSnapshot_eq_ok_iff.mp hcreate
  have hstart : WroteOver storage.persistentLayer storage [] := ⟨hplain, rfl⟩
  have halike := visitWritten_alike
    (fun header h => WroteOver.collection env now h header)
    (fun header doc h => WroteOver.document env now h header doc)
    env.snapshot now w.collections hstart
  obtain ⟨hrecords, hall⟩ := written_records hw.collections
  have htrace := visitWritten_tracer env.snapshot now w.collections []
  rw [hrecords, hall, List.nil_append] at htrace
  simp only [SyncManager.applySnapshot, hstorage, (hw.readable hr).visitSnapshot]
  generalize (SyncManager.snapshotApplier env now).visitWritten env.snapshot now
    w.collections storage = applied at halike ⊢
  generalize (snapshotTracer env.snapshot).visitWritten env.snapshot now
    w.collections [] = traced at halike htrace
  cases halike with
  | @failed e f after writes h =>
    refine .inl ⟨?_, e, _, rfl⟩
    intro htransport
    have heq := (htrace _).mpr ⟨htransport, rfl⟩
    simp at heq
  | @returned done after writes h =>
    obtain ⟨htransport, hwrites⟩ := (htrace writes).mp rfl
    refine .inr ⟨htransport, after.persistentLayer,
      { m with storage := some (after.flush env.json).2 }, ?_, rfl, ?_⟩
    · exact ⟨(after.flush env.json).2, rfl, by rw [h.plain.flush_eq]; exact h.plain,
        by rw [h.plain.flush_eq]⟩
    · rw [h.documents_eq, hwrites]
      rfl

-- The same of the whole message, once it is decompressed.
theorem applyFullSync_createSnapshot {master slave : PersistentLayer} {m : SyncManager C}
    {sequence : Nat} {content snapshotData : Bytes} {made : DateTime} (header : SnapshotHeader)
    (hcreate : createSnapshot env.snapshot made master sequence = .ok content)
    (hr : Reproduces env.snapshot made master sequence) (hslave : m.Stores slave)
    (hdecompress : env.zstd.decompress snapshotData = .ok content) :
    (¬Transportable env.snapshot made master ∧
        ∃ e m', m.applyFullSync env now header snapshotData = (.error e, m')) ∨
      Transportable env.snapshot made master ∧ ∃ after m', m'.Stores after ∧
        m.applyFullSync env now header snapshotData = (.ok (), m') ∧
        m'.currentSequence = header.sequence ∧
        after.documents =
          (slave.insertAll (snapshotRecords env.snapshot made master)).documents := by
  rcases applySnapshot_createSnapshot env now hcreate hr hslave with
    ⟨htransport, e, m', happly⟩ | ⟨htransport, after, m', hafter, happly, hdocuments⟩
  · refine .inl ⟨htransport, e, m', ?_⟩
    simp only [SyncManager.applyFullSync, hdecompress, happly]
  · refine .inr ⟨htransport, after, m'.updateSequence header.sequence, ⟨hafter.engine⟩, ?_, rfl,
      hdocuments⟩
    simp only [SyncManager.applyFullSync, hdecompress, happly]

end

/-! ## Equality of the two stores -/

/-- Decompression gives back what was compressed, or fails. -/
def Zstd.Faithful (zstd : Zstd) : Prop :=
  ∀ data compressed restored, zstd.compress data = .ok compressed →
    zstd.decompress compressed = .ok restored → restored = data

def SyncManager.Equals (env : ReplicationEnv C) (slave master : SyncManager C) : Prop :=
  slave.currentSequence = master.currentSequence ∧ ∀ instant collection id,
    slave.getDocument env instant collection id = master.getDocument env instant collection id

structure SnapshotCovers (env : SnapshotEnv) (made : DateTime) (master slave : PersistentLayer) :
    Prop where
  records : ∀ collection id value,
    (snapshotRecords env made master).reverse.lookup
      (PersistentLayer.makeDocumentKey collection id) = some value →
    master.decoded env.json (PersistentLayer.makeDocumentKey collection id) =
      some (env.json.fromSlice value)
  others : ∀ collection id,
    (snapshotRecords env made master).reverse.lookup
      (PersistentLayer.makeDocumentKey collection id) = none →
    slave.decoded env.json (PersistentLayer.makeDocumentKey collection id) =
      master.decoded env.json (PersistentLayer.makeDocumentKey collection id)

theorem decoded_insertAll (json : DocumentJson) (layer : PersistentLayer)
    (writes : List (Bytes × Bytes)) (key : Bytes) :
    (layer.insertAll writes).decoded json key =
      ((writes.reverse.lookup key).map json.fromSlice).or (layer.decoded json key) := by
  rw [PersistentLayer.decoded, PersistentLayer.getElem?_insertAll]
  cases writes.reverse.lookup key with
  | none => rfl
  | some value => rfl

-- When writing the records over the slave's documents leaves the master's.
theorem snapshotCovers_iff {env : SnapshotEnv} {made : DateTime} {master slave : PersistentLayer} :
    SnapshotCovers env made master slave ↔ ∀ collection id,
      (slave.insertAll (snapshotRecords env made master)).decoded env.json
          (PersistentLayer.makeDocumentKey collection id) =
        master.decoded env.json (PersistentLayer.makeDocumentKey collection id) := by
  constructor
  · intro h collection id
    rw [decoded_insertAll]
    cases hlast : (snapshotRecords env made master).reverse.lookup
        (PersistentLayer.makeDocumentKey collection id) with
    | none => exact h.others collection id hlast
    | some value => exact (h.records collection id value hlast).symm
  · intro h
    refine ⟨?_, ?_⟩
    · intro collection id value hlast
      rw [← h, decoded_insertAll, hlast]
      rfl
    · intro collection id hlast
      rw [← h, decoded_insertAll, hlast]
      rfl

section

variable {env : ReplicationEnv C} {now later : DateTime} {master slave : SyncManager C}
  {masterLayer slaveLayer : PersistentLayer} {header : SnapshotHeader} {snapshotData : Bytes}

/-- A full synchronisation that succeeds makes the slave equal to the master exactly when the
snapshot covers the master's documents and whatever the slave held. -/
theorem applyFullSync_equals_iff (hzstd : env.zstd.Faithful) (hmaster : master.Stores masterLayer)
    (hslave : slave.Stores slaveLayer)
    (hr : Reproduces env.snapshot now masterLayer master.currentSequence)
    (hsent : (master.fullSyncMessage env now).1 = .ok (.fullSync header snapshotData))
    (hok : (slave.applyFullSync env later header snapshotData).1 = .ok ()) :
    (slave.applyFullSync env later header snapshotData).2.Equals env master ↔
      SnapshotCovers env.snapshot now masterLayer slaveLayer := by
  obtain ⟨hsequence, content, hcreate, hcompress⟩ := hmaster.fullSyncMessage_sent hr hsent
  have hdecompress : env.zstd.decompress snapshotData = .ok content := by
    cases hdecompress : env.zstd.decompress snapshotData with
    | error e => simp only [SyncManager.applyFullSync, hdecompress, reduceCtorEq] at hok
    | ok restored => rw [hzstd _ _ _ hcompress hdecompress]
  rcases applyFullSync_createSnapshot env later header hcreate hr hslave hdecompress with
    ⟨-, e, m', happly⟩ | ⟨-, after, m', hafter, happly, hcurrent, hdocuments⟩
  · simp only [happly, reduceCtorEq] at hok
  · have hdecoded (key : Bytes) : after.decoded env.json key =
        (slaveLayer.insertAll (snapshotRecords env.snapshot now masterLayer)).decoded
          env.json key := by
      rw [PersistentLayer.decoded, PersistentLayer.decoded, hdocuments]
    simp only [happly, snapshotCovers_iff, SyncManager.Equals, hafter.getDocument,
      hmaster.getDocument, PersistentLayer.getDocument_eq_iff, hdecoded]
    constructor
    · intro h
      exact h.2 0
    · intro h
      exact ⟨hcurrent.trans hsequence, fun _ => h⟩

end

-- For a master whose documents all survive the snapshot: the slave held nothing else.
theorem Portable.snapshotCovers_iff {env : SnapshotEnv} {made : DateTime}
    {master slave : PersistentLayer} {sequence : Nat} (hp : Portable env made master sequence)
    (hkeyed : master.Keyed) :
    SnapshotCovers env made master slave ↔ ∀ collection id,
      master.documents[PersistentLayer.makeDocumentKey collection id]? = none →
        slave.documents[PersistentLayer.makeDocumentKey collection id]? = none := by
  have hrecords (key : Bytes) :
      ((snapshotRecords env made master).reverse.lookup key).map env.json.fromSlice =
        master.decoded env.json key := hp.lookup_records hkeyed key
  have hnone (key : Bytes) : (snapshotRecords env made master).reverse.lookup key = none ↔
      master.documents[key]? = none := by
    rw [← Option.map_eq_none_iff, hrecords, PersistentLayer.decoded, Option.map_eq_none_iff]
  constructor
  · intro h collection id hmaster
    have hsame := h.others collection id ((hnone _).mpr hmaster)
    rw [PersistentLayer.decoded, PersistentLayer.decoded, hmaster, Option.map_none,
      Option.map_eq_none_iff] at hsame
    exact hsame
  · intro h
    refine ⟨?_, ?_⟩
    · intro collection id value hlast
      rw [← hrecords, hlast]
      rfl
    · intro collection id hlast
      have hmaster := (hnone _).mp hlast
      rw [PersistentLayer.decoded, PersistentLayer.decoded, hmaster, h collection id hmaster]

/-! ## Two small nodes -/

theorem storedZstd_faithful : storedZstd.Faithful := by
  intro data compressed restored hcompress hdecompress
  have hframe : compressed = storedFrame data := by
    unfold storedZstd at hcompress
    dsimp only at hcompress
    split at hcompress
    · cases hcompress
      rfl
    · cases hcompress
  have hrestored : storedZstd.decompress (storedFrame data) = .ok data := by
    simp only [storedZstd, drop_storedFrame, if_true]
  rw [hframe, hrestored, Except.ok.injEq] at hdecompress
  exact hdecompress.symm

def nodeWith (layer : PersistentLayer) (sequence : Nat) : SyncManager Unit :=
  (SyncManager.withStorage [] (.new () layer)).updateSequence sequence

theorem nodeWith_stores (layer : PersistentLayer) (sequence : Nat) :
    (nodeWith layer sequence).Stores layer :=
  ⟨_, rfl, HybridStorageEngine.plain_new () layer, rfl⟩

def usersHeader : SnapshotHeader := (SnapshotHeader.new 0 5).sealed epochEnv

/-- The compressed snapshot of a master with one document in the collection `users`. -/
def usersData : Bytes :=
  storedFrame (snapshotBytes (createSnapshot epochEnv 0 (oneDocument "users") 5))

theorem usersData_eq : ∃ content,
    createSnapshot epochEnv 0 (oneDocument "users") 5 = .ok content ∧
      storedZstd.compress content = .ok usersData ∧
      storedZstd.decompress usersData = .ok content := by
  have hlen : (snapshotBytes (createSnapshot epochEnv 0 (oneDocument "users") 5)).length ≤
      131072 := by
    decide +kernel
  refine ⟨_, users_createSnapshot, ?_, ?_⟩
  · simp only [storedZstd, if_pos hlen, usersData]
  · simp only [storedZstd, usersData, drop_storedFrame, if_true]

theorem users_reproduces_node : Reproduces epochReplication.snapshot 0 (oneDocument "users")
    (nodeWith (oneDocument "users") 5).currentSequence := users_reproduces

theorem users_fullSyncMessage : ((nodeWith (oneDocument "users") 5).fullSyncMessage
    epochReplication 0).1 = .ok (.fullSync usersHeader usersData) := by
  obtain ⟨content, hcreate, hcompress, -⟩ := usersData_eq
  have hown : createSnapshot epochReplication.snapshot 0 (oneDocument "users")
      (nodeWith (oneDocument "users") 5).currentSequence = .ok content := hcreate
  have hzstd : epochReplication.zstd.compress content = .ok usersData := hcompress
  rw [(nodeWith_stores (oneDocument "users") 5).fullSyncMessage_eq users_reproduces_node, hown]
  dsimp only
  rw [hzstd]
  rfl

theorem users_applyFullSync (slave : PersistentLayer) : ∃ after m', m'.Stores after ∧
    (nodeWith slave 0).applyFullSync epochReplication 0 usersHeader usersData = (.ok (), m') ∧
    after.documents =
      (slave.insertAll (snapshotRecords epochEnv 0 (oneDocument "users"))).documents := by
  obtain ⟨content, hcreate, -, hdecompress⟩ := usersData_eq
  have htransport := users_portable.transportable (oneDocument_keyed "users")
  rcases applyFullSync_createSnapshot epochReplication 0 usersHeader hcreate users_reproduces
      (nodeWith_stores slave 0) hdecompress with
    ⟨hnot, -⟩ | ⟨-, after, m', hafter, happly, -, hdocuments⟩
  · exact absurd htransport hnot
  · exact ⟨after, m', hafter, happly, hdocuments⟩

theorem fullSync_equals_users :
    ((nodeWith .empty 0).applyFullSync epochReplication 0 usersHeader usersData).2.Equals
      epochReplication (nodeWith (oneDocument "users") 5) := by
  obtain ⟨after, m', -, happly, -⟩ := users_applyFullSync .empty
  refine (applyFullSync_equals_iff storedZstd_faithful (nodeWith_stores (oneDocument "users") 5)
    (nodeWith_stores .empty 0) users_reproduces_node users_fullSyncMessage
    (by rw [happly])).mpr ?_
  refine (users_portable.snapshotCovers_iff (oneDocument_keyed "users")).mpr ?_
  intro collection id _
  exact Std.ExtTreeMap.getElem?_empty

-- The slave's own document is still there after a full synchronisation that succeeds.
theorem fullSync_keeps_orders :
    ((nodeWith (oneDocument "users") 5).fullSyncMessage epochReplication 0).1 =
        .ok (.fullSync usersHeader usersData) ∧
      ((nodeWith (oneDocument "orders") 0).applyFullSync epochReplication 0 usersHeader
        usersData).1 = .ok () ∧
      ¬((nodeWith (oneDocument "orders") 0).applyFullSync epochReplication 0 usersHeader
        usersData).2.Equals epochReplication (nodeWith (oneDocument "users") 5) := by
  obtain ⟨after, m', hafter, happly, hdocuments⟩ := users_applyFullSync (oneDocument "orders")
  refine ⟨users_fullSyncMessage, by rw [happly], ?_⟩
  intro ⟨_, hsame⟩
  have hread := hsame 0 "orders" userId
  rw [happly, hafter.getDocument, (nodeWith_stores (oneDocument "users") 5).getDocument] at hread
  have hmaster : (oneDocument "users").documents[
      PersistentLayer.makeDocumentKey "orders" userId]? = none := by
    rw [oneDocument_getElem?, if_neg (by decide)]
  rw [PersistentLayer.getDocument_eq_none_iff.mpr hmaster,
    PersistentLayer.getDocument_eq_none_iff, hdocuments, PersistentLayer.getElem?_insertAll,
    Option.or_eq_none_iff, oneDocument_getElem?, if_pos rfl] at hread
  cases hread.2

end VedDb
