import VedDb.Backup.Recovery

/-!
# Exact recovery

What point-in-time recovery is meant to leave behind is the store of the backup with the operations
logged since, up to the target time.  What it does leave is the backup's documents over whatever the
storage held.  `RecoveryCovers` says when the two are the same.
-/

namespace VedDb

open LittleEndian (Bytes)
open PersistentLayer (makeDocumentKey)

/-! ## What is to be recovered -/

def recoveryWindow (history : List WalEntry) (backupSequence : Nat) (targetTime : DateTime) :
    List Operation :=
  ((history.filter fun entry => backupSequence < entry.sequence ∧ entry.timestamp ≤ targetTime
    ).mergeSort fun a b => decide (a.sequence ≤ b.sequence)).map WalEntry.operation

def recoveryTarget (json : DocumentJson) (now : DateTime) (history : List WalEntry)
    (backupSequence : Nat) (targetTime : DateTime) (backup : PersistentLayer) : PersistentLayer :=
  applyAll json now (recoveryWindow history backupSequence targetTime) backup

structure SameStore (json : DocumentJson) (a b : PersistentLayer) : Prop where
  documents : ReadsAlike json a b
  metadata : a.metadata = b.metadata

/-! ## What replay does to each document and to the metadata -/

section

variable (json : DocumentJson) (now : DateTime)

def Operation.replayedRead (key : Bytes) (read : KeyRead) (operation : Operation) : KeyRead :=
  match operation with
  | .dropCollection _ => read
  | _ => operation.readAfter json key read

def Operation.replayedMetadata (metadata : Std.ExtTreeMap String Bytes) (operation : Operation) :
    Std.ExtTreeMap String Bytes :=
  match operation with
  | .createCollection name schema =>
    match json.schemaToVec schema with
    | .error _ => metadata
    | .ok schemaJson => metadata.insert ("collection:" ++ name) schemaJson
  | .dropCollection name => metadata.erase ("collection:" ++ name)
  | .createIndex collection index =>
    match json.indexToVec index with
    | .error _ => metadata
    | .ok indexJson => metadata.insert ("index:" ++ collection ++ ":" ++ index.name) indexJson
  | .dropIndex collection indexName =>
    metadata.erase ("index:" ++ collection ++ ":" ++ indexName)
  | _ => metadata

theorem decoded_applyOrSkip (layer : PersistentLayer) (operation : Operation) (key : Bytes) :
    (applyOrSkip json now layer operation).decoded json key =
      operation.replayedRead json key (layer.decoded json key) := by
  cases operation with
  | insert collection id fields =>
    exact PersistentLayer.decoded_keep_insertDocument json layer collection id _ key
  | update collection id changes => exact decoded_update json now layer collection id changes key
  | delete collection id => exact layer.decoded_deleteDocument json collection id key
  | createCollection name schema =>
    apply PersistentLayer.decoded_congr
    simp only [applyOrSkip, applyOperation]
    cases json.schemaToVec schema with
    | error e => rfl
    | ok schemaJson => rfl
  | dropCollection name => rfl
  | createIndex collection index =>
    apply PersistentLayer.decoded_congr
    simp only [applyOrSkip, applyOperation]
    cases json.indexToVec index with
    | error e => rfl
    | ok indexJson => rfl
  | dropIndex collection indexName => rfl

theorem metadata_insertDocument (layer : PersistentLayer) (collection : String) (id : DocumentId)
    (doc : Document) :
    (layer.keep (layer.insertDocument json collection id doc)).metadata = layer.metadata := by
  unfold PersistentLayer.insertDocument
  cases json.toVec doc.id doc.fields with
  | error e => rfl
  | ok value => rfl

theorem metadata_applyOrSkip (layer : PersistentLayer) (operation : Operation) :
    (applyOrSkip json now layer operation).metadata =
      operation.replayedMetadata json layer.metadata := by
  cases operation with
  | insert collection id fields => exact metadata_insertDocument json layer collection id _
  | update collection id changes =>
    simp only [applyOrSkip, applyOperation]
    cases layer.getDocument json now collection id with
    | error e => rfl
    | ok found =>
      cases found with
      | none => rfl
      | some doc => exact metadata_insertDocument json layer collection id _
  | delete collection id => rfl
  | createCollection name schema =>
    simp only [applyOrSkip, applyOperation, Operation.replayedMetadata]
    cases json.schemaToVec schema with
    | error e => rfl
    | ok schemaJson => rfl
  | dropCollection name => rfl
  | createIndex collection index =>
    simp only [applyOrSkip, applyOperation, Operation.replayedMetadata]
    cases json.indexToVec index with
    | error e => rfl
    | ok indexJson => rfl
  | dropIndex collection indexName => rfl

theorem decoded_applyAll (operations : List Operation) (layer : PersistentLayer) (key : Bytes) :
    (applyAll json now operations layer).decoded json key =
      operations.foldl (Operation.replayedRead json key) (layer.decoded json key) := by
  induction operations generalizing layer with
  | nil => rfl
  | cons operation operations ih =>
    rw [List.foldl_cons, ← decoded_applyOrSkip json now]
    exact ih _

theorem metadata_applyAll (operations : List Operation) (layer : PersistentLayer) :
    (applyAll json now operations layer).metadata =
      operations.foldl (Operation.replayedMetadata json) layer.metadata := by
  induction operations generalizing layer with
  | nil => rfl
  | cons operation operations ih =>
    rw [List.foldl_cons, ← metadata_applyOrSkip json now]
    exact ih _

end

/-! ## What is recovered -/

/-- The operations of the window change no document of the backup, elsewhere they bring about what
the storage held before, and its metadata is what they make of the backup's. -/
structure RecoveryCovers (env : SnapshotEnv) (made : DateTime) (backup : PersistentLayer)
    (window : List Operation) (old : PersistentLayer) : Prop where
  transportable : Transportable env made backup
  records : ∀ collection id value,
    (snapshotRecords env made backup).reverse.lookup (makeDocumentKey collection id) =
      some value →
    window.foldl (Operation.replayedRead env.json (makeDocumentKey collection id))
        (backup.decoded env.json (makeDocumentKey collection id)) =
      some (env.json.fromSlice value)
  others : ∀ collection id,
    (snapshotRecords env made backup).reverse.lookup (makeDocumentKey collection id) = none →
    window.foldl (Operation.replayedRead env.json (makeDocumentKey collection id))
        (backup.decoded env.json (makeDocumentKey collection id)) =
      old.decoded env.json (makeDocumentKey collection id)
  metadata : window.foldl (Operation.replayedMetadata env.json) backup.metadata = old.metadata

section

variable {env : SnapshotEnv} {made : DateTime} {backup : PersistentLayer} {backupSequence : Nat}
  {content : Bytes}

-- The records of the backup over the old documents are the target when every key agrees.
theorem sameStore_insertAll_iff (now : DateTime) (window : List Operation)
    (old : PersistentLayer) :
    Transportable env made backup ∧
        SameStore env.json (old.insertAll (snapshotRecords env made backup))
          (applyAll env.json now window backup) ↔
      RecoveryCovers env made backup window old := by
  have hread (collection : String) (id : DocumentId) := decoded_insertAll env.json old
    (snapshotRecords env made backup) (makeDocumentKey collection id)
  have htarget (collection : String) (id : DocumentId) :=
    decoded_applyAll env.json now window backup (makeDocumentKey collection id)
  constructor
  · intro ⟨htransport, hsame⟩
    refine ⟨htransport, ?_, ?_, ?_⟩
    · intro collection id value hlast
      rw [← htarget, ← hsame.documents, hread, hlast]
      rfl
    · intro collection id hlast
      rw [← htarget, ← hsame.documents, hread, hlast]
      rfl
    · rw [← metadata_applyAll env.json now, ← hsame.metadata]
      rfl
  · intro h
    refine ⟨h.transportable, ?_, ?_⟩
    · intro collection id
      rw [htarget, hread]
      cases hlast : (snapshotRecords env made backup).reverse.lookup
          (makeDocumentKey collection id) with
      | none => exact (h.others collection id hlast).symm
      | some value => exact (h.records collection id value hlast).symm
    · rw [metadata_applyAll, h.metadata]
      rfl

-- For a backup that holds every document: the window changes none of them, and elsewhere it brings
-- about what the storage held.
theorem Portable.recoveryCovers_iff (hp : Portable env made backup backupSequence)
    (hkeyed : backup.Keyed) {window : List Operation} {old : PersistentLayer} :
    RecoveryCovers env made backup window old ↔
      (∀ collection id,
        window.foldl (Operation.replayedRead env.json (makeDocumentKey collection id))
            (backup.decoded env.json (makeDocumentKey collection id)) =
          (backup.decoded env.json (makeDocumentKey collection id)).or
            (old.decoded env.json (makeDocumentKey collection id))) ∧
        window.foldl (Operation.replayedMetadata env.json) backup.metadata = old.metadata := by
  have hrecords (key : Bytes) :
      ((snapshotRecords env made backup).reverse.lookup key).map env.json.fromSlice =
        backup.decoded env.json key := hp.lookup_records hkeyed key
  constructor
  · intro h
    refine ⟨?_, h.metadata⟩
    intro collection id
    rw [← hrecords (makeDocumentKey collection id)]
    cases hlast : (snapshotRecords env made backup).reverse.lookup
        (makeDocumentKey collection id) with
    | none =>
      have hothers := h.others collection id hlast
      rw [← hrecords, hlast] at hothers
      exact hothers
    | some value =>
      have hrecord := h.records collection id value hlast
      rw [← hrecords, hlast] at hrecord
      exact hrecord
  · intro ⟨hreads, hmetadata⟩
    refine ⟨hp.transportable hkeyed, ?_, ?_, hmetadata⟩
    · intro collection id value hlast
      rw [hreads, ← hrecords, hlast]
      rfl
    · intro collection id hlast
      rw [hreads, ← hrecords, hlast]
      rfl

/-- Recovery from a backup and the log of any run succeeds and leaves the backup's store, with the
operations logged after it up to the target time, exactly when the backup's documents can be
transported and these operations account for the difference to the old storage. -/
theorem pointInTimeRecovery_exact_iff (codec : WalCodec) (config : WalConfig)
    (commands : List WalCommand) (now targetTime : DateTime) (old : PersistentLayer)
    (hcreate : createSnapshot env made backup backupSequence = .ok content)
    (hr : Reproduces env made backup backupSequence) :
    let log := (Journal.start codec config).run codec commands
    (∃ after,
        pointInTimeRecovery codec env now (some content) targetTime
            (some log.writer.dir.named) old = (.ok (), after) ∧
          SameStore env.json after
            (recoveryTarget env.json now log.history backupSequence targetTime backup)) ↔
      RecoveryCovers env made backup
        (recoveryWindow log.history backupSequence targetTime) old := by
  intro log
  rw [← sameStore_insertAll_iff now]
  simp only [pointInTimeRecovery_named, loadSnapshot_createSnapshot_iff now hcreate hr,
    loadSnapshot_snd, exists_eq_right]
  constructor
  · intro ⟨after, ⟨htransport, hafter⟩, hsame⟩
    rw [hafter, snapshotWrites_createSnapshot now hcreate hr htransport] at hsame
    exact ⟨htransport, hsame⟩
  · intro ⟨htransport, hsame⟩
    refine ⟨_, ⟨htransport, rfl⟩, ?_⟩
    rw [snapshotWrites_createSnapshot now hcreate hr htransport]
    exact hsame

end

/-! ## Two small recoveries

The JSON of an entry, at the epoch, that deletes a document of a collection. -/

def deleteMiddle : Bytes :=
  utf8 (",\"timestamp\":\"1970-01-01T00:00:00Z\"," ++
    "\"operation\":\x7b\"Delete\":\x7b\"collection\":\"")

def deleteId : Bytes := utf8 "\",\"id\":\""

def deleteJson (sequence : Nat) (collection : String) (id : DocumentId) (checksum : UInt32) :
    Bytes :=
  dropHead ++ (decimal sequence ++ (deleteMiddle ++ (utf8 collection ++ (deleteId ++
    (asciiBytes id.toChars ++ (dropTail ++ (decimal checksum.toNat ++ utf8 "\x7d")))))))

def parseDeleteJson (bs : Bytes) : Option (Nat × String × DocumentId × UInt32) := do
  let rest ← stripPrefix? dropHead bs
  let (sequence, rest) ← decimal? rest
  let rest ← stripPrefix? deleteMiddle rest
  let collection := rest.takeWhile (· ≠ 34)
  let rest ← stripPrefix? deleteId (rest.drop collection.length)
  let id := rest.take 36
  let rest ← stripPrefix? dropTail (rest.drop 36)
  let (checksum, rest) ← decimal? rest
  if rest = utf8 "\x7d" ∧ checksum < 2 ^ 32 then
    some (sequence, String.ofList (asciiChars collection), DocumentId.ofChars (asciiChars id),
      UInt32.ofNat checksum)
  else none

def deleteCodec : WalCodec where
  toVec entry :=
    match entry.operation with
    | .delete collection id =>
      if entry.timestamp = 0 then .ok (deleteJson entry.sequence collection id entry.checksum)
      else .error "not at the epoch"
    | _ => .error "not a deleted document"
  fromSlice bytes :=
    match parseDeleteJson bytes with
    | some (sequence, collection, id, checksum) =>
      .ok { sequence := sequence, timestamp := 0, operation := .delete collection id,
            checksum := checksum }
    | none => .error "expected a deleted document"
  crc32 := crc32

/-- A log of seven deletions of one document of a collection. -/
def deletingLog (collection : String) : Journal :=
  (Journal.start deleteCodec ⟨.always, 1000⟩).run deleteCodec
    (List.replicate 7 (.append 0 (.delete collection userId)))

def WalEntry.deletesUser (collection : String) (entry : WalEntry) : Bool :=
  match entry.operation with
  | .delete own id => own = collection ∧ id = userId
  | _ => false

-- The window behind the sixth entry holds the last deletion.
theorem recoveryWindow_eq_delete {history : List WalEntry} {collection : String}
    {backupSequence : Nat} {targetTime : DateTime}
    (hall : history.all (WalEntry.deletesUser collection) = true)
    (hone : (history.filter fun entry =>
      backupSequence < entry.sequence ∧ entry.timestamp ≤ targetTime).length = 1) :
    recoveryWindow history backupSequence targetTime = [.delete collection userId] := by
  obtain ⟨entry, hfilter⟩ := List.length_eq_one_iff.mp hone
  have hmem : entry ∈ history := by
    apply List.mem_of_mem_filter
    rw [hfilter]
    exact List.mem_singleton_self entry
  have hdeletes := List.all_eq_true.mp hall entry hmem
  rw [recoveryWindow, hfilter, List.mergeSort_singleton, List.map_singleton]
  unfold WalEntry.deletesUser at hdeletes
  split at hdeletes
  · next own id hoperation =>
      rw [decide_eq_true_eq] at hdeletes
      rw [hoperation, hdeletes.1, hdeletes.2]
  · cases hdeletes

theorem ordersLog_window : recoveryWindow (deletingLog "orders").history 5 0 =
    [.delete "orders" userId] :=
  recoveryWindow_eq_delete (by decide +kernel) (by decide +kernel)

theorem usersLog_window : recoveryWindow (deletingLog "users").history 5 0 =
    [.delete "users" userId] :=
  recoveryWindow_eq_delete (by decide +kernel) (by decide +kernel)

/-- The backup of a store with one document of the collection `users` at sequence 5. -/
def usersBackup : Bytes := snapshotBytes (createSnapshot epochEnv 0 (oneDocument "users") 5)

theorem oneDocument_decoded (collection : String) (key : Bytes) :
    (oneDocument collection).decoded nullDocuments key =
      if key = makeDocumentKey collection userId then some (.ok (userId, ∅)) else none := by
  rw [PersistentLayer.decoded, oneDocument_getElem?]
  split
  · rw [Option.map_some, nullDocuments_fromSlice_nullJson]
    rfl
  · rfl

-- Recovery goes through when the document deleted since the backup was not in it.
theorem orders_recovery_exact : ∃ after,
    pointInTimeRecovery deleteCodec epochEnv 0 (some usersBackup) 0
        (some (deletingLog "orders").writer.dir.named) .empty = (.ok (), after) ∧
      SameStore nullDocuments after
        (recoveryTarget nullDocuments 0 (deletingLog "orders").history 5 0
          (oneDocument "users")) := by
  have hcovers : RecoveryCovers epochEnv 0 (oneDocument "users")
      (recoveryWindow (deletingLog "orders").history 5 0) .empty := by
    rw [ordersLog_window, users_portable.recoveryCovers_iff (oneDocument_keyed "users")]
    refine ⟨?_, rfl⟩
    intro collection id
    have hempty : PersistentLayer.empty.decoded epochEnv.json (makeDocumentKey collection id) =
        none := by
      simp [PersistentLayer.decoded, PersistentLayer.empty]
    rw [hempty, Option.or_none]
    simp only [List.foldl_cons, List.foldl_nil, Operation.replayedRead, Operation.readAfter]
    split
    · next hkey =>
        have hother : makeDocumentKey collection id ≠ makeDocumentKey "users" userId := by
          rw [← hkey]
          decide
        exact ((oneDocument_decoded "users" _).trans (if_neg hother)).symm
    · rfl
  exact (pointInTimeRecovery_exact_iff deleteCodec ⟨.always, 1000⟩ _ 0 0 .empty
    users_createSnapshot users_reproduces).mpr hcovers

-- The document of the backup was deleted before the target time, and comes back.
theorem users_recovery_resurrects : ∃ after,
    pointInTimeRecovery deleteCodec epochEnv 0 (some usersBackup) 0
        (some (deletingLog "users").writer.dir.named) .empty = (.ok (), after) ∧
      ¬SameStore nullDocuments after
        (recoveryTarget nullDocuments 0 (deletingLog "users").history 5 0
          (oneDocument "users")) := by
  have htransport := users_portable.transportable (oneDocument_keyed "users")
  refine ⟨_, (pointInTimeRecovery_named _ _ _ _ _ _ _ _).mpr ⟨⟨5, ?_⟩, rfl⟩, ?_⟩
  · exact (loadSnapshot_createSnapshot_iff 0 users_createSnapshot users_reproduces _ _).mpr
      ⟨htransport, rfl⟩
  · intro hsame
    have hread := hsame.documents "users" userId
    have hbackup := oneDocument_decoded "users" (makeDocumentKey "users" userId)
    have hrestored : ((snapshotRecords epochEnv 0 (oneDocument "users")).reverse.lookup
        (makeDocumentKey "users" userId)).map nullDocuments.fromSlice = some (.ok (userId, ∅)) :=
      (users_portable.lookup_records (oneDocument_keyed "users") _).trans
        (hbackup.trans (if_pos rfl))
    have hwrites : snapshotWrites epochEnv 0 usersBackup =
        snapshotRecords epochEnv 0 (oneDocument "users") :=
      snapshotWrites_createSnapshot 0 users_createSnapshot users_reproduces htransport
    rw [loadSnapshot_snd, hwrites, decoded_insertAll, hrestored, recoveryTarget, decoded_applyAll,
      usersLog_window] at hread
    simp [Operation.replayedRead, Operation.readAfter] at hread

end VedDb
