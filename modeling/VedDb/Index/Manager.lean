import VedDb.Index.BTree
import VedDb.Lib.Pointwise
import VedDb.Schema

/-!
# The indexes of a collection

`IndexManager` of `index/manager.rs` and the builder of `index/builder.rs`.  The map of indexes is
the list of its entries in the order the map is iterated in; whatever changes the map may put them
in another order.  The manager's usage counters are left out: nothing reads them.
-/

namespace VedDb

abbrev NamedIndex := String × BTreeIndex

/-- The order a hash map puts its entries in. -/
structure IterationOrder where
  arrange : List NamedIndex → List NamedIndex
  perm : ∀ entries, (arrange entries).Perm entries

/-- The entries in the order they were added, the last one first. -/
def IterationOrder.given : IterationOrder := { arrange := id, perm := fun _ => .refl _ }

structure IndexManager where
  indexes : List NamedIndex
  nodup : (indexes.map Prod.fst).Nodup

/-! ## The builder -/

/-- `IndexBuilder`; the pause between batches is no event of the model. -/
structure IndexBuilder where
  batchSize : Nat

namespace IndexBuilder

def new : IndexBuilder := { batchSize := 1000 }

/-- One batch of `build_index`: the index as far as it got, and what stopped it. -/
def buildBatch (index : BTreeIndex) : List Document → Except IndexError Unit × BTreeIndex
  | [] => (.ok (), index)
  | document :: documents =>
    match index.insert document.id (createIndexEntry document index.fields) with
    | .error e => (.error e, index)
    | .ok index => buildBatch index documents

/-- The batches of `build_index` in turn. -/
def buildBatches (index : BTreeIndex) : List (List Document) → Except IndexError Unit × BTreeIndex
  | [] => (.ok (), index)
  | batch :: batches =>
    match buildBatch index batch with
    | (.error e, index) => (.error e, index)
    | (.ok (), index) => buildBatches index batches

/-- `build_index`.  A builder with batches of no documents would panic. -/
def buildIndex (builder : IndexBuilder) (index : BTreeIndex) (documents : List Document) :
    Except IndexError Unit × BTreeIndex :=
  buildBatches index (chunks builder.batchSize documents)

def rebuildIndex (builder : IndexBuilder) (index : BTreeIndex) (documents : List Document) :
    Except IndexError Unit × BTreeIndex :=
  builder.buildIndex index.clear documents

theorem buildBatch_append (index : BTreeIndex) (before rest : List Document) :
    buildBatch index (before ++ rest) =
      match buildBatch index before with
      | (.error e, index) => (.error e, index)
      | (.ok (), index) => buildBatch index rest := by
  induction before generalizing index with
  | nil => rfl
  | cons document before ih =>
    rw [List.cons_append, buildBatch, buildBatch]
    cases index.insert document.id (createIndexEntry document index.fields) with
    | error e => rfl
    | ok index => exact ih index

-- The batches of a list of documents do what one batch of all of them does.
theorem buildBatches_eq (index : BTreeIndex) (batches : List (List Document)) :
    buildBatches index batches = buildBatch index batches.flatten := by
  induction batches generalizing index with
  | nil => rfl
  | cons batch batches ih =>
    rw [List.flatten_cons, buildBatch_append, buildBatches]
    split
    · rfl
    · exact ih _

end IndexBuilder

/-! ## Loops over the indexes -/

namespace IndexManager

section

variable (docId : DocumentId) (document : Document)

/-- The loop of `insert_document`: the index that refused the document, if one did, and the
indexes. -/
def insertLoop : List NamedIndex → Option (String × IndexError) × List NamedIndex
  | [] => (none, [])
  | (name, index) :: rest =>
    match index.insert docId (createIndexEntry document index.fields) with
    | .error e => (some (name, e), (name, index) :: rest)
    | .ok index =>
      let (failed, rest) := insertLoop rest
      (failed, (name, index) :: rest)

def removeUntil (last : Option String) : List NamedIndex → Except IndexError Unit × List NamedIndex
  | [] => (.ok (), [])
  | (name, index) :: rest =>
    if some name = last then (.ok (), (name, index) :: rest)
    else
      match index.remove docId (createIndexEntry document index.fields) with
      | .error e => (.error e, (name, index) :: rest)
      | .ok (_, index) =>
        let (result, rest) := removeUntil last rest
        (result, (name, index) :: rest)

def rollbackInsertions (failedIndex : String) (indexes : List NamedIndex) :
    Except IndexError Unit × List NamedIndex :=
  removeUntil docId document (some failedIndex) indexes

/-- `insert_document`, on the entries of the map. -/
def insertDocumentInto (indexes : List NamedIndex) : Except IndexError Unit × List NamedIndex :=
  match insertLoop docId document indexes with
  | (none, indexes) => (.ok (), indexes)
  | (some (failedIndex, e), indexes) =>
    match rollbackInsertions docId document failedIndex indexes with
    | (.error e, indexes) => (.error e, indexes)
    | (.ok (), indexes) => (.error e, indexes)

/-- `remove_document`, on the entries of the map. -/
def removeDocumentFrom (indexes : List NamedIndex) : Except IndexError Unit × List NamedIndex :=
  removeUntil docId document none indexes

theorem insertLoop_names (indexes : List NamedIndex) :
    (insertLoop docId document indexes).2.map Prod.fst = indexes.map Prod.fst := by
  induction indexes with
  | nil => rfl
  | cons entry rest ih =>
    rw [insertLoop]
    split
    · rfl
    · exact congrArg (entry.1 :: ·) ih

theorem removeUntil_names (last : Option String) (indexes : List NamedIndex) :
    (removeUntil docId document last indexes).2.map Prod.fst = indexes.map Prod.fst := by
  induction indexes with
  | nil => rfl
  | cons entry rest ih =>
    rw [removeUntil]
    split
    · rfl
    · split
      · rfl
      · exact congrArg (entry.1 :: ·) ih

theorem insertDocumentInto_names (indexes : List NamedIndex) :
    (insertDocumentInto docId document indexes).2.map Prod.fst = indexes.map Prod.fst := by
  have hloop := insertLoop_names docId document indexes
  rw [insertDocumentInto]
  split
  · next h =>
      rw [h] at hloop
      exact hloop
  · next failedIndex e indexes' h =>
      have hback := removeUntil_names docId document (some failedIndex) indexes'
      rw [h] at hloop
      split
      · next hroll =>
          rw [rollbackInsertions] at hroll
          rw [hroll] at hback
          exact hback.trans hloop
      · next hroll =>
          rw [rollbackInsertions] at hroll
          rw [hroll] at hback
          exact hback.trans hloop

/-! ## What the loops do -/

def Inserted (entry entry' : NamedIndex) : Prop :=
  entry'.1 = entry.1 ∧
    entry.2.insert docId (createIndexEntry document entry.2.fields) = .ok entry'.2

def Removed (entry entry' : NamedIndex) : Prop :=
  entry'.1 = entry.1 ∧
    ∃ found, entry.2.remove docId (createIndexEntry document entry.2.fields) = .ok (found, entry'.2)

def Undone (entry entry' : NamedIndex) : Prop :=
  ∃ between, Inserted docId document entry between ∧ Removed docId document between entry'

variable {docId document} {indexes indexes' : List NamedIndex}

theorem insertLoop_ok (h : insertLoop docId document indexes = (none, indexes')) :
    List.Forall₂ (Inserted docId document) indexes indexes' := by
  induction indexes generalizing indexes' with
  | nil =>
    rw [← (Prod.mk.inj h).2]
    exact .nil
  | cons entry rest ih =>
    rw [insertLoop] at h
    cases hinsert : entry.2.insert docId (createIndexEntry document entry.2.fields) with
    | error e => simp [hinsert] at h
    | ok index =>
      simp only [hinsert, Prod.mk.injEq] at h
      rw [← h.2]
      exact .cons ⟨rfl, hinsert⟩ (ih (Prod.ext h.1 rfl))

theorem removeUntil_ok (h : removeUntil docId document none indexes = (.ok (), indexes')) :
    List.Forall₂ (Removed docId document) indexes indexes' := by
  induction indexes generalizing indexes' with
  | nil =>
    rw [← (Prod.mk.inj h).2]
    exact .nil
  | cons entry rest ih =>
    rw [removeUntil, if_neg (by simp)] at h
    cases hremove : entry.2.remove docId (createIndexEntry document entry.2.fields) with
    | error e => simp [hremove] at h
    | ok result =>
      simp only [hremove, Prod.mk.injEq] at h
      rw [← h.2]
      exact .cons ⟨rfl, result.1, hremove⟩ (ih (Prod.ext h.1 rfl))

-- Whatever stops a removal, each index is as it was or without the document.
theorem removeUntil_forall₂ (last : Option String) (indexes : List NamedIndex) :
    List.Forall₂ (fun entry entry' => entry' = entry ∨ Removed docId document entry entry') indexes
      (removeUntil docId document last indexes).2 := by
  induction indexes with
  | nil => exact .nil
  | cons entry rest ih =>
    have hsame : List.Forall₂ (fun entry entry' => entry' = entry ∨
        Removed docId document entry entry') (entry :: rest) (entry :: rest) :=
      List.forall₂_same.mpr fun _ _ => .inl rfl
    rw [removeUntil]
    split
    · exact hsame
    · split
      · exact hsame
      · next found index hremove => exact .cons (.inr ⟨rfl, found, hremove⟩) ih

-- The key an insertion could make, the removal that undoes it can make.
theorem remove_of_inserted {entry entry' : NamedIndex} (h : Inserted docId document entry entry') :
    ∃ found index, entry'.2.remove docId (createIndexEntry document entry'.2.fields) =
      .ok (found, index) := by
  have hkind := (BTreeIndex.insert_cases h.2).1
  have hinsert := h.2
  rw [BTreeIndex.insert, fromEntry_createIndexEntry] at hinsert
  rw [BTreeIndex.remove, fromEntry_createIndexEntry, hkind.fields]
  cases hkey : document.fields.indexKey entry.2.fields with
  | error e => simp only [hkey, reduceCtorEq] at hinsert
  | ok key =>
    dsimp only
    split
    · exact ⟨_, _, rfl⟩
    · split
      · exact ⟨_, _, rfl⟩
      · exact ⟨_, _, rfl⟩

-- The index that refuses a document is one of those the loop was over.
theorem insertLoop_failed_mem {failed : String × IndexError}
    (h : insertLoop docId document indexes = (some failed, indexes')) :
    failed.1 ∈ indexes.map Prod.fst := by
  induction indexes generalizing indexes' with
  | nil => simp [insertLoop] at h
  | cons entry rest ih =>
    rw [insertLoop] at h
    rw [List.map_cons]
    split at h
    · rw [← Option.some.inj (Prod.mk.inj h).1]
      exact List.mem_cons_self
    · exact List.mem_cons_of_mem _ (ih (Prod.ext (Prod.mk.inj h).1 rfl))

theorem rollbackInsertions_undoes (hnodup : (indexes.map Prod.fst).Nodup)
    {failed : String × IndexError}
    (h : insertLoop docId document indexes = (some failed, indexes')) :
    ∃ indexes'', rollbackInsertions docId document failed.1 indexes' = (.ok (), indexes'') ∧
      List.Forall₂ (fun entry entry'' => entry'' = entry ∨ Undone docId document entry entry'')
        indexes indexes'' := by
  induction indexes generalizing indexes' with
  | nil => simp [insertLoop] at h
  | cons entry rest ih =>
    rw [List.map_cons, List.nodup_cons] at hnodup
    rw [insertLoop] at h
    cases hinsert : entry.2.insert docId (createIndexEntry document entry.2.fields) with
    | error e =>
      simp only [hinsert, Prod.mk.injEq, Option.some.injEq] at h
      refine ⟨entry :: rest, ?_, List.forall₂_same.mpr fun _ _ => .inl rfl⟩
      rw [← h.1, ← h.2, rollbackInsertions, removeUntil, if_pos rfl]
    | ok index =>
      simp only [hinsert, Prod.mk.injEq] at h
      have hloop : insertLoop docId document rest =
          (some failed, (insertLoop docId document rest).2) := Prod.ext h.1 rfl
      obtain ⟨indexes'', hback, hrest⟩ := ih hnodup.2 hloop
      have hinserted : Inserted docId document entry (entry.1, index) := ⟨rfl, hinsert⟩
      obtain ⟨found, without, hremove⟩ := remove_of_inserted hinserted
      have hother : ¬some entry.1 = some failed.1 := by
        intro hsame
        rw [Option.some.inj hsame] at hnodup
        exact hnodup.1 (insertLoop_failed_mem hloop)
      refine ⟨(entry.1, without) :: indexes'', ?_,
        .cons (.inr ⟨(entry.1, index), hinserted, rfl, found, hremove⟩) hrest⟩
      rw [← h.2, rollbackInsertions, removeUntil, if_neg hother]
      simp only [hremove]
      rw [rollbackInsertions] at hback
      rw [hback]

theorem insertDocumentInto_failed (hnodup : (indexes.map Prod.fst).Nodup) {e : IndexError}
    (h : insertDocumentInto docId document indexes = (.error e, indexes')) :
    List.Forall₂ (fun entry entry' => entry' = entry ∨ Undone docId document entry entry')
      indexes indexes' := by
  rw [insertDocumentInto] at h
  split at h
  · simp at h
  · next failedIndex e' inserted hloop =>
      obtain ⟨indexes'', hback, hundone⟩ := rollbackInsertions_undoes hnodup hloop
      simp only [hback, Prod.mk.injEq] at h
      rw [← h.2]
      exact hundone

theorem insertDocumentInto_ok (h : insertDocumentInto docId document indexes = (.ok (), indexes')) :
    List.Forall₂ (Inserted docId document) indexes indexes' := by
  rw [insertDocumentInto] at h
  split at h
  · next hloop => exact insertLoop_ok (hloop.trans (Prod.ext rfl (Prod.mk.inj h).2))
  · split at h
    · simp at h
    · simp at h

end

/-! ## The operations -/

def new : IndexManager := { indexes := [], nodup := List.nodup_nil }

def withIndexes (manager : IndexManager) (indexes : List NamedIndex)
    (h : indexes.map Prod.fst = manager.indexes.map Prod.fst) : IndexManager :=
  { indexes := indexes, nodup := h ▸ manager.nodup }

def getIndex (manager : IndexManager) (indexName : String) : Option BTreeIndex :=
  manager.indexes.lookup indexName

theorem getIndex_mem {manager : IndexManager} {indexName : String} {index : BTreeIndex}
    (h : manager.getIndex indexName = some index) : (indexName, index) ∈ manager.indexes := by
  obtain ⟨before, rest, hsplit, -⟩ := List.lookup_eq_some_iff.mp h
  rw [hsplit]
  exact List.mem_append_right _ List.mem_cons_self

theorem getIndex_of_mem {manager : IndexManager} {indexName : String} {index : BTreeIndex}
    (h : (indexName, index) ∈ manager.indexes) : manager.getIndex indexName = some index := by
  have hlookup (entries : List NamedIndex) (hnodup : (entries.map Prod.fst).Nodup)
      (hmem : (indexName, index) ∈ entries) : entries.lookup indexName = some index := by
    induction entries with
    | nil => cases hmem
    | cons entry entries ih =>
      rw [List.map_cons, List.nodup_cons] at hnodup
      rw [List.lookup_cons]
      cases hmem with
      | head => simp
      | tail _ hmem =>
        have hne : (indexName == entry.1) = false := by
          rw [beq_eq_false_iff_ne]
          intro heq
          exact hnodup.1 (heq ▸ List.mem_map_of_mem hmem)
        simp only [hne]
        exact ih hnodup.2 hmem
  exact hlookup manager.indexes manager.nodup h

def others (manager : IndexManager) (indexName : String) : List NamedIndex :=
  manager.indexes.filter fun entry => entry.1 ≠ indexName

theorem notMem_others (manager : IndexManager) (indexName : String) :
    indexName ∉ (manager.others indexName).map Prod.fst := by
  rw [List.mem_map]
  intro ⟨entry, hentry, hname⟩
  have hother := (List.mem_filter.mp hentry).2
  rw [hname] at hother
  simp at hother

theorem others_nodup (manager : IndexManager) (indexName : String) :
    ((manager.others indexName).map Prod.fst).Nodup :=
  manager.nodup.sublist (List.filter_sublist.map Prod.fst)

/-- The fields `create_index` indexes for a definition. -/
def fieldsOf : IndexType → List String
  | .single field => [field]
  | .compound fields => fields
  | .text field => [field]
  | .geospatial field => [field]

/-- `create_index`, which cannot fail. -/
def createIndex (order : IterationOrder) (manager : IndexManager) (definition : IndexDefinition) :
    IndexManager :=
  let index := BTreeIndex.new definition.name (fieldsOf definition.indexType) definition.unique
    definition.sparse
  { indexes := order.arrange ((definition.name, index) :: manager.others definition.name)
    nodup := by
      rw [((order.perm _).map Prod.fst).nodup_iff, List.map_cons, List.nodup_cons]
      exact ⟨manager.notMem_others _, manager.others_nodup _⟩ }

theorem getIndex_createIndex (order : IterationOrder) (manager : IndexManager)
    (definition : IndexDefinition) :
    (manager.createIndex order definition).getIndex definition.name =
      some (BTreeIndex.new definition.name (fieldsOf definition.indexType) definition.unique
        definition.sparse) :=
  getIndex_of_mem ((order.perm _).mem_iff.mpr List.mem_cons_self)

/-- `drop_index`: whether there was one. -/
def dropIndex (order : IterationOrder) (manager : IndexManager) (indexName : String) :
    Bool × IndexManager :=
  ((manager.getIndex indexName).isSome,
    { indexes := order.arrange (manager.others indexName)
      nodup := by
        rw [((order.perm _).map Prod.fst).nodup_iff]
        exact manager.others_nodup _ })

def replaceIndex (indexName : String) (index : BTreeIndex) (indexes : List NamedIndex) :
    List NamedIndex :=
  indexes.map fun entry => if entry.1 = indexName then (entry.1, index) else entry

theorem replaceIndex_names (indexName : String) (index : BTreeIndex) (indexes : List NamedIndex) :
    (replaceIndex indexName index indexes).map Prod.fst = indexes.map Prod.fst := by
  rw [replaceIndex, List.map_map]
  apply List.map_congr_left
  intro entry _
  dsimp only [Function.comp_apply]
  split
  · rfl
  · rfl

def setIndex (manager : IndexManager) (indexName : String) (index : BTreeIndex) : IndexManager :=
  manager.withIndexes (replaceIndex indexName index manager.indexes)
    (replaceIndex_names indexName index manager.indexes)

def buildIndexBackground (builder : IndexBuilder) (manager : IndexManager) (indexName : String)
    (documents : List Document) : Except IndexError Unit × IndexManager :=
  match manager.getIndex indexName with
  | none => (.error (.operationFailed ("Index '" ++ indexName ++ "' not found")), manager)
  | some index =>
    let (result, index) := builder.buildIndex index documents
    (result, manager.setIndex indexName index)

def insertDocument (manager : IndexManager) (docId : DocumentId) (document : Document) :
    Except IndexError Unit × IndexManager :=
  ((insertDocumentInto docId document manager.indexes).1,
    manager.withIndexes (insertDocumentInto docId document manager.indexes).2
      (insertDocumentInto_names docId document manager.indexes))

def removeDocument (manager : IndexManager) (docId : DocumentId) (document : Document) :
    Except IndexError Unit × IndexManager :=
  ((removeDocumentFrom docId document manager.indexes).1,
    manager.withIndexes (removeDocumentFrom docId document manager.indexes).2
      (removeUntil_names docId document none manager.indexes))

def updateDocument (manager : IndexManager) (docId : DocumentId)
    (oldDocument newDocument : Document) : Except IndexError Unit × IndexManager :=
  match manager.removeDocument docId oldDocument with
  | (.error e, manager) => (.error e, manager)
  | (.ok (), manager) => manager.insertDocument docId newDocument

def findWithIndex (manager : IndexManager) (indexName : String) (key : IndexKey) :
    Except IndexError (List DocumentId) :=
  match manager.getIndex indexName with
  | none => .error (.operationFailed ("Index '" ++ indexName ++ "' not found"))
  | some index => .ok (index.findExact key)

def findRangeWithIndex (manager : IndexManager) (indexName : String) (start stop : Option IndexKey)
    (includeStart includeEnd : Bool) : Except IndexError (List DocumentId) :=
  match manager.getIndex indexName with
  | none => .error (.operationFailed ("Index '" ++ indexName ++ "' not found"))
  | some index => .ok (index.findRange start stop includeStart includeEnd)

/-- `optimize_indexes`, which cannot fail: every index is cleared. -/
def optimizeIndexes (manager : IndexManager) : IndexManager :=
  manager.withIndexes (manager.indexes.map fun entry => (entry.1, entry.2.clear)) (by
    rw [List.map_map]
    rfl)

end IndexManager

end VedDb
