import VedDb.Index.Manager
import VedDb.Lib.Runs

/-!
# The contents of the indexes

What the indexes of a manager hold after a sequence of successful calls: exactly the keys and the
identifiers of the current documents.  Each call changes all indexes and the documents together.
-/

namespace VedDb

/-! ## The current documents -/

namespace CurrentDocuments

variable (documents : CurrentDocuments)

/-- The documents with another one. -/
def insert (docId : DocumentId) (document : Document) : CurrentDocuments :=
  Function.update documents docId (some document.fields)

/-- The documents without one of them. -/
def remove (docId : DocumentId) : CurrentDocuments := Function.update documents docId none

/-- The list holds the current documents, each once. -/
structure Enumerates (list : List Document) : Prop where
  nodup : (list.map Document.id).Nodup
  current : ∀ document ∈ list, documents document.id = some document.fields
  all : ∀ docId, documents docId ≠ none → docId ∈ list.map Document.id

def insertAll (list : List Document) : CurrentDocuments :=
  list.foldl (fun documents document => documents.insert document.id document) documents

theorem insertAll_of_notMem {list : List Document} {docId : DocumentId}
    (h : docId ∉ list.map Document.id) : documents.insertAll list docId = documents docId := by
  induction list generalizing documents with
  | nil => rfl
  | cons document list ih =>
    rw [List.map_cons, List.mem_cons, not_or] at h
    rw [insertAll, List.foldl_cons, ← insertAll, ih _ h.2]
    exact Function.update_of_ne h.1 _ _

theorem insertAll_of_mem {list : List Document} (hnodup : (list.map Document.id).Nodup)
    {document : Document} (h : document ∈ list) :
    documents.insertAll list document.id = some document.fields := by
  induction list generalizing documents with
  | nil => cases h
  | cons own list ih =>
    rw [List.map_cons, List.nodup_cons] at hnodup
    rw [insertAll, List.foldl_cons, ← insertAll]
    cases h with
    | head =>
      rw [insertAll_of_notMem _ hnodup.1]
      exact Function.update_self _ _ _
    | tail _ h => exact ih _ hnodup.2 h

-- The documents of a list of all current documents are the current documents.
theorem Enumerates.insertAll_eq {documents : CurrentDocuments} {list : List Document}
    (h : documents.Enumerates list) : insertAll (fun _ => none) list = documents := by
  funext docId
  by_cases hmem : docId ∈ list.map Document.id
  · obtain ⟨document, hdocument, rfl⟩ := List.mem_map.mp hmem
    rw [insertAll_of_mem _ h.nodup hdocument, h.current document hdocument]
  · rw [insertAll_of_notMem _ hmem]
    by_contra hne
    exact hmem (h.all docId (Ne.symm hne))

end CurrentDocuments

/-! ## Builds -/

-- A batch of documents that are not listed yet is listed.
theorem IndexBuilder.buildBatch_exact {index index' : BTreeIndex} {documents : CurrentDocuments}
    {list : List Document} (h : index.Exact documents) (hnodup : (list.map Document.id).Nodup)
    (hnew : ∀ document ∈ list, documents document.id = none)
    (hbuild : buildBatch index list = (.ok (), index')) :
    index'.Exact (documents.insertAll list) := by
  induction list generalizing index documents with
  | nil =>
    rw [← (Prod.mk.inj hbuild).2]
    exact h
  | cons document list ih =>
    rw [List.map_cons, List.nodup_cons] at hnodup
    rw [buildBatch] at hbuild
    cases hinsert : index.insert document.id (createIndexEntry document index.fields) with
    | error e => simp [hinsert] at hbuild
    | ok next =>
      simp only [hinsert] at hbuild
      have hnone := hnew document List.mem_cons_self
      have hnext := h.insert (by rw [hnone]; rfl) hinsert
      refine ih hnext hnodup.2 ?_ hbuild
      intro other hother
      have hne : other.id ≠ document.id :=
        fun heq => hnodup.1 (heq ▸ List.mem_map_of_mem hother)
      show Function.update documents document.id _ other.id = none
      rw [Function.update_of_ne hne]
      exact hnew other (List.mem_cons_of_mem _ hother)

theorem IndexBuilder.buildIndex_exact {builder : IndexBuilder} (hbatch : builder.batchSize ≠ 0)
    {index index' : BTreeIndex} {documents : CurrentDocuments} {list : List Document}
    (h : index.Exact fun _ => none) (hlist : documents.Enumerates list)
    (hbuild : builder.buildIndex index list = (.ok (), index')) : index'.Exact documents := by
  rw [buildIndex, buildBatches_eq, chunks_flatten hbatch] at hbuild
  rw [← hlist.insertAll_eq]
  exact buildBatch_exact h hlist.nodup (fun _ _ => rfl) hbuild

/-! ## Calls -/

/-- The calls of a manager that change the indexes or the documents.  A new index is built from a
list of documents at once. -/
inductive IndexCall where
  | create (order : IterationOrder) (definition : IndexDefinition) (documents : List Document)
  | drop (order : IterationOrder) (indexName : String)
  | insert (docId : DocumentId) (document : Document)
  | update (docId : DocumentId) (oldDocument newDocument : Document)
  | remove (docId : DocumentId) (document : Document)

namespace IndexManager

def call (manager : IndexManager) : IndexCall → Except IndexError Unit × IndexManager
  | .create order definition documents =>
    (manager.createIndex order definition).buildIndexBackground .new definition.name documents
  | .drop order indexName => (.ok (), (manager.dropIndex order indexName).2)
  | .insert docId document => manager.insertDocument docId document
  | .update docId oldDocument newDocument => manager.updateDocument docId oldDocument newDocument
  | .remove docId document => manager.removeDocument docId document

end IndexManager

def CurrentDocuments.after (documents : CurrentDocuments) : IndexCall → CurrentDocuments
  | .create _ _ _ => documents
  | .drop _ _ => documents
  | .insert docId document => documents.insert docId document
  | .update docId _ newDocument => documents.insert docId newDocument
  | .remove docId _ => documents.remove docId

def NumberKey (names : List String) (document : Document) : Prop :=
  ∀ key, document.fields.indexKey names = .ok key → key.hasNaN = false

def IndexCall.Proper (manager : IndexManager) (documents : CurrentDocuments) : IndexCall → Prop
  | .create _ definition list =>
    documents.Enumerates list ∧
      ∀ document ∈ list, NumberKey (IndexManager.fieldsOf definition.indexType) document
  | .drop _ _ => True
  | .insert docId document =>
    documents docId = none ∧ ∀ entry ∈ manager.indexes, NumberKey entry.2.fields document
  | .update docId oldDocument newDocument =>
    documents docId = some oldDocument.fields ∧
      ∀ entry ∈ manager.indexes, NumberKey entry.2.fields newDocument
  | .remove docId document => documents docId = some document.fields

namespace IndexManager

def Exact (manager : IndexManager) (documents : CurrentDocuments) : Prop :=
  ∀ entry ∈ manager.indexes, entry.2.Exact documents

namespace Exact

variable {manager manager' : IndexManager} {documents : CurrentDocuments} {docId : DocumentId}
  {document : Document} (h : manager.Exact documents)

include h

theorem insertDocument (hnew : documents docId = none)
    (hcall : manager.insertDocument docId document = (.ok (), manager')) :
    manager'.Exact (documents.insert docId document) := by
  rw [IndexManager.insertDocument, Prod.mk.injEq] at hcall
  obtain ⟨hok, rfl⟩ := hcall
  intro entry' hentry'
  have hloop := insertDocumentInto_ok (Prod.ext hok rfl)
  obtain ⟨entry, hentry, -, hinsert⟩ := exists_of_forall₂_right hloop hentry'
  exact (h entry hentry).insert (by rw [hnew]; rfl) hinsert

theorem removeDocument (hcurrent : documents docId = some document.fields)
    (hcall : manager.removeDocument docId document = (.ok (), manager')) :
    manager'.Exact (documents.remove docId) := by
  rw [IndexManager.removeDocument, Prod.mk.injEq] at hcall
  obtain ⟨hok, rfl⟩ := hcall
  intro entry' hentry'
  have hloop := removeUntil_ok (Prod.ext hok rfl)
  obtain ⟨entry, hentry, -, found, hremove⟩ := exists_of_forall₂_right hloop hentry'
  exact (h entry hentry).remove (fun key hkey => by rw [hcurrent] at hkey; exact hkey) hremove

theorem updateDocument {newDocument : Document}
    (hcurrent : documents docId = some document.fields)
    (hcall : manager.updateDocument docId document newDocument = (.ok (), manager')) :
    manager'.Exact (documents.insert docId newDocument) := by
  rw [IndexManager.updateDocument] at hcall
  split at hcall
  · simp at hcall
  · next removed hremove =>
      have hremoved := h.removeDocument hcurrent hremove
      have hinserted := hremoved.insertDocument (Function.update_self _ _ _) hcall
      rw [CurrentDocuments.insert, CurrentDocuments.remove, Function.update_idem] at hinserted
      exact hinserted

theorem dropIndex (order : IterationOrder) (indexName : String) :
    (manager.dropIndex order indexName).2.Exact documents := by
  intro entry hentry
  have hother := (order.perm _).mem_iff.mp hentry
  exact h entry (List.mem_filter.mp hother).1

theorem createIndex {order : IterationOrder} {definition : IndexDefinition} {list : List Document}
    (hlist : documents.Enumerates list)
    (hcall : (manager.createIndex order definition).buildIndexBackground .new definition.name
      list = (.ok (), manager')) : manager'.Exact documents := by
  have hothers : ∀ entry ∈ (manager.createIndex order definition).indexes,
      entry.1 ≠ definition.name → entry.2.Exact documents := by
    intro entry hentry hname
    have hmem := (order.perm _).mem_iff.mp hentry
    cases hmem with
    | head => exact absurd rfl hname
    | tail _ hother => exact h entry (List.mem_filter.mp hother).1
  rw [buildIndexBackground, getIndex_createIndex] at hcall
  have hbuilt := Prod.mk.inj hcall
  have hexact := IndexBuilder.buildIndex_exact (by decide) (.new _ _ _ _) hlist
    (Prod.ext hbuilt.1 rfl)
  rw [← hbuilt.2]
  intro entry' hentry'
  obtain ⟨entry, hentry, rfl⟩ := List.mem_map.mp hentry'
  by_cases hname : entry.1 = definition.name
  · rw [if_pos hname]
    exact hexact
  · rw [if_neg hname]
    exact hothers entry hentry hname

theorem call {indexCall : IndexCall} (hproper : indexCall.Proper manager documents)
    (hcall : manager.call indexCall = (.ok (), manager')) :
    manager'.Exact (documents.after indexCall) := by
  cases indexCall with
  | create order definition list => exact h.createIndex hproper.1 hcall
  | drop order indexName =>
    rw [← (Prod.mk.inj hcall).2]
    exact h.dropIndex order indexName
  | insert docId document => exact h.insertDocument hproper.1 hcall
  | update docId oldDocument newDocument => exact h.updateDocument hproper.1 hcall
  | remove docId document => exact h.removeDocument hproper hcall

end Exact

end IndexManager

/-! ## Runs -/

abbrev IndexRun := IndexManager × CurrentDocuments

def IndexRun.step (run : IndexRun) (indexCall : IndexCall) : IndexRun :=
  ((run.1.call indexCall).2, run.2.after indexCall)

def IndexRun.Succeeds (run : IndexRun) (indexCall : IndexCall) : Prop :=
  indexCall.Proper run.1 run.2 ∧ (run.1.call indexCall).1 = .ok ()

/-- After every sequence of successful calls every index lists exactly the current documents. -/
theorem indexes_exact {calls : List IndexCall}
    (h : MeetsAlong IndexRun.step IndexRun.Succeeds (IndexManager.new, fun _ => none) calls) :
    let run := calls.foldl IndexRun.step (IndexManager.new, fun _ => none)
    run.1.Exact run.2 := by
  have hstep {run : IndexRun} {indexCall : IndexCall} (hexact : run.1.Exact run.2)
      (hsucceeds : run.Succeeds indexCall) :
      (run.step indexCall).1.Exact (run.step indexCall).2 :=
    hexact.call hsucceeds.1 (Prod.ext hsucceeds.2 rfl)
  have hnew : IndexManager.new.Exact fun _ => none := by
    intro entry hentry
    cases hentry
  exact MeetsAlong.invariant (I := fun run : IndexRun => run.1.Exact run.2) hstep hnew h

/-! ## A concrete run -/

/-- A document with a number in its field `n`. -/
def numberDocument (id : DocumentId) (n : Int32) : Document :=
  { id := id, fields := Std.ExtTreeMap.empty.insert "n" (.int32 n), metadata := .default 0 }

/-- A unique index on the field `n`. -/
def numberIndex : IndexDefinition :=
  { name := "numbers", indexType := .single "n", unique := true, sparse := false }

theorem numberDocument_numberKey (id : DocumentId) (n : Int32) :
    NumberKey ["n"] (numberDocument id n) := by
  intro key hkey
  have hown : (numberDocument id n).fields.indexKey ["n"] =
      .ok { values := [.int n.toInt64] } := rfl
  rw [hown, Except.ok.injEq] at hkey
  rw [← hkey]
  rfl

-- A document with a number has a key without a NaN in every index on that field.
theorem numberDocument_numberKeys {manager : IndexManager} (id : DocumentId) (n : Int32)
    (h : manager.indexes.map (fun entry => entry.2.fields) = [["n"]]) :
    ∀ entry ∈ manager.indexes, NumberKey entry.2.fields (numberDocument id n) := by
  intro entry hentry
  have hfields : entry.2.fields ∈ [["n"]] :=
    h ▸ List.mem_map_of_mem (f := fun entry : NamedIndex => entry.2.fields) hentry
  rw [List.mem_singleton.mp hfields]
  exact numberDocument_numberKey id n

def numberCalls : List IndexCall :=
  [.create .given numberIndex [], .insert ⟨1⟩ (numberDocument ⟨1⟩ 1),
    .insert ⟨2⟩ (numberDocument ⟨2⟩ 2),
    .update ⟨2⟩ (numberDocument ⟨2⟩ 2) (numberDocument ⟨2⟩ 3), .remove ⟨1⟩ (numberDocument ⟨1⟩ 1)]

/-- Two documents under a unique index, one of which is changed and the other removed. -/
theorem numberCalls_exact :
    MeetsAlong IndexRun.step IndexRun.Succeeds (IndexManager.new, fun _ => none) numberCalls ∧
      (numberCalls.foldl IndexRun.step (IndexManager.new, fun _ => none)).1.Exact
        (numberCalls.foldl IndexRun.step (IndexManager.new, fun _ => none)).2 := by
  have hrun : MeetsAlong IndexRun.step IndexRun.Succeeds (IndexManager.new, fun _ => none)
      numberCalls := by
    refine ⟨⟨⟨⟨List.nodup_nil, nofun, nofun⟩, nofun⟩, rfl⟩, ⟨⟨rfl, ?_⟩, rfl⟩, ⟨⟨rfl, ?_⟩, rfl⟩,
      ⟨⟨rfl, ?_⟩, rfl⟩, ⟨rfl, rfl⟩, trivial⟩
    · exact numberDocument_numberKeys _ _ rfl
    · exact numberDocument_numberKeys _ _ rfl
    · exact numberDocument_numberKeys _ _ rfl
  exact ⟨hrun, indexes_exact hrun⟩

end VedDb
