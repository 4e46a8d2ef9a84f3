import VedDb.Index.Undo

/-!
# Calls that fail half-way

`insert_document` takes back what it has inserted before the index that refuses the document.
`update_document` removes the old document from all indexes first, and nothing puts it back when the
removal or the insertion after it fails.
-/

namespace VedDb

/-! ## The loops over the indexes -/

/-- The first element without a property splits a list in one way. -/
theorem split_unique {α : Type} {P : α → Prop} {before before' rest rest' : List α} {a a' : α}
    (heq : before ++ a :: rest = before' ++ a' :: rest') (hbefore : ∀ b ∈ before, P b)
    (hbefore' : ∀ b ∈ before', P b) (ha : ¬P a) (ha' : ¬P a') : before = before' ∧ a = a' := by
  induction before generalizing before' with
  | nil =>
    cases before' with
    | nil => exact ⟨rfl, (List.cons.inj heq).1⟩
    | cons b before' =>
      have hb := hbefore' b List.mem_cons_self
      rw [← (List.cons.inj heq).1] at hb
      exact absurd hb ha
  | cons b before ih =>
    have hb := hbefore b List.mem_cons_self
    cases before' with
    | nil =>
      rw [(List.cons.inj heq).1] at hb
      exact absurd hb ha'
    | cons b' before' =>
      obtain ⟨hhead, htail⟩ := List.cons.inj heq
      obtain ⟨hrest, hsame⟩ := ih htail (fun c hc => hbefore c (List.mem_cons_of_mem _ hc))
        fun c hc => hbefore' c (List.mem_cons_of_mem _ hc)
      rw [hhead, hrest]
      exact ⟨rfl, hsame⟩

/-- All elements have a property, or there is a first one that has not. -/
theorem forall_or_split {α : Type} (P : α → Prop) (l : List α) :
    (∀ a ∈ l, P a) ∨ ∃ before a rest, l = before ++ a :: rest ∧ (∀ b ∈ before, P b) ∧ ¬P a := by
  induction l with
  | nil => exact .inl fun a ha => by cases ha
  | cons a l ih =>
    by_cases ha : P a
    · rcases ih with hall | ⟨before, b, rest, rfl, hbefore, hb⟩
      · exact .inl (List.forall_mem_cons.mpr ⟨ha, hall⟩)
      · exact .inr ⟨a :: before, b, rest, rfl, List.forall_mem_cons.mpr ⟨ha, hbefore⟩, hb⟩
    · exact .inr ⟨[], a, l, rfl, List.forall_mem_nil _, ha⟩

namespace IndexManager

variable {docId : DocumentId} {document : Document} {before rest : List NamedIndex}
  {entry : NamedIndex}

def withoutEntry (docId : DocumentId) (document : Document) (entry : NamedIndex) : NamedIndex :=
  (entry.1, entry.2.without docId document)

def includingEntry (docId : DocumentId) (document : Document) (entry : NamedIndex) : NamedIndex :=
  (entry.1, entry.2.including docId document)

theorem removeDocumentFrom_of_keyed (docId : DocumentId) {indexes : List NamedIndex}
    (h : ∀ entry ∈ indexes, entry.2.Keyed document) :
    removeDocumentFrom docId document indexes =
      (.ok (), indexes.map (withoutEntry docId document)) := by
  induction indexes with
  | nil => rfl
  | cons entry indexes ih =>
    obtain ⟨hentry, hindexes⟩ := List.forall_mem_cons.mp h
    obtain ⟨found, hremove⟩ := BTreeIndex.remove_without docId hentry
    rw [removeDocumentFrom] at ih ⊢
    rw [removeUntil, if_neg (by simp), hremove]
    dsimp only
    rw [ih hindexes]
    rfl

theorem removeDocumentFrom_stops (docId : DocumentId) (rest : List NamedIndex)
    (hbefore : ∀ entry ∈ before, entry.2.Keyed document) (hentry : ¬entry.2.Keyed document) :
    ∃ e, removeDocumentFrom docId document (before ++ entry :: rest) =
      (.error e, before.map (withoutEntry docId document) ++ entry :: rest) := by
  induction before with
  | nil =>
    rw [List.nil_append, removeDocumentFrom, removeUntil, if_neg (by simp)]
    cases hremove : entry.2.remove docId (createIndexEntry document entry.2.fields) with
    | error e => exact ⟨e, rfl⟩
    | ok result => exact absurd (BTreeIndex.keyed_of_remove hremove) hentry
  | cons first before ih =>
    obtain ⟨hfirst, hbefore⟩ := List.forall_mem_cons.mp hbefore
    obtain ⟨found, hremove⟩ := BTreeIndex.remove_without docId hfirst
    obtain ⟨e, hrest⟩ := ih hbefore
    refine ⟨e, ?_⟩
    rw [removeDocumentFrom] at hrest ⊢
    rw [List.cons_append, removeUntil, if_neg (by simp), hremove]
    dsimp only
    rw [hrest]
    rfl

theorem insertLoop_of_accepts {indexes : List NamedIndex}
    (h : ∀ entry ∈ indexes, entry.2.Accepts docId document) :
    insertLoop docId document indexes =
      (none, indexes.map (includingEntry docId document)) := by
  induction indexes with
  | nil => rfl
  | cons entry indexes ih =>
    obtain ⟨hentry, hindexes⟩ := List.forall_mem_cons.mp h
    rw [insertLoop, BTreeIndex.insert_including hentry]
    dsimp only
    rw [ih hindexes]
    rfl

theorem insertLoop_stops (rest : List NamedIndex)
    (hbefore : ∀ entry ∈ before, entry.2.Accepts docId document)
    (hentry : ¬entry.2.Accepts docId document) :
    ∃ e, insertLoop docId document (before ++ entry :: rest) =
      (some (entry.1, e), before.map (includingEntry docId document) ++ entry :: rest) := by
  induction before with
  | nil =>
    rw [List.nil_append, insertLoop]
    cases hinsert : entry.2.insert docId (createIndexEntry document entry.2.fields) with
    | error e => exact ⟨e, rfl⟩
    | ok index => exact absurd (BTreeIndex.accepts_of_insert hinsert) hentry
  | cons first before ih =>
    obtain ⟨hfirst, hbefore⟩ := List.forall_mem_cons.mp hbefore
    obtain ⟨e, hrest⟩ := ih hbefore
    refine ⟨e, ?_⟩
    rw [List.cons_append, insertLoop, BTreeIndex.insert_including hfirst]
    dsimp only
    rw [hrest]
    rfl

theorem rollbackInsertions_stops (hbefore : ∀ entry ∈ before, entry.2.Keyed document)
    (hname : entry.1 ∉ before.map Prod.fst) :
    rollbackInsertions docId document entry.1 (before ++ entry :: rest) =
      (.ok (), before.map (withoutEntry docId document) ++ entry :: rest) := by
  induction before with
  | nil => rw [List.nil_append, rollbackInsertions, removeUntil, if_pos rfl, List.map_nil,
      List.nil_append]
  | cons first before ih =>
    obtain ⟨hfirst, hbefore⟩ := List.forall_mem_cons.mp hbefore
    rw [List.map_cons, List.mem_cons, not_or] at hname
    obtain ⟨found, hremove⟩ := BTreeIndex.remove_without docId hfirst
    have hrest := ih hbefore hname.2
    rw [rollbackInsertions] at hrest ⊢
    rw [List.cons_append, removeUntil, if_neg (by simpa using Ne.symm hname.1), hremove]
    dsimp only
    rw [hrest]
    rfl

theorem insertDocumentInto_stops (hnodup : ((before ++ entry :: rest).map Prod.fst).Nodup)
    (hbefore : ∀ entry ∈ before, entry.2.Accepts docId document)
    (hentry : ¬entry.2.Accepts docId document) :
    ∃ e, insertDocumentInto docId document (before ++ entry :: rest) =
      (.error e, before.map (fun entry => withoutEntry docId document
        (includingEntry docId document entry)) ++ entry :: rest) := by
  obtain ⟨e, hloop⟩ := insertLoop_stops rest hbefore hentry
  have hkeyed : ∀ entry ∈ before.map (includingEntry docId document),
      entry.2.Keyed document := by
    intro included hincluded
    obtain ⟨entry, hmem, rfl⟩ := List.mem_map.mp hincluded
    obtain ⟨key, hkey⟩ := (hbefore entry hmem).1
    exact ⟨key, (BTreeIndex.sameKind_including entry.2 docId document).fields ▸ hkey⟩
  have hname : entry.1 ∉ (before.map (includingEntry docId document)).map Prod.fst := by
    rw [List.map_map]
    rw [List.map_append, List.nodup_append] at hnodup
    intro hmem
    exact hnodup.2.2 _ hmem _ List.mem_cons_self rfl
  refine ⟨e, ?_⟩
  rw [insertDocumentInto, hloop]
  dsimp only
  rw [rollbackInsertions_stops hkeyed hname, List.map_map]
  rfl

/-! ## Reachable managers -/

/-- What a manager comes to by its calls, by building an index from documents once more and by
clearing the indexes. -/
inductive Reachable : IndexManager → Prop where
  | new : Reachable .new
  | call {manager : IndexManager} (h : Reachable manager) (indexCall : IndexCall) :
      Reachable (manager.call indexCall).2
  | build {manager : IndexManager} (h : Reachable manager) (builder : IndexBuilder)
      (indexName : String) (documents : List Document) :
      Reachable (manager.buildIndexBackground builder indexName documents).2
  | optimize {manager : IndexManager} (h : Reachable manager) : Reachable manager.optimizeIndexes

def Tidy (manager : IndexManager) : Prop := ∀ entry ∈ manager.indexes, entry.2.Tidy

variable {manager : IndexManager}

theorem tidy_removeUntil {indexes : List NamedIndex} (last : Option String)
    (h : ∀ entry ∈ indexes, entry.2.Tidy) :
    ∀ entry ∈ (removeUntil docId document last indexes).2, entry.2.Tidy := by
  intro entry' hentry'
  obtain ⟨entry, hentry, rfl | ⟨-, found, hremove⟩⟩ :=
    exists_of_forall₂_right (removeUntil_forall₂ last indexes) hentry'
  · exact h _ hentry
  · exact (h entry hentry).remove hremove

theorem Tidy.insertDocument (h : manager.Tidy) (docId : DocumentId) (document : Document) :
    (manager.insertDocument docId document).2.Tidy := by
  intro entry' hentry'
  cases hresult : (insertDocumentInto docId document manager.indexes).1 with
  | ok _ =>
    have hforall := insertDocumentInto_ok (Prod.ext hresult rfl :
      insertDocumentInto docId document manager.indexes = (.ok (), _))
    obtain ⟨entry, hentry, -, hinsert⟩ := exists_of_forall₂_right hforall hentry'
    exact (h entry hentry).insert hinsert
  | error e =>
    have hforall := insertDocumentInto_failed manager.nodup (Prod.ext hresult rfl :
      insertDocumentInto docId document manager.indexes = (.error e, _))
    obtain ⟨entry, hentry, rfl | ⟨between, ⟨-, hinsert⟩, -, found, hremove⟩⟩ :=
      exists_of_forall₂_right hforall hentry'
    · exact h _ hentry
    · exact ((h entry hentry).insert hinsert).remove hremove

theorem Tidy.removeDocument (h : manager.Tidy) (docId : DocumentId) (document : Document) :
    (manager.removeDocument docId document).2.Tidy := tidy_removeUntil none h

theorem Tidy.updateDocument (h : manager.Tidy) (docId : DocumentId)
    (oldDocument newDocument : Document) :
    (manager.updateDocument docId oldDocument newDocument).2.Tidy := by
  have hremoved := h.removeDocument docId oldDocument
  rw [IndexManager.updateDocument]
  split
  next hresult =>
    rw [hresult] at hremoved
    exact hremoved
  next hresult =>
    rw [hresult] at hremoved
    exact hremoved.insertDocument docId newDocument

theorem Tidy.createIndex (h : manager.Tidy) (order : IterationOrder)
    (definition : IndexDefinition) : (manager.createIndex order definition).Tidy := by
  intro entry hentry
  rcases List.mem_cons.mp ((order.perm _).mem_iff.mp hentry) with rfl | hentry
  · exact BTreeIndex.tidy_empty rfl
  · exact h entry (List.mem_of_mem_filter hentry)

theorem Tidy.dropIndex (h : manager.Tidy) (order : IterationOrder) (indexName : String) :
    (manager.dropIndex order indexName).2.Tidy := by
  intro entry hentry
  exact h entry (List.mem_of_mem_filter ((order.perm _).mem_iff.mp hentry))

theorem tidy_buildBatch {index : BTreeIndex} (h : index.Tidy) (documents : List Document) :
    (IndexBuilder.buildBatch index documents).2.Tidy := by
  induction documents generalizing index with
  | nil => exact h
  | cons document documents ih =>
    rw [IndexBuilder.buildBatch]
    cases hinsert : index.insert document.id (createIndexEntry document index.fields) with
    | error e => exact h
    | ok index' => exact ih (h.insert hinsert)

theorem Tidy.buildIndexBackground (h : manager.Tidy) (builder : IndexBuilder)
    (indexName : String) (documents : List Document) :
    (manager.buildIndexBackground builder indexName documents).2.Tidy := by
  rw [IndexManager.buildIndexBackground]
  cases hindex : manager.getIndex indexName with
  | none => exact h
  | some index =>
    intro entry hentry
    obtain ⟨own, hown, heq⟩ := List.mem_map.mp hentry
    split at heq
    next =>
      rw [← heq]
      show (builder.buildIndex index documents).2.Tidy
      rw [IndexBuilder.buildIndex, IndexBuilder.buildBatches_eq]
      exact tidy_buildBatch (h _ (getIndex_mem hindex)) _
    next =>
      rw [← heq]
      exact h own hown

theorem Reachable.tidy (h : manager.Reachable) : manager.Tidy := by
  induction h with
  | new => exact fun entry hentry => by cases hentry
  | @call manager _ indexCall ih =>
    cases indexCall with
    | create order definition documents =>
      exact (ih.createIndex order definition).buildIndexBackground _ _ documents
    | drop order indexName => exact ih.dropIndex order indexName
    | insert docId document => exact ih.insertDocument docId document
    | update docId oldDocument newDocument =>
      exact ih.updateDocument docId oldDocument newDocument
    | remove docId document => exact ih.removeDocument docId document
  | build _ builder indexName documents ih =>
    exact ih.buildIndexBackground builder indexName documents
  | optimize _ ih =>
    intro entry hentry
    obtain ⟨own, hown, rfl⟩ := List.mem_map.mp hentry
    exact BTreeIndex.tidy_empty rfl

/-- Every index is what it was. -/
def SameContents (manager manager' : IndexManager) : Prop :=
  List.Forall₂ (fun entry entry' => entry'.1 = entry.1 ∧ entry.2.SameContents entry'.2)
    manager.indexes manager'.indexes

/-! ## Insertions -/

theorem insertDocumentInto_of_accepts {indexes : List NamedIndex}
    (h : ∀ entry ∈ indexes, entry.2.Accepts docId document) :
    (insertDocumentInto docId document indexes).1 = .ok () := by
  rw [insertDocumentInto, insertLoop_of_accepts h]

-- An index that took the document lists it under its key.
theorem listed_of_insert {index index' : BTreeIndex}
    (hinsert : index.insert docId (createIndexEntry document index.fields) = .ok index') :
    ∃ key, document.fields.indexKey index'.fields = .ok key ∧
      ((index'.sparse && key.hasNull) = false → docId ∈ index'.findExact key) := by
  obtain ⟨key, hkey, hown⟩ := BTreeIndex.keyOf_of_keyed (BTreeIndex.accepts_of_insert hinsert).1
  obtain ⟨hkind, hcases⟩ := BTreeIndex.insert_cases hinsert
  rw [hkind.fields, hkind.sparse]
  refine ⟨key, hkey, fun hnull => ?_⟩
  rw [hnull, if_neg Bool.false_ne_true] at hown
  rw [BTreeIndex.findExact]
  obtain ⟨hnone, -⟩ | ⟨key', hkey', hunique, hmany⟩ := hcases
  · rw [hnone] at hown
    cases hown
  · rw [hown] at hkey'
    cases hkey'
    cases hindex : index.unique with
    | true =>
      rw [(hunique hindex).1, Postings.idsAt_insert, if_pos Std.ReflCmp.compare_self]
      exact List.mem_singleton_self _
    | false =>
      rw [hmany hindex, Postings.idsAt_push, if_pos Std.ReflCmp.compare_self]
      exact List.mem_append_right _ (List.mem_singleton_self _)

/-- An insertion of a document that no index lists either lists it everywhere under its key, or
leaves every index as it was. -/
theorem insertDocument_atomic (hreachable : manager.Reachable)
    (hnew : ∀ entry ∈ manager.indexes, ¬entry.2.ListsDocument docId) :
    (∀ e, (manager.insertDocument docId document).1 = .error e →
      manager.SameContents (manager.insertDocument docId document).2) ∧
    ((manager.insertDocument docId document).1 = .ok () →
      ∀ entry ∈ (manager.insertDocument docId document).2.indexes,
        ∃ key, document.fields.indexKey entry.2.fields = .ok key ∧
          ((entry.2.sparse && key.hasNull) = false → docId ∈ entry.2.findExact key)) := by
  constructor
  · intro e herror
    rcases forall_or_split (fun entry : NamedIndex => entry.2.Accepts docId document)
      manager.indexes with hall | ⟨before, entry, rest, hsplit, hbefore, hentry⟩
    · have hok := insertDocumentInto_of_accepts hall
      rw [insertDocument, hok] at herror
      cases herror
    · obtain ⟨_, hstops⟩ :=
        insertDocumentInto_stops (hsplit ▸ manager.nodup) hbefore hentry
      have hafter : (manager.insertDocument docId document).2.indexes =
          before.map (fun entry => withoutEntry docId document
            (includingEntry docId document entry)) ++ entry :: rest := by
        show (insertDocumentInto docId document manager.indexes).2 = _
        rw [hsplit, hstops]
      rw [SameContents, hafter, hsplit]
      refine List.rel_append ?_ (List.forall₂_same.mpr fun _ _ => ⟨rfl, .refl _⟩)
      rw [List.forall₂_map_right_iff, List.forall₂_same]
      intro own hown
      have hmem : own ∈ manager.indexes := hsplit ▸ List.mem_append_left _ hown
      refine ⟨rfl, (BTreeIndex.sameContents_undone_iff (hreachable.tidy own hmem)
        (hbefore own hown)).mpr (.of_notMem fun hlists => hnew own hmem ?_)⟩
      obtain ⟨key, -, hlisted⟩ := hlists
      exact ⟨key, hlisted⟩
  · intro hok entry' hentry'
    have hforall := insertDocumentInto_ok (Prod.ext hok rfl :
      insertDocumentInto docId document manager.indexes = (.ok (), _))
    obtain ⟨entry, hentry, -, hinsert⟩ := exists_of_forall₂_right hforall hentry'
    exact listed_of_insert hinsert

def numberManager : IndexManager :=
  ((new.call (.create .given numberIndex [])).2.call (.insert ⟨1⟩ (numberDocument ⟨1⟩ 1))).2

theorem numberManager_reachable : numberManager.Reachable := .call (.call .new _) _

theorem numberManager_indexes : ∃ index : BTreeIndex,
    numberManager.indexes = [("numbers", index)] ∧
      index.tree = (∅ : Std.ExtTreeMap _ _ _).insert ⟨[.int 1]⟩ [⟨1⟩] := ⟨_, rfl, rfl⟩

theorem numberManager_not_lists :
    ∀ entry ∈ numberManager.indexes, ¬entry.2.ListsDocument ⟨2⟩ := by
  obtain ⟨index, hindexes, htree⟩ := numberManager_indexes
  rw [hindexes]
  rintro entry hentry ⟨key, hkey⟩
  rw [List.mem_singleton.mp hentry, htree, Postings.idsAt_insert] at hkey
  split at hkey
  next => exact absurd (List.mem_singleton.mp hkey) (by decide)
  next =>
    rw [Postings.idsAt_empty] at hkey
    cases hkey

/-- A second document with the number of the first. -/
theorem insertDocument_atomic_number :
    ∃ e, (numberManager.insertDocument ⟨2⟩ (numberDocument ⟨2⟩ 1)).1 = .error e ∧
      numberManager.SameContents (numberManager.insertDocument ⟨2⟩ (numberDocument ⟨2⟩ 1)).2 := by
  exact ⟨_, rfl, (insertDocument_atomic numberManager_reachable numberManager_not_lists).1 _ rfl⟩

/-! ## Updates -/

/-- An update leaves every index as it was if it fails: no index before the first one that cannot
make a key of the old document lists it; and where all can, and an index refuses the new document,
no index lists the old one and the indexes before the one that refuses restore their lists. -/
def UpdateKeeps (manager : IndexManager) (docId : DocumentId)
    (oldDocument newDocument : Document) : Prop :=
  (∀ before entry rest, manager.indexes = before ++ entry :: rest →
    (∀ entry ∈ before, entry.2.Keyed oldDocument) → ¬entry.2.Keyed oldDocument →
    ∀ entry ∈ before, ¬entry.2.ListsUnder docId oldDocument) ∧
  ((∀ entry ∈ manager.indexes, entry.2.Keyed oldDocument) →
    ∀ before entry rest, manager.indexes = before ++ entry :: rest →
      (∀ entry ∈ before, entry.2.Accepts docId newDocument) → ¬entry.2.Accepts docId newDocument →
      (∀ entry ∈ manager.indexes, ¬entry.2.ListsUnder docId oldDocument) ∧
        ∀ entry ∈ before, entry.2.Restores docId newDocument)

theorem updateDocument_of_error {oldDocument : Document} (newDocument : Document)
    {e : IndexError} (h : (removeDocumentFrom docId oldDocument manager.indexes).1 = .error e) :
    manager.updateDocument docId oldDocument newDocument =
      (.error e, (manager.removeDocument docId oldDocument).2) := by
  rw [updateDocument]
  have hresult : (manager.removeDocument docId oldDocument).1 = .error e := h
  split
  next hremove =>
    rw [hremove] at hresult ⊢
    cases hresult
    rfl
  next hremove =>
    rw [hremove] at hresult
    cases hresult

theorem updateDocument_of_ok {oldDocument : Document} (newDocument : Document)
    (h : (removeDocumentFrom docId oldDocument manager.indexes).1 = .ok ()) :
    manager.updateDocument docId oldDocument newDocument =
      (manager.removeDocument docId oldDocument).2.insertDocument docId newDocument := by
  rw [updateDocument]
  have hresult : (manager.removeDocument docId oldDocument).1 = .ok () := h
  split
  next hremove =>
    rw [hremove] at hresult
    cases hresult
  next hremove => rw [hremove]

/-- A failed removal. -/
theorem updateDocument_stops {oldDocument newDocument : Document}
    (hsplit : manager.indexes = before ++ entry :: rest)
    (hbefore : ∀ entry ∈ before, entry.2.Keyed oldDocument) (hentry : ¬entry.2.Keyed oldDocument) :
    ((∃ e, (manager.updateDocument docId oldDocument newDocument).1 = .error e) ∧
      (manager.SameContents (manager.updateDocument docId oldDocument newDocument).2 ↔
        ∀ entry ∈ before, ¬entry.2.ListsUnder docId oldDocument)) := by
  obtain ⟨e, hstops⟩ := removeDocumentFrom_stops docId rest hbefore hentry
  rw [← hsplit] at hstops
  have hupdate := updateDocument_of_error newDocument (congrArg Prod.fst hstops)
  refine ⟨⟨e, congrArg Prod.fst hupdate⟩, ?_⟩
  have hafter : (manager.updateDocument docId oldDocument newDocument).2.indexes =
      before.map (withoutEntry docId oldDocument) ++ entry :: rest := by
    rw [hupdate]
    exact congrArg Prod.snd hstops
  rw [SameContents, hafter, hsplit]
  constructor
  · intro hsame own hown
    have hforall := List.forall₂_take_append _ _ _ hsame
    rw [List.length_map, List.take_left, List.forall₂_map_right_iff, List.forall₂_same] at hforall
    exact (BTreeIndex.sameContents_without_iff (hbefore own hown)).mp (hforall own hown).2
  · intro hnot
    refine List.rel_append ?_ (List.forall₂_same.mpr fun _ _ => ⟨rfl, .refl _⟩)
    rw [List.forall₂_map_right_iff, List.forall₂_same]
    intro own hown
    exact ⟨rfl, (BTreeIndex.sameContents_without_iff (hbefore own hown)).mpr (hnot own hown)⟩

theorem updateDocument_refused {oldDocument newDocument : Document} (htidy : manager.Tidy)
    (hkeyed : ∀ entry ∈ manager.indexes, entry.2.Keyed oldDocument)
    (hsplit : manager.indexes = before ++ entry :: rest)
    (hbefore : ∀ entry ∈ before, entry.2.Accepts docId newDocument)
    (hentry : ¬entry.2.Accepts docId newDocument) :
    (∃ e, (manager.updateDocument docId oldDocument newDocument).1 = .error e) ∧
      (manager.SameContents (manager.updateDocument docId oldDocument newDocument).2 ↔
        (∀ entry ∈ manager.indexes, ¬entry.2.ListsUnder docId oldDocument) ∧
          ∀ entry ∈ before, entry.2.Restores docId newDocument) := by
  have hremove := removeDocumentFrom_of_keyed docId hkeyed
  have hupdate := updateDocument_of_ok newDocument (congrArg Prod.fst hremove)
  have hindexes : (manager.removeDocument docId oldDocument).2.indexes =
      before.map (withoutEntry docId oldDocument) ++ withoutEntry docId oldDocument entry ::
        rest.map (withoutEntry docId oldDocument) := by
    show (removeDocumentFrom docId oldDocument manager.indexes).2 = _
    rw [hremove, hsplit, List.map_append, List.map_cons]
  have haccepts (own : NamedIndex) (hown : own ∈ manager.indexes) :
      (withoutEntry docId oldDocument own).2.Accepts docId newDocument ↔
        own.2.Accepts docId newDocument :=
    BTreeIndex.accepts_without_iff (htidy own hown) (hkeyed own hown)
  have hmem (own : NamedIndex) (hown : own ∈ before) : own ∈ manager.indexes :=
    hsplit ▸ List.mem_append_left _ hown
  have hmemEntry : entry ∈ manager.indexes := hsplit ▸ by simp
  have hbefore' : ∀ own ∈ before.map (withoutEntry docId oldDocument),
      own.2.Accepts docId newDocument := by
    intro own' hown'
    obtain ⟨own, hown, rfl⟩ := List.mem_map.mp hown'
    exact (haccepts own (hmem own hown)).mpr (hbefore own hown)
  obtain ⟨e, hstops⟩ := insertDocumentInto_stops
    (hindexes ▸ (manager.removeDocument docId oldDocument).2.nodup) hbefore'
    fun h => hentry ((haccepts entry hmemEntry).mp h)
  rw [← hindexes] at hstops
  refine ⟨⟨e, by rw [hupdate]; exact congrArg Prod.fst hstops⟩, ?_⟩
  have hafter : (manager.updateDocument docId oldDocument newDocument).2.indexes =
      before.map (fun own => withoutEntry docId newDocument
        (includingEntry docId newDocument (withoutEntry docId oldDocument own))) ++
        (entry :: rest).map (withoutEntry docId oldDocument) := by
    rw [hupdate]
    refine (congrArg Prod.snd hstops).trans ?_
    rw [List.map_map, List.map_cons]
    rfl
  rw [SameContents, hafter, hsplit]
  constructor
  · intro hsame
    have hfirst := List.forall₂_take_append _ _ _ hsame
    have hlast := List.forall₂_drop_append _ _ _ hsame
    rw [List.length_map, List.take_left, List.forall₂_map_right_iff, List.forall₂_same] at hfirst
    rw [List.length_map, List.drop_left, List.forall₂_map_right_iff, List.forall₂_same] at hlast
    have hnot (own : NamedIndex) (hown : own ∈ before) : ¬own.2.ListsUnder docId oldDocument := by
      intro hlists
      -- one entry less is counted, whatever is inserted and taken out afterwards
      have htotal := BTreeIndex.without_totalEntries hlists
      have hstats := (hfirst own hown).2.stats
      have hundone := BTreeIndex.undone_stats ((haccepts own (hmem own hown)).mpr
        (hbefore own hown))
      rw [show (own.2.without docId oldDocument).stats = own.2.stats from
        hundone.symm.trans hstats] at htotal
      grind
    refine ⟨?_, fun own hown => ?_⟩
    · intro own hown
      rcases List.mem_append.mp hown with hown | hown
      · exact hnot own hown
      · exact (BTreeIndex.sameContents_without_iff (hkeyed own (hsplit ▸
          List.mem_append_right _ hown))).mp (hlast own hown).2
    · have hsameOwn := (hfirst own hown).2
      dsimp only [withoutEntry, includingEntry] at hsameOwn
      rw [BTreeIndex.without_eq_self (hkeyed own (hmem own hown)) (hnot own hown)] at hsameOwn
      exact (BTreeIndex.sameContents_undone_iff (htidy own (hmem own hown))
        (hbefore own hown)).mp hsameOwn
  · rintro ⟨hnot, hrestores⟩
    refine List.rel_append ?_ ?_
    · rw [List.forall₂_map_right_iff, List.forall₂_same]
      intro own hown
      refine ⟨rfl, ?_⟩
      dsimp only [withoutEntry, includingEntry]
      rw [BTreeIndex.without_eq_self (hkeyed own (hmem own hown))
        (hnot own (List.mem_append_left _ hown))]
      exact (BTreeIndex.sameContents_undone_iff (htidy own (hmem own hown))
        (hbefore own hown)).mpr (hrestores own hown)
    · rw [List.forall₂_map_right_iff, List.forall₂_same]
      intro own hown
      exact ⟨rfl, (BTreeIndex.sameContents_without_iff (hkeyed own (hsplit ▸
        List.mem_append_right _ hown))).mpr (hnot own (List.mem_append_right _ hown))⟩

theorem updateDocument_of_accepts {oldDocument newDocument : Document} (htidy : manager.Tidy)
    (hkeyed : ∀ entry ∈ manager.indexes, entry.2.Keyed oldDocument)
    (haccepts : ∀ entry ∈ manager.indexes, entry.2.Accepts docId newDocument) :
    (manager.updateDocument docId oldDocument newDocument).1 = .ok () := by
  have hremove := removeDocumentFrom_of_keyed docId hkeyed
  have hindexes : (manager.removeDocument docId oldDocument).2.indexes =
      manager.indexes.map (withoutEntry docId oldDocument) := congrArg Prod.snd hremove
  rw [updateDocument_of_ok newDocument (congrArg Prod.fst hremove)]
  apply insertDocumentInto_of_accepts
  rw [hindexes]
  intro own' hown'
  obtain ⟨own, hown, rfl⟩ := List.mem_map.mp hown'
  exact (BTreeIndex.accepts_without_iff (htidy own hown) (hkeyed own hown)).mpr (haccepts own hown)

/-- Two documents under a unique index. -/
def pairManager : IndexManager :=
  (numberManager.call (.insert ⟨2⟩ (numberDocument ⟨2⟩ 2))).2

theorem SameContents.findWithIndex {manager' : IndexManager} (h : manager.SameContents manager')
    (indexName : String) (key : IndexKey) :
    manager'.findWithIndex indexName key = manager.findWithIndex indexName key := by
  have hlookup : (manager'.getIndex indexName).map (fun index => index.findExact key) =
      (manager.getIndex indexName).map fun index => index.findExact key := by
    rw [getIndex, getIndex]
    rw [SameContents] at h
    generalize manager.indexes = entries at h ⊢
    generalize manager'.indexes = entries' at h ⊢
    induction h with
    | nil => rfl
    | @cons entry entry' entries entries' hentry _ ih =>
      rw [List.lookup_cons, List.lookup_cons, hentry.1]
      cases indexName == entry.1 with
      | false => exact ih
      | true =>
        refine congrArg some ?_
        show Postings.idsAt entry'.2.tree key = Postings.idsAt entry.2.tree key
        rw [Postings.idsAt, hentry.2.lists]
        rfl
  rw [IndexManager.findWithIndex, IndexManager.findWithIndex]
  cases hold : manager.getIndex indexName with
  | none =>
    rw [hold, Option.map_none, Option.map_eq_none_iff] at hlookup
    rw [hlookup]
  | some index =>
    rw [hold, Option.map_some, Option.map_eq_some_iff] at hlookup
    obtain ⟨index', hnew, heq⟩ := hlookup
    rw [hnew]
    exact congrArg Except.ok heq

end IndexManager

end VedDb
