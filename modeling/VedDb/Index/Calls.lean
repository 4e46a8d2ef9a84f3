import VedDb.Index.Contents

/-!
# Calls that may fail

When the calls of a manager succeed, and what each does to one index, whether it succeeds or not.
-/

namespace VedDb

/-! ## When calls succeed -/

namespace BTreeIndex

/-- The index takes the document under the identifier: it has a key, which a unique index does not
list for another document. -/
def Admits (index : BTreeIndex) (docId : DocumentId) (document : Document) : Prop :=
  ∃ key, document.fields.indexKey index.fields = .ok key ∧
    (index.unique = true → ∀ other ∈ Postings.idsAt index.tree key, other = docId)

def ListsDocument (index : BTreeIndex) (docId : DocumentId) : Prop :=
  ∃ key, docId ∈ Postings.idsAt index.tree key

theorem Admits.insert {index : BTreeIndex} {docId : DocumentId} {document : Document}
    (h : index.Admits docId document) :
    ∃ index', index.insert docId (createIndexEntry document index.fields) = .ok index' := by
  obtain ⟨key, hkey, hfree⟩ := h
  rw [BTreeIndex.insert, fromEntry_createIndexEntry, hkey]
  dsimp only
  by_cases hsparse : (index.sparse && key.hasNull) = true
  · rw [if_pos hsparse]
    exact ⟨index, rfl⟩
  · rw [if_neg hsparse]
    have hguard : ¬(index.unique && !(Postings.idsAt index.tree key).isEmpty &&
        !(Postings.idsAt index.tree key).contains docId) = true := by
      intro htaken
      simp only [Bool.and_eq_true, Bool.not_eq_true'] at htaken
      obtain ⟨⟨hunique, hsome⟩, hnot⟩ := htaken
      cases hids : Postings.idsAt index.tree key with
      | nil => simp [hids] at hsome
      | cons other ids =>
        have hother := hfree hunique other (by rw [hids]; exact List.mem_cons_self)
        simp [hids, hother] at hnot
    rw [if_neg hguard]
    exact ⟨_, rfl⟩

-- What a removal leaves admits no fewer documents.
theorem Admits.remove {index index' : BTreeIndex} {docId : DocumentId}
    {document removed : Document} {found : Bool} (h : index.Admits docId document)
    (hremove : index.remove docId (createIndexEntry removed index.fields) = .ok (found, index')) :
    index'.Admits docId document := by
  obtain ⟨key, hkey, hfree⟩ := h
  obtain ⟨hkind, hcases⟩ := remove_cases hremove
  refine ⟨key, hkind.fields ▸ hkey, ?_⟩
  intro hunique other hother
  rw [hkind.unique] at hunique
  obtain ⟨-, own, -, -, htree⟩ | ⟨-, hsame, -⟩ := hcases
  · rw [htree, Postings.idsAt_remove] at hother
    by_cases hown : IndexKey.cmp own key = .eq
    · rw [if_pos hown] at hother
      exact hfree hunique other (List.mem_of_mem_erase hother)
    · rw [if_neg hown] at hother
      exact hfree hunique other hother
  · rw [hsame] at hother
    exact hfree hunique other hother

end BTreeIndex

namespace IndexManager

section

variable {docId : DocumentId} {document : Document} {indexes : List NamedIndex}

theorem insertDocumentInto_of_admits (h : ∀ entry ∈ indexes, entry.2.Admits docId document) :
    (insertDocumentInto docId document indexes).1 = .ok () := by
  have hloop : (insertLoop docId document indexes).1 = none := by
    induction indexes with
    | nil => rfl
    | cons entry rest ih =>
      obtain ⟨index, hinsert⟩ := (h entry List.mem_cons_self).insert
      rw [insertLoop]
      simp only [hinsert]
      exact ih fun other hother => h other (List.mem_cons_of_mem _ hother)
  rw [insertDocumentInto]
  split
  · rfl
  · next hfailed =>
      rw [hfailed] at hloop
      cases hloop

theorem removeDocumentFrom_of_keys
    (h : ∀ entry ∈ indexes, ∃ key, document.fields.indexKey entry.2.fields = .ok key) :
    (removeDocumentFrom docId document indexes).1 = .ok () := by
  induction indexes with
  | nil => rfl
  | cons entry rest ih =>
    obtain ⟨key, hkey⟩ := h entry List.mem_cons_self
    have hrest := ih fun other hother => h other (List.mem_cons_of_mem _ hother)
    rw [removeDocumentFrom, removeUntil, if_neg (by simp), BTreeIndex.remove,
      fromEntry_createIndexEntry, hkey]
    dsimp only
    split
    · next hremove =>
        split at hremove
        · cases hremove
        · split at hremove
          · cases hremove
          · cases hremove
    · exact hrest

end

variable (manager : IndexManager) (docId : DocumentId) (oldDocument newDocument : Document)

/-- Every index has a key for the old version. -/
def CanRemove : Prop :=
  ∀ entry ∈ manager.indexes, ∃ key, oldDocument.fields.indexKey entry.2.fields = .ok key

/-- Every index has a key for the old version and takes the new one. -/
def CanUpdate : Prop :=
  manager.CanRemove oldDocument ∧ ∀ entry ∈ manager.indexes, entry.2.Admits docId newDocument

variable {manager docId oldDocument newDocument}

theorem CanRemove.removeDocument (h : manager.CanRemove oldDocument) :
    (manager.removeDocument docId oldDocument).1 = .ok () :=
  removeDocumentFrom_of_keys h

theorem CanUpdate.updateDocument (h : manager.CanUpdate docId oldDocument newDocument) :
    (manager.updateDocument docId oldDocument newDocument).1 = .ok () := by
  have hremove : (manager.removeDocument docId oldDocument).1 = .ok () := h.1.removeDocument
  rw [IndexManager.updateDocument]
  split
  · next hfailed =>
      rw [hfailed] at hremove
      cases hremove
  · next removed hremoved =>
      rw [IndexManager.removeDocument, Prod.mk.injEq] at hremoved
      obtain ⟨hok, rfl⟩ := hremoved
      apply insertDocumentInto_of_admits
      intro entry' hentry'
      obtain ⟨entry, hentry, -, found, hremove⟩ :=
        exists_of_forall₂_right (removeUntil_ok (Prod.ext hok rfl)) hentry'
      exact (h.2 entry hentry).remove hremove

/-! ## What a call does to one index -/

section

variable {index : BTreeIndex} {indexName : String} {documents : CurrentDocuments}
  {document : Document}

-- An insertion inserts the document, or leaves the index as exact as it was.
theorem insertDocument_index (hindex : manager.getIndex indexName = some index)
    (h : index.Exact documents) (hnew : (documents docId).bind index.keyOf = none) :
    ∃ index', (manager.insertDocument docId document).2.getIndex indexName = some index' ∧
      index.SameKind index' ∧
      match (manager.insertDocument docId document).1 with
      | .ok () => index'.Exact (documents.insert docId document)
      | .error _ => index'.Exact documents := by
  rw [insertDocument]
  dsimp only
  cases hresult : (insertDocumentInto docId document manager.indexes).1 with
  | ok _ =>
    have hloop := insertDocumentInto_ok (Prod.ext hresult rfl)
    obtain ⟨index', hindex', -, hinsert⟩ := lookup_of_forall₂ And.left hloop hindex
    exact ⟨index', hindex', (BTreeIndex.insert_cases hinsert).1, h.insert hnew hinsert⟩
  | error e =>
    have hloop := insertDocumentInto_failed manager.nodup (Prod.ext hresult rfl)
    have hname {entry entry' : NamedIndex}
        (hundone : entry' = entry ∨ Undone docId document entry entry') :
        entry'.1 = entry.1 := by
      obtain rfl | ⟨between, hinserted, hremoved⟩ := hundone
      · rfl
      · exact hremoved.1.trans hinserted.1
    obtain ⟨index', hindex', hundone⟩ := lookup_of_forall₂ hname hloop hindex
    refine ⟨index', hindex', ?_⟩
    obtain hsame | ⟨between, hinserted, -, found, hremove⟩ := hundone
    · rw [(Prod.mk.inj hsame).2]
      exact ⟨.refl index, h⟩
    · have hkind := (BTreeIndex.insert_cases hinserted.2).1.trans
        (BTreeIndex.remove_cases hremove).1
      have hgone := (h.insert hnew hinserted.2).remove (fun key hkey => by
        rw [Function.update_self] at hkey
        exact hkey) hremove
      rw [Function.update_idem] at hgone
      exact ⟨hkind, .of_removed hkind hnew hgone⟩

-- A removal removes the document, if it is listed; one that fails does nothing to an index that
-- does not list the document.
theorem removeDocument_index (hindex : manager.getIndex indexName = some index)
    (h : index.Exact documents)
    (hkey : ∀ key, (documents docId).bind index.keyOf = some key →
      index.keyOf document.fields = some key) :
    ∃ index', (manager.removeDocument docId document).2.getIndex indexName = some index' ∧
      index.SameKind index' ∧
      match (manager.removeDocument docId document).1 with
      | .ok () => index'.Exact (documents.remove docId)
      | .error _ => ¬index.ListsDocument docId → index'.Exact documents := by
  rw [removeDocument]
  dsimp only
  cases hresult : (removeDocumentFrom docId document manager.indexes).1 with
  | ok _ =>
    have hloop := removeUntil_ok (Prod.ext hresult rfl)
    obtain ⟨index', hindex', -, found, hremove⟩ := lookup_of_forall₂ And.left hloop hindex
    exact ⟨index', hindex', (BTreeIndex.remove_cases hremove).1, h.remove hkey hremove⟩
  | error e =>
    have hname {entry entry' : NamedIndex}
        (hremoved : entry' = entry ∨ Removed docId document entry entry') :
        entry'.1 = entry.1 := by
      obtain rfl | hremoved := hremoved
      · rfl
      · exact hremoved.1
    obtain ⟨index', hindex', hremoved⟩ := lookup_of_forall₂ hname
      (removeUntil_forall₂ none manager.indexes) hindex
    refine ⟨index', hindex', ?_⟩
    obtain hsame | ⟨-, found, hremove⟩ := hremoved
    · rw [(Prod.mk.inj hsame).2]
      exact ⟨.refl index, fun _ => h⟩
    · obtain ⟨hkind, ⟨-, key, -, hmem, -⟩ | ⟨-, hsame, -⟩⟩ := BTreeIndex.remove_cases hremove
      · exact ⟨hkind, fun hnot => absurd ⟨key, hmem⟩ hnot⟩
      · have hindex' : index' = index := hsame
        rw [hindex']
        exact ⟨.refl index, fun _ => h⟩

-- An update replaces the document; one that fails does nothing to an index that does not list it.
theorem updateDocument_index (hindex : manager.getIndex indexName = some index)
    (h : index.Exact documents)
    (hkey : ∀ key, (documents docId).bind index.keyOf = some key →
      index.keyOf oldDocument.fields = some key) :
    ∃ index',
      (manager.updateDocument docId oldDocument newDocument).2.getIndex indexName = some index' ∧
      index.SameKind index' ∧
      match (manager.updateDocument docId oldDocument newDocument).1 with
      | .ok () => index'.Exact (documents.insert docId newDocument)
      | .error _ => ¬index.ListsDocument docId → index'.Exact documents := by
  obtain ⟨between, hbetween, hkind, hremoved⟩ :=
    removeDocument_index hindex h hkey
  rw [updateDocument]
  split
  · next failed hfailed =>
      rw [hfailed] at hbetween hremoved
      exact ⟨between, hbetween, hkind, hremoved⟩
  · next removed hremove =>
      rw [hremove] at hbetween hremoved
      have hnone : (documents.remove docId docId).bind between.keyOf = none := by
        rw [CurrentDocuments.remove, Function.update_self]
        rfl
      obtain ⟨index', hindex', hkind', hinserted⟩ :=
        insertDocument_index hbetween hremoved hnone
      refine ⟨index', hindex', hkind.trans hkind', ?_⟩
      split
      · next hok =>
          rw [hok] at hinserted
          dsimp only at hinserted
          rw [CurrentDocuments.insert, CurrentDocuments.remove, Function.update_idem] at hinserted
          exact hinserted
      · next e herror =>
          rw [herror] at hinserted
          intro hnot
          have hgone : (documents docId).bind index.keyOf = none :=
            h.bind_eq_none fun key hmem => hnot ⟨key, hmem⟩
          exact .of_removed (hkind.trans hkind') hgone hinserted

end

end IndexManager

end VedDb
