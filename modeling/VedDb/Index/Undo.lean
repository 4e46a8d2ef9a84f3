import VedDb.Index.Calls

/-!
# Insertions taken back

What the operations of one index do as equations, from the key of the document, and when an
insertion followed by the removal of the same document leaves the index as it was.
-/

namespace VedDb

namespace BTreeIndex

variable (index : BTreeIndex) (docId : DocumentId) (document : Document)

/-- The same index, with the same identifiers under each key and the same counters. -/
structure SameContents (index index' : BTreeIndex) : Prop where
  kind : SameKind index index'
  lists (key : IndexKey) : index'.tree[key]? = index.tree[key]?
  stats : index'.stats = index.stats

/-- No key is kept for no document, and a unique index has one document under a key. -/
structure Tidy : Prop where
  nonempty (key : IndexKey) : index.tree[key]? ≠ some []
  single : index.unique = true → ∀ key, (Postings.idsAt index.tree key).length ≤ 1

/-- The index can make a key of the document. -/
def Keyed : Prop := ∃ key, document.fields.indexKey index.fields = .ok key

def ListsUnder : Prop :=
  ∃ key, index.keyOf document.fields = some key ∧ docId ∈ Postings.idsAt index.tree key

/-- The index can take the document: a unique one lists no other document under its key. -/
def Accepts : Prop :=
  index.Keyed document ∧ ∀ key, index.keyOf document.fields = some key → index.unique = true →
    Postings.idsAt index.tree key = [] ∨ docId ∈ Postings.idsAt index.tree key

/-- The index after an insertion, which it may refuse. -/
def including : BTreeIndex :=
  match index.insert docId (createIndexEntry document index.fields) with
  | .ok index' => index'
  | .error _ => index

/-- The index after a removal, which may fail. -/
def without : BTreeIndex :=
  match index.remove docId (createIndexEntry document index.fields) with
  | .ok (_, index') => index'
  | .error _ => index

/-- Taking the document out again leaves the list of its key as it was. -/
def Restores : Prop :=
  ∀ key, index.keyOf document.fields = some key →
    if index.unique then docId ∉ Postings.idsAt index.tree key
    else (Postings.idsAt index.tree key ++ [docId]).erase docId = Postings.idsAt index.tree key

variable {index docId document} {index' : BTreeIndex}

theorem SameContents.refl (index : BTreeIndex) : SameContents index index :=
  ⟨.refl index, fun _ => rfl, rfl⟩

theorem keyOf_of_keyed (h : index.Keyed document) :
    ∃ key, document.fields.indexKey index.fields = .ok key ∧
      index.keyOf document.fields = if index.sparse && key.hasNull then none else some key := by
  obtain ⟨key, hkey⟩ := h
  refine ⟨key, hkey, ?_⟩
  rw [keyOf, hkey]

theorem insert_eq (h : index.Accepts docId document) :
    index.insert docId (createIndexEntry document index.fields) =
      .ok (match index.keyOf document.fields with
        | none => index
        | some key =>
          { index with
            tree :=
              if index.unique then index.tree.insert key [docId]
              else Postings.push index.tree key docId
            stats :=
              { totalEntries := index.stats.totalEntries + 1
                totalSizeBytes := index.stats.totalSizeBytes +
                  UInt64.ofNat (createIndexEntry document index.fields).sizeEstimate } }) := by
  obtain ⟨hkeyed, hfree⟩ := h
  obtain ⟨key, hkey, hown⟩ := keyOf_of_keyed hkeyed
  rw [insert, fromEntry_createIndexEntry, hkey]
  dsimp only
  by_cases hsparse : (index.sparse && key.hasNull) = true
  · rw [if_pos hsparse] at hown ⊢
    rw [hown]
  · rw [if_neg hsparse] at hown ⊢
    have hguard : ¬(index.unique && !(Postings.idsAt index.tree key).isEmpty &&
        !(Postings.idsAt index.tree key).contains docId) = true := by
      intro htaken
      simp only [Bool.and_eq_true, Bool.not_eq_true', List.isEmpty_eq_false_iff,
        List.contains_eq_mem, decide_eq_false_iff_not] at htaken
      obtain ⟨⟨hunique, hsome⟩, hnot⟩ := htaken
      exact (hfree key hown hunique).elim hsome hnot
    rw [if_neg hguard, hown]

theorem accepts_of_insert
    (h : index.insert docId (createIndexEntry document index.fields) = .ok index') :
    index.Accepts docId document := by
  have hkeyed : index.Keyed document := by
    rw [insert, fromEntry_createIndexEntry] at h
    cases hkey : document.fields.indexKey index.fields with
    | error e => simp only [hkey, reduceCtorEq] at h
    | ok key => exact ⟨key, hkey⟩
  refine ⟨hkeyed, fun key hkey hunique => ?_⟩
  obtain ⟨-, ⟨hnone, -⟩ | ⟨key', hkey', hfree, -⟩⟩ := insert_cases h
  · rw [hnone] at hkey
    cases hkey
  · rw [Option.some.inj (hkey.symm.trans hkey')]
    exact (hfree hunique).2

theorem insert_including (h : index.Accepts docId document) :
    index.insert docId (createIndexEntry document index.fields) =
      .ok (index.including docId document) := by
  rw [including, insert_eq h]

theorem remove_eq (docId : DocumentId) (h : index.Keyed document) :
    ∃ found, index.remove docId (createIndexEntry document index.fields) =
      .ok (found, match index.keyOf document.fields with
        | none => index
        | some key =>
          if docId ∈ Postings.idsAt index.tree key then
            { index with
              tree := Postings.remove index.tree key docId
              stats :=
                { totalEntries := index.stats.totalEntries - 1
                  totalSizeBytes := index.stats.totalSizeBytes -
                    UInt64.ofNat (createIndexEntry document index.fields).sizeEstimate } }
          else index) := by
  obtain ⟨key, hkey, hown⟩ := keyOf_of_keyed h
  rw [remove, fromEntry_createIndexEntry, hkey]
  dsimp only
  by_cases hsparse : (index.sparse && key.hasNull) = true
  · rw [if_pos hsparse] at hown ⊢
    rw [hown]
    exact ⟨false, rfl⟩
  · rw [if_neg hsparse] at hown ⊢
    rw [hown, List.contains_eq_mem]
    dsimp only
    by_cases hmem : docId ∈ Postings.idsAt index.tree key
    · rw [if_pos (decide_eq_true hmem), if_pos hmem]
      exact ⟨true, rfl⟩
    · rw [if_neg (by simpa using hmem), if_neg hmem]
      exact ⟨false, rfl⟩

theorem remove_without (docId : DocumentId) (h : index.Keyed document) :
    ∃ found, index.remove docId (createIndexEntry document index.fields) =
      .ok (found, index.without docId document) := by
  obtain ⟨found, hremove⟩ := remove_eq docId h
  refine ⟨found, ?_⟩
  rw [without, hremove]

theorem keyed_of_remove {result : Bool × BTreeIndex}
    (h : index.remove docId (createIndexEntry document index.fields) = .ok result) :
    index.Keyed document := by
  rw [remove, fromEntry_createIndexEntry] at h
  cases hkey : document.fields.indexKey index.fields with
  | error e => simp only [hkey, reduceCtorEq] at h
  | ok key => exact ⟨key, hkey⟩

theorem without_eq_self (hkeyed : index.Keyed document) (h : ¬index.ListsUnder docId document) :
    index.without docId document = index := by
  obtain ⟨found, hremove⟩ := remove_eq docId hkeyed
  rw [without, hremove]
  cases hkey : index.keyOf document.fields with
  | none => rfl
  | some key => exact if_neg fun hmem => h ⟨key, hkey, hmem⟩

-- A removal that finds the document counts one entry less.
theorem without_totalEntries (h : index.ListsUnder docId document) :
    (index.without docId document).stats.totalEntries = index.stats.totalEntries - 1 := by
  obtain ⟨key, hkey, hmem⟩ := h
  have hkeyed : index.Keyed document := by
    rw [keyOf] at hkey
    cases hown : document.fields.indexKey index.fields with
    | error e => simp only [hown, reduceCtorEq] at hkey
    | ok own => exact ⟨own, hown⟩
  obtain ⟨found, hremove⟩ := remove_eq docId hkeyed
  rw [without, hremove, hkey]
  dsimp only
  rw [if_pos hmem]

theorem sameKind_including (index : BTreeIndex) (docId : DocumentId) (document : Document) :
    SameKind index (index.including docId document) := by
  rw [including]
  split
  next index' hinsert => exact (insert_cases hinsert).1
  next => exact .refl index

theorem sameKind_without (index : BTreeIndex) (docId : DocumentId) (document : Document) :
    SameKind index (index.without docId document) := by
  rw [without]
  split
  next found index' hremove => exact (remove_cases hremove).1
  next => exact .refl index

/-- The tree after an insertion that is taken back. -/
theorem undone_eq (h : index.Accepts docId document) :
    (index.including docId document).without docId document =
      match index.keyOf document.fields with
      | none => index
      | some key =>
        { index with
          tree := Postings.remove
            (if index.unique then index.tree.insert key [docId]
              else Postings.push index.tree key docId) key docId } := by
  have hkind := sameKind_including index docId document
  have hkeyed : (index.including docId document).Keyed document := by
    obtain ⟨key, hkey⟩ := h.1
    exact ⟨key, hkind.fields ▸ hkey⟩
  obtain ⟨found, hremove⟩ := remove_eq docId hkeyed
  rw [without, hremove, hkind.keyOf, including, insert_eq h]
  cases hkey : index.keyOf document.fields with
  | none => rfl
  | some key =>
    dsimp only
    rw [if_pos, UInt64.add_sub_cancel, UInt64.add_sub_cancel]
    cases index.unique with
    | true =>
      rw [if_pos rfl, Postings.idsAt_insert, if_pos Std.ReflCmp.compare_self]
      exact List.mem_singleton_self _
    | false =>
      rw [if_neg Bool.false_ne_true, Postings.idsAt_push, if_pos Std.ReflCmp.compare_self]
      exact List.mem_append_right _ (List.mem_singleton_self _)

theorem undone_stats (h : index.Accepts docId document) :
    ((index.including docId document).without docId document).stats = index.stats := by
  rw [undone_eq h]
  cases index.keyOf document.fields with
  | none => rfl
  | some key => rfl

theorem idsAt_undone (h : index.Accepts docId document) {key : IndexKey}
    (hkey : index.keyOf document.fields = some key) (other : IndexKey) :
    Postings.idsAt ((index.including docId document).without docId document).tree other =
      if IndexKey.cmp key other = .eq then
        (if index.unique then [docId] else Postings.idsAt index.tree key ++ [docId]).erase docId
      else Postings.idsAt index.tree other := by
  rw [undone_eq h, hkey]
  dsimp only
  rw [Postings.idsAt_remove]
  by_cases hother : IndexKey.cmp key other = .eq
  · rw [if_pos hother, if_pos hother]
    cases index.unique with
    | true => rw [if_pos rfl, if_pos rfl, Postings.idsAt_insert, if_pos hother]
    | false =>
      rw [if_neg Bool.false_ne_true, if_neg Bool.false_ne_true, Postings.idsAt_push,
        if_pos hother, Postings.idsAt_congr hother]
  · rw [if_neg hother, if_neg hother]
    cases index.unique with
    | true => rw [if_pos rfl, Postings.idsAt_insert, if_neg hother]
    | false => rw [if_neg Bool.false_ne_true, Postings.idsAt_push, if_neg hother]

theorem nonempty_undone (htidy : index.Tidy) (h : index.Accepts docId document)
    (other : IndexKey) :
    ((index.including docId document).without docId document).tree[other]? ≠ some [] := by
  rw [undone_eq h]
  cases index.keyOf document.fields with
  | none => exact htidy.nonempty other
  | some key =>
    refine Postings.getElem?_remove_ne fun key' => ?_
    cases index.unique with
    | true =>
      rw [if_pos rfl]
      exact Postings.getElem?_insert_ne (List.cons_ne_nil _ _) htidy.nonempty
    | false =>
      rw [if_neg Bool.false_ne_true]
      exact Postings.getElem?_insert_ne (by simp) htidy.nonempty

theorem sameContents_undone_iff (htidy : index.Tidy) (h : index.Accepts docId document) :
    SameContents index ((index.including docId document).without docId document) ↔
      index.Restores docId document := by
  have hkind := (sameKind_including index docId document).trans
    (sameKind_without (index.including docId document) docId document)
  cases hkey : index.keyOf document.fields with
  | none =>
    have heq : (index.including docId document).without docId document = index := by
      rw [undone_eq h, hkey]
    rw [heq]
    refine iff_of_true (.refl index) fun key hother => ?_
    rw [hkey] at hother
    cases hother
  | some key =>
    have hlists := idsAt_undone h hkey
    have hnonempty := nonempty_undone htidy h
    have hsame : SameContents index ((index.including docId document).without docId document) ↔
        ∀ other, Postings.idsAt ((index.including docId document).without docId document).tree
          other = Postings.idsAt index.tree other :=
      ⟨fun hsame other =>
        (Postings.getElem?_eq_iff htidy.nonempty hnonempty).mp (hsame.lists other),
        fun hsame => ⟨hkind, fun other =>
          (Postings.getElem?_eq_iff htidy.nonempty hnonempty).mpr (hsame other),
          undone_stats h⟩⟩
    have hrestored : index.Restores docId document ↔
        (if index.unique then [docId] else Postings.idsAt index.tree key ++ [docId]).erase docId =
          Postings.idsAt index.tree key := by
      rw [Restores, hkey]
      simp only [Option.some.injEq, forall_eq']
      cases hunique : index.unique with
      | true =>
        rw [if_pos rfl, if_pos rfl, List.erase_cons_head]
        constructor
        · intro hmem
          exact ((h.2 key hkey hunique).resolve_right hmem).symm
        · intro hnil
          rw [← hnil]
          exact List.not_mem_nil
      | false =>
        rw [if_neg Bool.false_ne_true, if_neg Bool.false_ne_true]
    rw [hsame, hrestored]
    constructor
    · intro hall
      have hkeys := hall key
      rw [hlists, if_pos Std.ReflCmp.compare_self] at hkeys
      exact hkeys
    · intro hkeys other
      rw [hlists]
      by_cases hother : IndexKey.cmp key other = .eq
      · rw [if_pos hother, hkeys]
        exact Postings.idsAt_congr hother
      · rw [if_neg hother]

theorem Restores.of_notMem (h : ¬index.ListsUnder docId document) :
    index.Restores docId document := by
  intro key hkey
  have hmem : docId ∉ Postings.idsAt index.tree key := fun hmem => h ⟨key, hkey, hmem⟩
  split
  next => exact hmem
  next => rw [List.erase_append_right _ hmem, List.erase_cons_head, List.append_nil]

/-! ## Tidy indexes -/

theorem tidy_empty (htree : index.tree = ∅) : index.Tidy where
  nonempty key := by
    rw [htree, Std.ExtTreeMap.getElem?_empty]
    exact (Option.some_ne_none _).symm
  single _ key := by
    rw [htree, Postings.idsAt_empty]
    exact Nat.zero_le 1

theorem Tidy.insert (h : index.Tidy)
    (hinsert : index.insert docId (createIndexEntry document index.fields) = .ok index') :
    index'.Tidy := by
  obtain ⟨hkind, ⟨-, rfl⟩ | ⟨key, -, hunique, hmany⟩⟩ := insert_cases hinsert
  · exact h
  · cases hindex : index.unique with
    | false =>
      refine ⟨fun other => ?_, fun htrue => ?_⟩
      · rw [hmany hindex]
        exact Postings.getElem?_insert_ne (by simp) h.nonempty
      · rw [hkind.unique, hindex] at htrue
        cases htrue
    | true =>
      refine ⟨fun other => ?_, fun _ other => ?_⟩
      · rw [(hunique hindex).1]
        exact Postings.getElem?_insert_ne (List.cons_ne_nil _ _) h.nonempty
      · rw [(hunique hindex).1, Postings.idsAt_insert]
        split
        next => exact Nat.le_refl 1
        next => exact h.single hindex other

theorem Tidy.remove (h : index.Tidy) {found : Bool}
    (hremove : index.remove docId (createIndexEntry document index.fields) = .ok (found, index')) :
    index'.Tidy := by
  obtain ⟨hkind, ⟨-, key, -, -, htree⟩ | ⟨-, rfl, -⟩⟩ := remove_cases hremove
  · refine ⟨fun other => ?_, fun hunique other => ?_⟩
    · rw [htree]
      exact Postings.getElem?_remove_ne h.nonempty
    · rw [hkind.unique] at hunique
      rw [htree, Postings.idsAt_remove]
      split
      next => exact List.erase_sublist.length_le.trans (h.single hunique other)
      next => exact h.single hunique other
  · exact h

theorem sameContents_without_iff (hkeyed : index.Keyed document) :
    SameContents index (index.without docId document) ↔ ¬index.ListsUnder docId document := by
  constructor
  · intro hsame hlists
    have htotal := without_totalEntries hlists
    rw [hsame.stats] at htotal
    grind
  · intro hnot
    rw [without_eq_self hkeyed hnot]
    exact .refl index

/-- A unique index without the old document takes the new one exactly when it took it before. -/
theorem accepts_without_iff {oldDocument : Document} (htidy : index.Tidy)
    (hkeyed : index.Keyed oldDocument) :
    (index.without docId oldDocument).Accepts docId document ↔ index.Accepts docId document := by
  by_cases hlists : index.ListsUnder docId oldDocument
  · obtain ⟨key, hkey, hmem⟩ := hlists
    have hkind := sameKind_without index docId oldDocument
    have htree : (index.without docId oldDocument).tree = Postings.remove index.tree key docId := by
      obtain ⟨found, hremove⟩ := remove_eq docId hkeyed
      rw [without, hremove, hkey]
      dsimp only
      rw [if_pos hmem]
    have hids (hunique : index.unique = true) (other : IndexKey) :
        (Postings.idsAt (index.without docId oldDocument).tree other = [] ∨
          docId ∈ Postings.idsAt (index.without docId oldDocument).tree other) ↔
        (Postings.idsAt index.tree other = [] ∨ docId ∈ Postings.idsAt index.tree other) := by
      have hlength := htidy.single hunique other
      rw [htree, Postings.idsAt_remove]
      split
      next =>
        cases hids : Postings.idsAt index.tree other with
        | nil => simp
        | cons owner rest =>
          rw [hids, List.length_cons] at hlength
          have hrest : rest = [] := List.length_eq_zero_iff.mp (by omega)
          rw [hrest]
          by_cases howner : owner = docId
          · rw [howner]
            simp
          · rw [List.erase_cons_tail (by simpa using howner)]
            simp
      next => rfl
    rw [Accepts, Accepts, Keyed, Keyed, hkind.fields, hkind.keyOf, hkind.unique]
    refine and_congr_right fun _ => forall_congr' fun other => ?_
    refine forall_congr' fun _ => forall_congr' fun hunique => hids hunique other
  · rw [without_eq_self hkeyed hlists]

end BTreeIndex

end VedDb
