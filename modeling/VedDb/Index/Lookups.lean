import VedDb.Index.BTree
import VedDb.Index.Order
import VedDb.Lib.OrderedPostings
import VedDb.Lib.SortRuns

/-!
# Lookups in an index

What `find_exact` and `find_range` of `index/btree.rs` find after any sequence of insertions and
removals.  What is stored are postings, one after another as they came; a lookup by a range finds
those whose keys are within both bounds, in a stable sort by their keys.
-/

namespace VedDb

open Comparator (StableSort TotalPreorderOn)
open Postings (ListsInOrder itemsOf)

/-! ## Edits -/

/-- A call that changes an index. -/
inductive IndexEdit where
  | insert (docId : DocumentId) (entry : IndexEntry)
  | remove (docId : DocumentId) (entry : IndexEntry)

def IndexEdit.entry : IndexEdit → IndexEntry
  | .insert _ entry => entry
  | .remove _ entry => entry

def IndexEdit.HasNumberKey (fields : List String) (edit : IndexEdit) : Prop :=
  ∀ key, IndexKey.fromEntry edit.entry fields = .ok key → key.hasNaN = false

/-- A document that was put under a key, and the size it was charged with. -/
structure Posting where
  key : IndexKey
  docId : DocumentId
  size : Nat

namespace BTreeIndex

def listedUnder (index : BTreeIndex) (entry : IndexEntry) : Option IndexKey :=
  match IndexKey.fromEntry entry index.fields with
  | .error _ => none
  | .ok key => if index.sparse && key.hasNull then none else some key

/-- The index after a call.  A call that fails leaves it as it is. -/
def after (index : BTreeIndex) : IndexEdit → BTreeIndex
  | .insert docId entry =>
    match index.insert docId entry with
    | .ok index => index
    | .error _ => index
  | .remove docId entry =>
    match index.remove docId entry with
    | .ok (_, index) => index
    | .error _ => index

/-- What is stored after a call.  A unique index takes a document under a key that no other one
has, in place of what it had there. -/
def postedAfter (index : BTreeIndex) (posted : List Posting) : IndexEdit → List Posting
  | .insert docId entry =>
    match index.listedUnder entry with
    | none => posted
    | some key =>
      let own := posted.filter fun posting => posting.key.derivedEq key
      let posting := { key := key, docId := docId, size := entry.sizeEstimate }
      if !index.unique then posted ++ [posting]
      else if own ≠ [] ∧ docId ∉ own.map Posting.docId then posted
      else (posted.filter fun posting => !posting.key.derivedEq key) ++ [posting]
  | .remove docId entry =>
    match index.listedUnder entry with
    | none => posted
    | some key =>
      posted.eraseP fun posting => posting.key.derivedEq key && decide (posting.docId = docId)

/-- The range lets a key in. -/
def Within (start stop : Option IndexKey) (includeStart includeEnd : Bool) (key : IndexKey) :
    Prop :=
  (∀ s ∈ start, if includeStart then s.derivedCmp key ≠ .gt else s.derivedCmp key = .lt) ∧
    ∀ e ∈ stop, if includeEnd then key.derivedCmp e ≠ .gt else key.derivedCmp e = .lt

/-- The test that `find_range` makes of a key. -/
def InRange (start stop : Option IndexKey) (includeStart includeEnd : Bool) (key : IndexKey) :
    Bool :=
  (match start with
    | none => true
    | some s => if includeStart then IndexKey.cmp key s != .lt else IndexKey.cmp key s == .gt) &&
  match stop with
    | none => true
    | some e => if includeEnd then IndexKey.cmp key e != .gt else IndexKey.cmp key e == .lt

theorem findRange_eq_select (index : BTreeIndex) (start stop : Option IndexKey)
    (includeStart includeEnd : Bool) :
    index.findRange start stop includeStart includeEnd =
      Postings.select index.tree (InRange start stop includeStart includeEnd) := rfl

/-- No key is within both bounds. -/
def Cross (start stop : Option IndexKey) (includeStart includeEnd : Bool) : Prop :=
  ∃ s ∈ start, ∃ e ∈ stop,
    s.derivedCmp e = .gt ∨ (s.derivedCmp e = .eq ∧ ¬(includeStart = true ∧ includeEnd = true))

instance (start stop : Option IndexKey) (includeStart includeEnd : Bool) :
    DecidablePred (Within start stop includeStart includeEnd) :=
  fun _ => inferInstanceAs (Decidable (_ ∧ _))

end BTreeIndex

abbrev IndexHistory := BTreeIndex × List Posting

def IndexHistory.step (history : IndexHistory) (edit : IndexEdit) : IndexHistory :=
  (history.1.after edit, history.1.postedAfter history.2 edit)

/-! ## One call -/

namespace BTreeIndex

variable {index : BTreeIndex} {docId : DocumentId} {entry : IndexEntry} {key : IndexKey}

theorem fromEntry_of_none (h : index.listedUnder entry = none) :
    (∃ e, IndexKey.fromEntry entry index.fields = .error e) ∨
      ∃ key, IndexKey.fromEntry entry index.fields = .ok key ∧
        (index.sparse && key.hasNull) = true := by
  unfold listedUnder at h
  cases hkey : IndexKey.fromEntry entry index.fields with
  | error e => exact .inl ⟨e, rfl⟩
  | ok key =>
    simp only [hkey] at h
    by_cases hsparse : (index.sparse && key.hasNull) = true
    · exact .inr ⟨key, rfl, hsparse⟩
    · rw [if_neg hsparse] at h
      cases h

theorem after_insert_of_none (h : index.listedUnder entry = none) :
    index.after (.insert docId entry) = index := by
  unfold after insert
  obtain ⟨e, hkey⟩ | ⟨key, hkey, hsparse⟩ := fromEntry_of_none h
  · simp only [hkey]
  · simp only [hkey, if_pos hsparse]

theorem after_remove_of_none (h : index.listedUnder entry = none) :
    index.after (.remove docId entry) = index := by
  unfold after remove
  obtain ⟨e, hkey⟩ | ⟨key, hkey, hsparse⟩ := fromEntry_of_none h
  · simp only [hkey]
  · simp only [hkey, if_pos hsparse]

theorem fromEntry_of_some (h : index.listedUnder entry = some key) :
    IndexKey.fromEntry entry index.fields = .ok key ∧ (index.sparse && key.hasNull) = false := by
  unfold listedUnder at h
  cases hkey : IndexKey.fromEntry entry index.fields with
  | error e =>
    rw [hkey] at h
    cases h
  | ok own =>
    simp only [hkey] at h
    by_cases hsparse : (index.sparse && own.hasNull) = true
    · rw [if_pos hsparse] at h
      cases h
    · rw [if_neg hsparse, Option.some.injEq] at h
      rw [← h]
      exact ⟨rfl, Bool.eq_false_of_not_eq_true hsparse⟩

/-- The counters after an insertion. -/
def chargedWith (index : BTreeIndex) (entry : IndexEntry) : IndexStats :=
  { totalEntries := index.stats.totalEntries + 1
    totalSizeBytes := index.stats.totalSizeBytes + UInt64.ofNat entry.sizeEstimate }

/-- The counters after a removal. -/
def relievedOf (index : BTreeIndex) (entry : IndexEntry) : IndexStats :=
  { totalEntries := index.stats.totalEntries - 1
    totalSizeBytes := index.stats.totalSizeBytes - UInt64.ofNat entry.sizeEstimate }

theorem after_insert_of_some (h : index.listedUnder entry = some key) :
    index.after (.insert docId entry) =
      if index.unique = true ∧ Postings.idsAt index.tree key ≠ [] ∧
          docId ∉ Postings.idsAt index.tree key then index
      else
        { index with
          tree := if index.unique then index.tree.insert key [docId]
            else Postings.push index.tree key docId
          stats := index.chargedWith entry } := by
  obtain ⟨hkey, hsparse⟩ := fromEntry_of_some h
  unfold after insert
  simp only [hkey, hsparse, if_neg Bool.false_ne_true]
  by_cases hfree : index.unique = true ∧ Postings.idsAt index.tree key ≠ [] ∧
      docId ∉ Postings.idsAt index.tree key
  · rw [if_pos hfree, if_pos (by simpa [and_assoc] using hfree)]
  · rw [if_neg hfree, if_neg (by simpa [and_assoc] using hfree)]
    rfl

theorem after_remove_of_some (h : index.listedUnder entry = some key) :
    index.after (.remove docId entry) =
      if docId ∈ Postings.idsAt index.tree key then
        { index with
          tree := Postings.remove index.tree key docId
          stats := index.relievedOf entry }
      else index := by
  obtain ⟨hkey, hsparse⟩ := fromEntry_of_some h
  unfold after remove
  simp only [hkey, hsparse, if_neg Bool.false_ne_true]
  by_cases hmem : docId ∈ Postings.idsAt index.tree key
  · rw [if_pos hmem, if_pos (List.contains_iff_mem.mpr hmem)]
    rfl
  · rw [if_neg hmem, if_neg (fun hin => hmem (List.contains_iff_mem.mp hin))]

/-- A call changes neither the fields nor the options. -/
theorem sameKind_after (index : BTreeIndex) (edit : IndexEdit) :
    SameKind index (index.after edit) := by
  cases edit with
  | insert docId entry =>
    cases hlisted : index.listedUnder entry with
    | none =>
      rw [after_insert_of_none hlisted]
      exact .refl index
    | some key =>
      rw [after_insert_of_some hlisted]
      split
      · exact .refl index
      · exact ⟨rfl, rfl, rfl, rfl⟩
  | remove docId entry =>
    cases hlisted : index.listedUnder entry with
    | none =>
      rw [after_remove_of_none hlisted]
      exact .refl index
    | some key =>
      rw [after_remove_of_some hlisted]
      split
      · exact ⟨rfl, rfl, rfl, rfl⟩
      · exact .refl index

/-! ## What is stored -/

theorem eraseP_congr {α : Type} {p q : α → Bool} {l : List α} (h : ∀ a ∈ l, p a = q a) :
    l.eraseP p = l.eraseP q := by
  induction l with
  | nil => rfl
  | cons a l ih =>
    rw [List.forall_mem_cons] at h
    rw [List.eraseP_cons, List.eraseP_cons, h.1, ih h.2]

/-- The tree lists what is stored, under keys without NaNs. -/
structure Stores (index : BTreeIndex) (posted : List Posting) : Prop where
  lists : ListsInOrder Posting.key Posting.docId index.tree posted
  numbers : ∀ posting ∈ posted, posting.key.hasNaN = false

theorem listedUnder_number {edit : IndexEdit} (h : edit.HasNumberKey index.fields)
    (hlisted : index.listedUnder edit.entry = some key) : key.hasNaN = false :=
  h key (fromEntry_of_some hlisted).1

namespace Stores

variable {posted : List Posting}

theorem new (name : String) (fields : List String) (unique sparse : Bool) :
    (BTreeIndex.new name fields unique sparse).Stores [] where
  lists := .empty
  numbers posting hposting := by cases hposting

variable (h : index.Stores posted)

include h

theorem derivedEq_eq (hkey : key.hasNaN = false) {posting : Posting} (hposting : posting ∈ posted) :
    posting.key.derivedEq key = decide (IndexKey.cmp posting.key key = .eq) := by
  have hown := h.numbers posting hposting
  rw [Bool.eq_iff_iff, IndexKey.derivedEq_iff hown hkey, IndexKey.derivedCmp_eq hown hkey,
    decide_eq_true_iff]

theorem filter_eq (hkey : key.hasNaN = false) :
    (posted.filter fun posting => posting.key.derivedEq key) =
      itemsOf Posting.key IndexKey.cmp posted key :=
  List.filter_congr fun _ hposting => h.derivedEq_eq hkey hposting

theorem idsAt_eq (hkey : key.hasNaN = false) :
    Postings.idsAt index.tree key =
      (posted.filter fun posting => posting.key.derivedEq key).map Posting.docId := by
  rw [h.filter_eq hkey, h.lists.idsAt]

theorem after_insert (hkey : key.hasNaN = false) (hlisted : index.listedUnder entry = some key) :
    (index.after (.insert docId entry)).Stores
      (index.postedAfter posted (.insert docId entry)) := by
  have hnumbers {others : List Posting} (hothers : ∀ posting ∈ others, posting ∈ posted) :
      ∀ posting ∈ others ++ [(⟨key, docId, entry.sizeEstimate⟩ : Posting)],
        posting.key.hasNaN = false := by
    intro posting hposting
    rcases List.mem_append.mp hposting with hposting | hposting
    · exact h.numbers posting (hothers posting hposting)
    · rw [List.mem_singleton.mp hposting]
      exact hkey
  rw [after_insert_of_some hlisted, postedAfter]
  simp only [hlisted]
  rw [h.idsAt_eq hkey]
  cases hunique : index.unique with
  | false =>
    simp only [Bool.false_eq_true, false_and, if_false, Bool.not_false, if_true]
    exact ⟨h.lists.push ⟨key, docId, entry.sizeEstimate⟩, hnumbers fun _ hin => hin⟩
  | true =>
    simp only [true_and, Bool.not_true, Bool.false_eq_true, if_false, if_true,
      List.map_eq_nil_iff, ne_eq]
    split
    · exact h
    · have hfilter : (posted.filter fun posting => !posting.key.derivedEq key) =
          posted.filter fun posting => decide (IndexKey.cmp posting.key key ≠ .eq) := by
        apply List.filter_congr
        intro posting hposting
        rw [h.derivedEq_eq hkey hposting]
        simp
      refine ⟨?_, hnumbers fun posting hposting => (List.mem_filter.mp hposting).1⟩
      rw [hfilter]
      exact h.lists.replace ⟨key, docId, entry.sizeEstimate⟩

theorem after_remove (hkey : key.hasNaN = false) (hlisted : index.listedUnder entry = some key) :
    (index.after (.remove docId entry)).Stores
      (index.postedAfter posted (.remove docId entry)) := by
  have herase : (posted.eraseP fun posting =>
        posting.key.derivedEq key && decide (posting.docId = docId)) =
      posted.eraseP fun posting =>
        decide (IndexKey.cmp posting.key key = .eq) && decide (posting.docId = docId) := by
    apply eraseP_congr
    intro posting hposting
    rw [h.derivedEq_eq hkey hposting]
  rw [after_remove_of_some hlisted, postedAfter]
  simp only [hlisted]
  rw [herase]
  by_cases hmem : docId ∈ Postings.idsAt index.tree key
  · rw [if_pos hmem]
    exact ⟨h.lists.remove key docId, fun posting hposting =>
      h.numbers posting (List.mem_of_mem_eraseP hposting)⟩
  · rw [if_neg hmem, List.eraseP_of_forall_not]
    · exact h
    · intro posting hposting hboth
      rw [Bool.and_eq_true, decide_eq_true_iff, decide_eq_true_iff] at hboth
      apply hmem
      rw [h.lists.idsAt, List.mem_map]
      exact ⟨posting, List.mem_filter.mpr ⟨hposting, decide_eq_true hboth.1⟩, hboth.2⟩

/-- A call keeps the tree in step with what is stored. -/
theorem after {edit : IndexEdit} (hnumber : edit.HasNumberKey index.fields) :
    (index.after edit).Stores (index.postedAfter posted edit) := by
  cases edit with
  | insert docId entry =>
    cases hlisted : index.listedUnder entry with
    | none =>
      rw [after_insert_of_none hlisted, postedAfter]
      simp only [hlisted]
      exact h
    | some key => exact h.after_insert (listedUnder_number hnumber hlisted) hlisted
  | remove docId entry =>
    cases hlisted : index.listedUnder entry with
    | none =>
      rw [after_remove_of_none hlisted, postedAfter]
      simp only [hlisted]
      exact h
    | some key => exact h.after_remove (listedUnder_number hnumber hlisted) hlisted

/-! ## Lookups -/

/-- A lookup by a range finds what is stored within it, in the order of the keys. -/
theorem findRange {start stop : Option IndexKey} (hstart : ∀ s ∈ start, s.hasNaN = false)
    (hstop : ∀ e ∈ stop, e.hasNaN = false) (includeStart includeEnd : Bool) :
    ∃ sorted, StableSort (fun a b : Posting => a.key.derivedCmp b.key)
        (posted.filter fun posting => Within start stop includeStart includeEnd posting.key)
        sorted ∧
      index.findRange start stop includeStart includeEnd = sorted.map Posting.docId := by
  let p := InRange start stop includeStart includeEnd
  have hp {a b : IndexKey} (hab : IndexKey.cmp a b = .eq) : p a = p b := by
    show (_ && _) = (_ && _)
    simp only [Std.TransCmp.congr_left hab]
  have hfilter : (posted.filter fun posting =>
        decide (Within start stop includeStart includeEnd posting.key)) =
      posted.filter fun posting => p posting.key := by
    apply List.filter_congr
    intro posting hposting
    have hown := h.numbers posting hposting
    rw [Bool.eq_iff_iff, decide_eq_true_iff]
    show _ ↔ (_ && _) = true
    rw [Bool.and_eq_true, Within]
    apply and_congr
    · cases start with
      | none => simp
      | some s =>
        have hs := hstart s rfl
        have hswap : s.derivedCmp posting.key = (IndexKey.cmp posting.key s).swap := by
          rw [IndexKey.derivedCmp_eq hs hown]
          exact Std.OrientedCmp.eq_swap
        simp only [Option.mem_def, Option.some.injEq, forall_eq', hswap]
        cases includeStart <;> cases IndexKey.cmp posting.key s <;> decide
    · cases stop with
      | none => simp
      | some e =>
        have he := hstop e rfl
        simp only [Option.mem_def, Option.some.injEq, forall_eq', IndexKey.derivedCmp_eq hown he]
        cases includeEnd <;> cases IndexKey.cmp posting.key e <;> decide
  refine ⟨Postings.selected Posting.key index.tree posted p, ?_, ?_⟩
  · rw [hfilter]
    refine (h.lists.stableSort_selected hp).congr fun a ha b hb => ?_
    exact IndexKey.derivedCmp_eq (h.numbers a (List.mem_filter.mp ha).1)
      (h.numbers b (List.mem_filter.mp hb).1)
  · rw [findRange_eq_select, h.lists.select_eq]

/-- Bounds that cross let no key in. -/
theorem findRange_cross {start stop : Option IndexKey} (hstart : ∀ s ∈ start, s.hasNaN = false)
    (hstop : ∀ e ∈ stop, e.hasNaN = false) {includeStart includeEnd : Bool}
    (hcross : Cross start stop includeStart includeEnd) :
    index.findRange start stop includeStart includeEnd = [] := by
  obtain ⟨sorted, hsorted, hfind⟩ := h.findRange hstart hstop includeStart includeEnd
  have hnone : (posted.filter fun posting =>
      Within start stop includeStart includeEnd posting.key) = [] := by
    rw [List.filter_eq_nil_iff]
    intro posting hposting hwithin
    obtain ⟨s, hs, e, he, hcross⟩ := hcross
    have hown := h.numbers posting hposting
    have hns := hstart s hs
    have hne := hstop e he
    obtain ⟨hlow, hhigh⟩ := of_decide_eq_true hwithin
    have hlow := hlow s hs
    have hhigh := hhigh e he
    rw [IndexKey.derivedCmp_eq hns hown] at hlow
    rw [IndexKey.derivedCmp_eq hown hne] at hhigh
    rw [IndexKey.derivedCmp_eq hns hne] at hcross
    have hlowle : (IndexKey.cmp s posting.key).isLE := by
      cases includeStart with
      | true => exact Ordering.ne_gt_iff_isLE.mp hlow
      | false =>
        rw [show IndexKey.cmp s posting.key = .lt from hlow]
        rfl
    have hhighle : (IndexKey.cmp posting.key e).isLE := by
      cases includeEnd with
      | true => exact Ordering.ne_gt_iff_isLE.mp hhigh
      | false =>
        rw [show IndexKey.cmp posting.key e = .lt from hhigh]
        rfl
    have hle : (IndexKey.cmp s e).isLE := Std.TransCmp.isLE_trans hlowle hhighle
    rcases hcross with hgt | ⟨heq, hboth⟩
    · rw [hgt] at hle
      cases hle
    · cases includeStart with
      | false =>
        have hlt : IndexKey.cmp s posting.key = .lt := hlow
        rw [Std.TransCmp.lt_of_lt_of_isLE hlt hhighle] at heq
        cases heq
      | true =>
        cases includeEnd with
        | true => exact hboth ⟨rfl, rfl⟩
        | false =>
          have hlt : IndexKey.cmp posting.key e = .lt := hhigh
          rw [Std.TransCmp.lt_of_isLE_of_lt hlowle hlt] at heq
          cases heq
  rw [hnone] at hsorted
  rw [hfind, hsorted.perm.eq_nil]
  rfl

theorem findExact (key : IndexKey) :
    index.findExact key = index.findRange (some key) (some key) true true := by
  show Postings.idsAt index.tree key = _
  rw [findRange_eq_select, h.lists.select_tie]
  intro k
  simp only [InRange, if_true]
  cases IndexKey.cmp k key <;> decide

end Stores

end BTreeIndex

/-! ## Runs -/

theorem stores_run {index : BTreeIndex} {posted : List Posting} (h : index.Stores posted)
    {edits : List IndexEdit} (hnumbers : ∀ edit ∈ edits, edit.HasNumberKey index.fields) :
    (edits.foldl IndexHistory.step (index, posted)).1.Stores
      (edits.foldl IndexHistory.step (index, posted)).2 := by
  induction edits generalizing index posted with
  | nil => exact h
  | cons edit edits ih =>
    rw [List.forall_mem_cons] at hnumbers
    apply ih (h.after hnumbers.1)
    rw [(index.sameKind_after edit).fields]
    exact hnumbers.2

open BTreeIndex in
/-- In whatever order documents came and went, a lookup by a range finds what is stored within both
bounds by the order of the keys and, under one key, in the order it came, and nothing where the
bounds cross; a lookup of a key is one of the range from the key to itself; and the order of the
keys is total and agrees with their equality. -/
theorem lookups_meet_specification (name : String) (fields : List String) (unique sparse : Bool)
    {edits : List IndexEdit} (hnumbers : ∀ edit ∈ edits, edit.HasNumberKey fields) :
    let history := edits.foldl IndexHistory.step (BTreeIndex.new name fields unique sparse, [])
    (∀ start stop : Option IndexKey, (∀ s ∈ start, s.hasNaN = false) →
        (∀ e ∈ stop, e.hasNaN = false) → ∀ includeStart includeEnd,
      (∃ sorted, StableSort (fun a b : Posting => a.key.derivedCmp b.key)
          (history.2.filter fun posting =>
            Within start stop includeStart includeEnd posting.key) sorted ∧
        history.1.findRange start stop includeStart includeEnd = sorted.map Posting.docId) ∧
      (Cross start stop includeStart includeEnd →
        history.1.findRange start stop includeStart includeEnd = [])) ∧
    (∀ key, key.hasNaN = false →
      history.1.findExact key = history.1.findRange (some key) (some key) true true) ∧
    TotalPreorderOn IndexKey.derivedCmp (fun key => key.hasNaN = false) ∧
    ∀ a b : IndexKey, a.hasNaN = false → b.hasNaN = false →
      (a.derivedCmp b = .eq ↔ a.derivedEq b = true) := by
  have hstores := stores_run (.new name fields unique sparse) hnumbers
  refine ⟨fun start stop hstart hstop includeStart includeEnd => ⟨?_, fun hcross => ?_⟩,
    fun key _ => hstores.findExact key, IndexKey.derivedCmp_total,
    fun a b ha hb => (IndexKey.derivedEq_iff ha hb).symm⟩
  · exact hstores.findRange hstart hstop includeStart includeEnd
  · exact hstores.findRange_cross hstart hstop hcross

/-- The entry with a number in its field `n`. -/
def numberEntry (n : Int32) : IndexEntry := IndexEntry.new.addField "n" (.int32 n)

theorem numberEntry_key (n : Int32) :
    IndexKey.fromEntry (numberEntry n) ["n"] = .ok { values := [.int n.toInt64] } := rfl

/-- Three numbers, of which one is removed again. -/
def numberEdits : List IndexEdit :=
  [.insert ⟨1⟩ (numberEntry 30), .insert ⟨2⟩ (numberEntry 20), .insert ⟨3⟩ (numberEntry 40),
    .remove ⟨3⟩ (numberEntry 40)]

theorem numberEdits_number : ∀ edit ∈ numberEdits, edit.HasNumberKey ["n"] := by
  have hnumber (edit : IndexEdit) (n : Int32) (h : edit.entry = numberEntry n) :
      edit.HasNumberKey ["n"] := by
    intro key hkey
    rw [h, numberEntry_key, Except.ok.injEq] at hkey
    rw [← hkey]
    rfl
  intro edit hedit
  simp only [numberEdits, List.mem_cons, List.not_mem_nil, or_false] at hedit
  rcases hedit with rfl | rfl | rfl | rfl
  · exact hnumber _ 30 rfl
  · exact hnumber _ 20 rfl
  · exact hnumber _ 40 rfl
  · exact hnumber _ 40 rfl

/-- The documents with a number from 20 on. -/
theorem lookups_meet_specification_numbers :
    let history := numberEdits.foldl IndexHistory.step (BTreeIndex.new "by_n" ["n"] false false, [])
    ∃ sorted, StableSort (fun a b : Posting => a.key.derivedCmp b.key)
        (history.2.filter fun posting =>
          BTreeIndex.Within (some ⟨[.int 20]⟩) none true true posting.key) sorted ∧
      history.1.findRange (some ⟨[.int 20]⟩) none true true = sorted.map Posting.docId := by
  refine ((lookups_meet_specification "by_n" ["n"] false false numberEdits_number).1
    (some ⟨[.int 20]⟩) none ?_ ?_ true true).1
  · intro s hs
    rw [← Option.some.inj hs]
    rfl
  · intro e he
    cases he

end VedDb
