import VedDb.Index.Lookups
import VedDb.Lib.Runs
import VedDb.Lib.Totals

/-!
# The counters of an index

`total_entries` and `total_size_bytes` of `index/btree.rs`.  An insertion adds one and the size of
its entry, also where a unique index puts a document in its own place; a removal takes off the size
of the entry it is given, which need not be the one the document was charged with.
-/

namespace VedDb

open Postings (ListsInOrder)

namespace BTreeIndex

/-- The counters are the number of identifiers in the lists and the sum of what they were charged
with. -/
structure StatsExact (index : BTreeIndex) (posted : List Posting) : Prop where
  entries : index.stats.totalEntries.toNat =
    (index.tree.toList.map fun entry => entry.2.length).sum
  size : index.stats.totalSizeBytes.toNat = (posted.map Posting.size).sum

/-- The call subtracts no more than a counter holds. -/
def NoUnderflow (index : BTreeIndex) : IndexEdit → Prop
  | .insert _ _ => True
  | .remove docId entry => ∀ key, index.listedUnder entry = some key →
      docId ∈ Postings.idsAt index.tree key →
        1 ≤ index.stats.totalEntries.toNat ∧
          entry.sizeEstimate ≤ index.stats.totalSizeBytes.toNat

def idsUnder (posted : List Posting) (key : IndexKey) : List DocumentId :=
  (posted.filter fun posting => posting.key.derivedEq key).map Posting.docId

def postingOf (posted : List Posting) (key : IndexKey) (docId : DocumentId) : Option Posting :=
  posted.find? fun posting => posting.key.derivedEq key && decide (posting.docId = docId)

/-- A unique index is not given a document that it lists already, the sums fit their counters, and
a document is removed with an entry of the size it was charged with. -/
def Matched (index : BTreeIndex) (posted : List Posting) : IndexEdit → Prop
  | .insert docId entry => ∀ key, index.listedUnder entry = some key →
      (index.unique = true → docId ∉ idsUnder posted key) ∧
        ((index.unique = true → idsUnder posted key = []) →
          posted.length + 1 < 2 ^ 64 ∧
            (posted.map Posting.size).sum + entry.sizeEstimate < 2 ^ 64)
  | .remove docId entry => ∀ key, index.listedUnder entry = some key →
      ∀ posting, postingOf posted key docId = some posting →
        posting.size = entry.sizeEstimate

/-! ## The lists -/

variable {index : BTreeIndex} {posted : List Posting} {docId : DocumentId} {entry : IndexEntry}
  {key : IndexKey}

theorem Stores.sum_lengths (h : index.Stores posted) :
    (index.tree.toList.map fun entry => entry.2.length).sum = posted.length := by
  have hselect := h.lists.select_eq (p := fun _ => true)
  have hperm := (h.lists.stableSort_selected (p := fun _ => true) fun _ => rfl).perm
  have hlength := congrArg List.length hselect
  rw [Postings.select, List.filter_eq_self.mpr (fun _ _ => rfl), List.length_flatMap,
    List.length_map, hperm.length_eq, List.filter_eq_self.mpr (fun _ _ => rfl)] at hlength
  exact hlength

theorem Stores.idsAt_eq_idsUnder (h : index.Stores posted) (hkey : key.hasNaN = false) :
    Postings.idsAt index.tree key = idsUnder posted key := h.idsAt_eq hkey

/-- The posting that is taken away, and the others. -/
theorem sum_eraseP {α : Type} {p : α → Bool} (f : α → Nat) {l : List α} {a : α}
    (h : l.find? p = some a) : (l.map f).sum = f a + ((l.eraseP p).map f).sum := by
  induction l with
  | nil => cases h
  | cons b l ih =>
    by_cases hb : p b = true
    · rw [List.find?_cons_of_pos hb, Option.some.injEq] at h
      rw [List.eraseP_cons_of_pos hb, ← h, List.map_cons, List.sum_cons]
    · rw [List.find?_cons_of_neg hb] at h
      rw [List.eraseP_cons_of_neg hb, List.map_cons, List.map_cons, List.sum_cons,
        List.sum_cons, ih h]
      omega

theorem postingOf_eq_none_iff :
    postingOf posted key docId = none ↔ docId ∉ idsUnder posted key := by
  unfold postingOf idsUnder
  rw [List.find?_eq_none, List.mem_map]
  constructor
  · rintro h ⟨posting, hposting, hid⟩
    obtain ⟨hmem, hown⟩ := List.mem_filter.mp hposting
    apply h posting hmem
    rw [hown, decide_eq_true hid]
    rfl
  · intro h posting hmem hboth
    rw [Bool.and_eq_true, decide_eq_true_iff] at hboth
    exact h ⟨posting, List.mem_filter.mpr ⟨hmem, hboth.1⟩, hboth.2⟩

/-! ## One call -/

theorem Stores.statsExact_iff (h : index.Stores posted) :
    index.StatsExact posted ↔ index.stats.totalEntries.toNat = posted.length ∧
      index.stats.totalSizeBytes.toNat = (posted.map Posting.size).sum := by
  constructor
  · intro hexact
    exact ⟨hexact.entries.trans h.sum_lengths, hexact.size⟩
  · intro ⟨hentries, hsize⟩
    exact ⟨hentries.trans h.sum_lengths.symm, hsize⟩

theorem chargedWith_iff (index : BTreeIndex) {entry : IndexEntry}
    (hentry : entry.sizeEstimate < 2 ^ 64) {count sum : Nat}
    (hcount : index.stats.totalEntries.toNat = count)
    (hsum : index.stats.totalSizeBytes.toNat = sum) :
    ((index.chargedWith entry).totalEntries.toNat = count + 1 ∧
        (index.chargedWith entry).totalSizeBytes.toNat = sum + entry.sizeEstimate) ↔
      count + 1 < 2 ^ 64 ∧ sum + entry.sizeEstimate < 2 ^ 64 := by
  have hone : (1 : UInt64).toNat = 1 := rfl
  unfold chargedWith
  dsimp only
  rw [UInt64.toNat_add, UInt64.toNat_add, UInt64.toNat_ofNat_of_lt' hentry, hone, hcount, hsum]
  omega

theorem Stores.statsExact_insert_iff (h : index.Stores posted) (hexact : index.StatsExact posted)
    (hnumber : (IndexEdit.insert docId entry).HasNumberKey index.fields)
    (hentry : entry.sizeEstimate < 2 ^ 64) :
    (index.after (.insert docId entry)).StatsExact
        (index.postedAfter posted (.insert docId entry)) ↔
      index.Matched posted (.insert docId entry) := by
  have hafter := h.after hnumber
  obtain ⟨hcount, hsum⟩ := h.statsExact_iff.mp hexact
  rw [hafter.statsExact_iff, Matched]
  cases hlisted : index.listedUnder entry with
  | none =>
    rw [after_insert_of_none hlisted, postedAfter]
    simp only [hlisted]
    exact iff_of_true ⟨hcount, hsum⟩ fun key hkey => by cases hkey
  | some key =>
    have hkey : key.hasNaN = false := hnumber key (fromEntry_of_some hlisted).1
    have hcharged := index.chargedWith_iff hentry hcount hsum
    simp only [Option.some.injEq, forall_eq']
    rw [after_insert_of_some hlisted, postedAfter, h.idsAt_eq_idsUnder hkey]
    simp only [hlisted]
    have hempty : (posted.filter fun posting => posting.key.derivedEq key) = [] ↔
        idsUnder posted key = [] := List.map_eq_nil_iff.symm
    cases hunique : index.unique with
    | false =>
      simp only [Bool.false_eq_true, false_and, if_false, false_imp_iff, true_and, true_imp_iff,
        Bool.not_false, if_true, List.length_append, List.map_append, List.sum_append]
      exact hcharged
    | true =>
      simp only [true_and, true_imp_iff, Bool.not_true, Bool.false_eq_true, if_false, if_true]
      have hrefused : ((posted.filter fun posting => posting.key.derivedEq key) ≠ [] ∧
            docId ∉ (posted.filter fun posting => posting.key.derivedEq key).map
              Posting.docId) ↔
          idsUnder posted key ≠ [] ∧ docId ∉ idsUnder posted key :=
        and_congr_left' (not_congr hempty)
      by_cases hnone : idsUnder posted key = []
      · -- the key is free
        have hall : (posted.filter fun posting => !posting.key.derivedEq key) = posted := by
          rw [List.filter_eq_self]
          intro posting hposting
          have hnot := List.filter_eq_nil_iff.mp (hempty.mpr hnone) posting hposting
          simpa using hnot
        have hnot : docId ∉ idsUnder posted key := by
          rw [hnone]
          exact List.not_mem_nil
        rw [if_neg (fun hboth => hboth.1 hnone),
          if_neg (fun hboth => (hrefused.mp hboth).1 hnone), hall,
          and_iff_right hnot, List.length_append, List.map_append, List.sum_append]
        simp only [hnone, true_imp_iff]
        exact hcharged
      · by_cases hmem : docId ∈ idsUnder posted key
        · -- the document takes its own place, and is counted again
          rw [if_neg (fun hboth => hboth.2 hmem), if_neg (fun hboth => hboth.2 hmem)]
          refine iff_of_false ?_ fun hmatched => hmatched.1 hmem
          rintro ⟨hentries, -⟩
          have hone : (1 : UInt64).toNat = 1 := rfl
          have hsplit := List.length_eq_length_filter_add (l := posted)
            fun posting => posting.key.derivedEq key
          have hown : 0 < (posted.filter fun posting =>
              posting.key.derivedEq key).length := by
            apply List.length_pos_iff.mpr
            exact fun heq => hnone (hempty.mp heq)
          have hfits := index.stats.totalEntries.toNat_lt
          rw [List.length_append, List.length_singleton] at hentries
          unfold chargedWith at hentries
          dsimp only at hentries
          rw [UInt64.toNat_add, hcount, hone] at hentries
          omega
        · -- another document has the key
          rw [if_pos ⟨hnone, hmem⟩, if_pos (hrefused.mpr ⟨hnone, hmem⟩)]
          exact iff_of_true ⟨hcount, hsum⟩ ⟨hmem, fun heq => absurd heq hnone⟩

theorem length_eraseP {p : Posting → Bool} {posting : Posting} (h : posted.find? p = some posting) :
    posted.length = (posted.eraseP p).length + 1 := by
  have hmem := List.mem_of_find?_eq_some h
  have hpos := List.length_pos_of_mem hmem
  rw [List.length_eraseP_of_mem hmem (List.find?_some h)]
  omega

theorem Stores.statsExact_remove_iff (h : index.Stores posted) (hexact : index.StatsExact posted)
    (hnumber : (IndexEdit.remove docId entry).HasNumberKey index.fields)
    (hentry : entry.sizeEstimate < 2 ^ 64) :
    (index.after (.remove docId entry)).StatsExact
        (index.postedAfter posted (.remove docId entry)) ↔
      index.Matched posted (.remove docId entry) := by
  have hafter := h.after hnumber
  obtain ⟨hcount, hsum⟩ := h.statsExact_iff.mp hexact
  rw [hafter.statsExact_iff, Matched]
  cases hlisted : index.listedUnder entry with
  | none =>
    rw [after_remove_of_none hlisted, postedAfter]
    simp only [hlisted]
    exact iff_of_true ⟨hcount, hsum⟩ fun key hkey => by cases hkey
  | some key =>
    have hkey : key.hasNaN = false := hnumber key (fromEntry_of_some hlisted).1
    simp only [Option.some.injEq, forall_eq']
    rw [after_remove_of_some hlisted, postedAfter, h.idsAt_eq_idsUnder hkey]
    simp only [hlisted]
    cases hposting : postingOf posted key docId with
    | none =>
      have hnot := postingOf_eq_none_iff.mp hposting
      have hsame := List.find?_eq_none.mp hposting
      rw [if_neg hnot, List.eraseP_of_forall_not hsame]
      exact iff_of_true ⟨hcount, hsum⟩ fun posting hsome => by cases hsome
    | some posting =>
      have hmem : docId ∈ idsUnder posted key := by
        by_contra hnot
        rw [postingOf_eq_none_iff.mpr hnot] at hposting
        cases hposting
      have hone : (1 : UInt64).toNat = 1 := rfl
      have hlength := length_eraseP hposting
      have htotal := sum_eraseP Posting.size hposting
      have hfits := index.stats.totalEntries.toNat_lt
      have hroom := index.stats.totalSizeBytes.toNat_lt
      rw [if_pos hmem]
      simp only [Option.some.injEq, forall_eq', relievedOf]
      rw [UInt64.toNat_sub, UInt64.toNat_sub, UInt64.toNat_ofNat_of_lt' hentry, hone, hcount,
        hsum, htotal, hlength]
      omega

theorem Stores.statsExact_after_iff {edit : IndexEdit} (h : index.Stores posted)
    (hexact : index.StatsExact posted) (hnumber : edit.HasNumberKey index.fields)
    (hentry : edit.entry.sizeEstimate < 2 ^ 64) :
    (index.after edit).StatsExact (index.postedAfter posted edit) ↔ index.Matched posted edit := by
  cases edit with
  | insert docId entry => exact h.statsExact_insert_iff hexact hnumber hentry
  | remove docId entry => exact h.statsExact_remove_iff hexact hnumber hentry

/-- A removal of an entry of the right size takes off what the counters hold. -/
theorem Stores.noUnderflow {edit : IndexEdit} (h : index.Stores posted)
    (hexact : index.StatsExact posted) (hnumber : edit.HasNumberKey index.fields)
    (hmatched : index.Matched posted edit) : index.NoUnderflow edit := by
  cases edit with
  | insert docId entry => exact trivial
  | remove docId entry =>
    intro key hlisted hmem
    obtain ⟨hcount, hsum⟩ := h.statsExact_iff.mp hexact
    rw [h.idsAt_eq_idsUnder (listedUnder_number hnumber hlisted)] at hmem
    cases hposting : postingOf posted key docId with
    | none => exact absurd hmem (postingOf_eq_none_iff.mp hposting)
    | some posting =>
      have hsize := hmatched key hlisted posting hposting
      have hlength := length_eraseP hposting
      have htotal := sum_eraseP Posting.size hposting
      omega

end BTreeIndex

/-! ## Runs -/

def IndexHistory.StatsExact (history : IndexHistory) : Prop := history.1.StatsExact history.2

/-- The counters of an index are exact after every call of a run, and nothing is subtracted that a
counter does not hold, exactly when no document is put in its own place, the sums fit the counters
and every document is removed with an entry of the size it was charged with. -/
theorem statistics_exact_iff (name : String) (fields : List String) (unique sparse : Bool)
    {edits : List IndexEdit}
    (hproper : ∀ edit ∈ edits, edit.HasNumberKey fields ∧ edit.entry.sizeEstimate < 2 ^ 64) :
    ((∀ n, IndexHistory.StatsExact ((edits.take n).foldl IndexHistory.step
        (BTreeIndex.new name fields unique sparse, []))) ∧
      MeetsAlong IndexHistory.step (fun history edit => history.1.NoUnderflow edit)
        (BTreeIndex.new name fields unique sparse, []) edits) ↔
    MeetsAlong IndexHistory.step (fun history edit => history.1.Matched history.2 edit)
      (BTreeIndex.new name fields unique sparse, []) edits := by
  let J := fun history : IndexHistory =>
    history.1.Stores history.2 ∧ history.1.fields = fields
  have hJ {history : IndexHistory} {edit : IndexEdit} (hedit : edit ∈ edits) (h : J history) :
      J (history.step edit) := by
    refine ⟨h.1.after (h.2 ▸ (hproper edit hedit).1), ?_⟩
    exact (history.1.sameKind_after edit).fields.trans h.2
  have hstep {history : IndexHistory} {edit : IndexEdit} (hedit : edit ∈ edits) (h : J history)
      (hexact : history.1.StatsExact history.2) :
      (history.step edit).1.StatsExact (history.step edit).2 ↔
        history.1.Matched history.2 edit :=
    h.1.statsExact_after_iff hexact (h.2 ▸ (hproper edit hedit).1) (hproper edit hedit).2
  have hnew : J (BTreeIndex.new name fields unique sparse, []) := ⟨.new _ _ _ _, rfl⟩
  have hzero : (BTreeIndex.new name fields unique sparse).StatsExact [] :=
    hnew.1.statsExact_iff.mpr ⟨rfl, rfl⟩
  have hiff := forall_take_iff_meetsAlong_mem
    IndexHistory.StatsExact J hJ hstep hnew hzero
  constructor
  · intro h
    exact hiff.mp h.1
  · intro h
    refine ⟨hiff.mpr h, ?_⟩
    have hboth := MeetsAlong.imp_mem
      (I := fun history : IndexHistory => J history ∧ history.1.StatsExact history.2)
      (fun hedit hown hmatched => ⟨hJ hedit hown.1, (hstep hedit hown.1 hown.2).mpr hmatched⟩)
      (fun hedit hown hmatched => hown.1.1.noUnderflow hown.2
        (hown.1.2 ▸ (hproper _ hedit).1) hmatched) ⟨hnew, hzero⟩ h
    exact hboth

theorem numberEdits_proper :
    ∀ edit ∈ numberEdits, edit.HasNumberKey ["n"] ∧ edit.entry.sizeEstimate < 2 ^ 64 := by
  have hsize (n : Int32) : (numberEntry n).sizeEstimate < 2 ^ 64 := by
    show (5 : Nat) < 2 ^ 64
    decide
  intro edit hedit
  refine ⟨numberEdits_number edit hedit, ?_⟩
  simp only [numberEdits, List.mem_cons, List.not_mem_nil, or_false] at hedit
  rcases hedit with rfl | rfl | rfl | rfl
  · exact hsize 30
  · exact hsize 20
  · exact hsize 40
  · exact hsize 40

/-- Of three numbers one is removed with the entry it was inserted with. -/
theorem statistics_exact_numbers :
    IndexHistory.StatsExact (numberEdits.foldl IndexHistory.step
      (BTreeIndex.new "by_n" ["n"] false false, [])) := by
  refine ((statistics_exact_iff "by_n" ["n"] false false numberEdits_proper).mpr ?_).1 4
  refine ⟨fun key _ => ⟨fun hunique => ?_, fun _ => ?_⟩,
    fun key _ => ⟨fun hunique => ?_, fun _ => ?_⟩, fun key _ => ⟨fun hunique => ?_, fun _ => ?_⟩,
    fun key hkey posting hposting => ?_, trivial⟩
  · cases hunique
  · show (0 : Nat) + 1 < 2 ^ 64 ∧ 0 + 5 < 2 ^ 64
    decide
  · cases hunique
  · show (1 : Nat) + 1 < 2 ^ 64 ∧ 5 + 5 < 2 ^ 64
    decide
  · cases hunique
  · show (2 : Nat) + 1 < 2 ^ 64 ∧ 10 + 5 < 2 ^ 64
    decide
  · rw [← Option.some.inj hkey] at hposting
    rw [← Option.some.inj hposting]

/-- A number that is inserted as an `Int32` and removed as an `Int64`. -/
def widenedEdits : List IndexEdit :=
  [.insert ⟨1⟩ (numberEntry 7), .remove ⟨1⟩ (IndexEntry.new.addField "n" (.int64 7))]

/-- Both entries have one key; the second one is four bytes larger, and the size wraps round. -/
theorem statistics_wrap :
    ¬((∀ n, IndexHistory.StatsExact ((widenedEdits.take n).foldl IndexHistory.step
        (BTreeIndex.new "by_n" ["n"] false false, []))) ∧
      MeetsAlong IndexHistory.step (fun history edit => history.1.NoUnderflow edit)
        (BTreeIndex.new "by_n" ["n"] false false, []) widenedEdits) := by
  rintro ⟨hexact, -⟩
  have hsize := (hexact 2).size
  have hwrapped : (widenedEdits.foldl IndexHistory.step
      (BTreeIndex.new "by_n" ["n"] false false, [])).1.stats.totalSizeBytes =
        18446744073709551612 := by decide +kernel
  have hnone : (widenedEdits.foldl IndexHistory.step
      (BTreeIndex.new "by_n" ["n"] false false, [])).2 = [] := by rfl
  rw [show widenedEdits.take 2 = widenedEdits from rfl, hwrapped, hnone] at hsize
  revert hsize
  decide +kernel

end VedDb
