import VedDb.Query.IndexScan
import VedDb.Query.Sorting

/-!
# Executing a query

`QueryExecutor::execute` of `query/executor.rs`: the documents that match the filter, sorted, a page
of them, and of those the fields that the projection asks for.
-/

namespace VedDb

open Comparator

/-! ## Queries -/

inductive ProjectionType where
  | inclusion
  | exclusion
deriving DecidableEq

structure Projection where
  fields : Std.ExtTreeMap String ProjectionType

namespace Projection

variable (projection : Projection)

def isInclusion : Bool := projection.fields.values.any (· = .inclusion)

def shouldInclude (field : String) : Bool :=
  if projection.isInclusion then
    field = "_id" || projection.fields[field]? = some .inclusion
  else projection.fields[field]? ≠ some .exclusion

end Projection

structure Query where
  filter : Filter
  projection : Option Projection
  sort : Option SortSpecification
  skip : Option UInt64
  limit : Option UInt64

def Document.withId (now : DateTime) (id : DocumentId) : Document :=
  { id, fields := ∅, metadata := .default now }

namespace QueryExecutor

/-! ## After the scan -/

/-- `apply_sort`; nothing where the sort panics. -/
def applySort (sortBy : SortBy Document) (documents : List Document) (sort : SortSpecification) :
    Option (List Document) :=
  sortBy.sort (compareBy sort) documents

/-- The loop of `apply_projection` over the fields of a document.  Each insertion reads the
clock. -/
def insertIncluded (clock : Nat → DateTime) (projection : Projection) :
    List (String × Value) → Nat → Document → Document
  | [], _, newDoc => newDoc
  | (field, value) :: fields, reads, newDoc =>
    if projection.shouldInclude field then
      insertIncluded clock projection fields (reads + 1) (newDoc.insert (clock reads) field value)
    else insertIncluded clock projection fields reads newDoc

def projectDocument (clock : Nat → DateTime) (projection : Projection) (doc : Document) :
    Document :=
  insertIncluded clock projection doc.fields.toList 1 (.withId (clock 0) doc.id)

/-- `apply_projection`, with the instants that are read for each document. -/
def applyProjection (clock : Nat → Nat → DateTime) (documents : List Document)
    (projection : Projection) : List Document :=
  documents.mapIdx fun i doc => projectDocument (clock i) projection doc

def applySkip (documents : List Document) (skip : UInt64) : List Document :=
  if skip > 0 then documents.drop skip.toNat else documents

/-- `apply_post_processing`; nothing where the sort panics. -/
def applyPostProcessing (sortBy : SortBy Document) (clock : Nat → Nat → DateTime) (query : Query)
    (documents : List Document) : Option (List Document) :=
  (query.sort.elim (some documents) (applySort sortBy documents)).map fun documents =>
    let documents := query.skip.elim documents (applySkip documents)
    let documents := query.limit.elim documents fun limit => documents.take limit.toNat
    query.projection.elim documents (applyProjection clock documents)

variable (regex : RegexCrate) (sortBy : SortBy Document)

/-- `execute`; nothing where the sort panics.  The planner goes through a hash map, and so does an
index scan. -/
def execute (planOrder scanOrder : HashOrder) (clock : Nat → Nat → DateTime)
    (executor : QueryExecutor) (documents : List Document) (query : Query) :
    Option (Except ScanError (List Document)) :=
  let useIndex := executor.planner.analyzeFilterForIndex planOrder query.filter
  let results :=
    if useIndex.isSome then executeIndexScan regex scanOrder executor query.filter documents
    else executeCollectionScan regex query.filter documents
  match results with
  | .error error => some (.error error)
  | .ok results => (applyPostProcessing sortBy clock query results).map .ok

/-! ## Projections -/

@[simp] theorem insertIncluded_id (clock : Nat → DateTime) (projection : Projection)
    (fields : List (String × Value)) (reads : Nat) (newDoc : Document) :
    (insertIncluded clock projection fields reads newDoc).id = newDoc.id := by
  induction fields generalizing reads newDoc with
  | nil => rfl
  | cons entry fields ih =>
    rw [insertIncluded]
    split
    · rw [ih, Document.insert_id]
    · exact ih reads newDoc

theorem insertIncluded_fields (clock : Nat → DateTime) (projection : Projection)
    (fields : List (String × Value)) (reads : Nat) (newDoc : Document) :
    (insertIncluded clock projection fields reads newDoc).fields =
      newDoc.fields.insertMany (fields.filter fun entry => projection.shouldInclude entry.1) := by
  induction fields generalizing reads newDoc with
  | nil => rw [insertIncluded, List.filter_nil, Std.ExtTreeMap.insertMany_nil]
  | cons entry fields ih =>
    obtain ⟨field, value⟩ := entry
    rw [insertIncluded]
    split
    next hkeep =>
      rw [ih, List.filter_cons_of_pos (by exact hkeep), Std.ExtTreeMap.insertMany_cons,
        Document.insert_fields]
    next hdrop => rw [ih, List.filter_cons_of_neg (by exact hdrop)]

@[simp] theorem projectDocument_id (clock : Nat → DateTime) (projection : Projection)
    (doc : Document) : (projectDocument clock projection doc).id = doc.id := by
  rw [projectDocument, insertIncluded_id, Document.withId]

theorem projectDocument_fields (clock : Nat → DateTime) (projection : Projection)
    (doc : Document) : (projectDocument clock projection doc).fields =
      doc.fields.filter fun field _ => projection.shouldInclude field := by
  rw [projectDocument, insertIncluded_fields, Document.withId]
  have hlist := Std.ExtTreeMap.toList_filter (t := doc.fields)
    (f := fun field _ => projection.shouldInclude field)
  rw [← hlist, insertMany_toList]

/-! ## What a query asks for -/

def Projects (projection : Option Projection) (documents results : List Document) : Prop :=
  match projection with
  | none => results = documents
  | some projection =>
    results.map (fun doc => (doc.id, doc.fields)) = documents.map fun doc =>
      (doc.id, doc.fields.filter fun field _ => projection.shouldInclude field)

def Comparable (sort : SortSpecification) (documents : List Document) : Prop :=
  ∀ a ∈ documents, ∀ b ∈ documents, ∀ field ∈ sort.fields, ∀ v w,
    a.getByPath field.1 = some v → b.getByPath field.1 = some w → v.OneKind w

/-- The documents in the order of the sort, those that tie as they stood, where the values that are
compared are of one kind.  In any case they are the same documents. -/
def Sorts (sort : Option SortSpecification) (documents sorted : List Document) : Prop :=
  match sort with
  | none => sorted = documents
  | some sort =>
    sorted.Perm documents ∧ (Comparable sort documents →
      StableSort (orderBy (BeforeBy (SortKey.Before · Value.Below) (sort.fields.map sortKey)))
        documents sorted)

def page (query : Query) (documents : List Document) : List Document :=
  let rest := documents.drop (query.skip.elim 0 UInt64.toNat)
  query.limit.elim rest fun limit => rest.take limit.toNat

/-! ## Running a query -/

variable {regex : RegexCrate} {sortBy : SortBy Document} {clock : Nat → Nat → DateTime}
  {documents : List Document} {query : Query}

theorem projects_applyProjection (clock : Nat → Nat → DateTime) (projection : Option Projection)
    (documents : List Document) :
    Projects projection documents
      (projection.elim documents (applyProjection clock documents)) := by
  cases projection with
  | none => rfl
  | some projection =>
    refine List.ext_getElem? fun i => ?_
    rw [Option.elim, applyProjection, List.getElem?_map, List.getElem?_mapIdx, List.getElem?_map]
    cases documents[i]? with
    | none => rfl
    | some doc => simp only [Option.map_some, projectDocument_id, projectDocument_fields]

theorem sorts_applySort {sort : Option SortSpecification} {sorted : List Document}
    (h : sort.elim (some documents) (applySort sortBy documents) = some sorted) :
    Sorts sort documents sorted := by
  cases sort with
  | none => exact (Option.some.inj h).symm
  | some sort =>
    refine ⟨sortBy.perm h, fun hkind => ?_⟩
    have hpre := compareBy_totalPreorderOn (S := (· ∈ documents))
      fun a b ha hb field hfield => hkind a ha b hb field hfield
    have horder : compareBy sort =
        orderBy (BeforeBy (SortKey.Before · Value.Below) (sort.fields.map sortKey)) := by
      rw [compareBy_eq, compareBy_eq_orderBy compareValues_orders]
    obtain ⟨own, hown, hstable⟩ := sortBy.stable hpre
    rw [← horder, Option.some.inj (h.symm.trans hown)]
    exact hstable

theorem applyPostProcessing_eq : applyPostProcessing sortBy clock query documents =
    (query.sort.elim (some documents) (applySort sortBy documents)).map fun sorted =>
      query.projection.elim (page query sorted) (applyProjection clock (page query sorted)) := by
  have hskip (documents : List Document) : query.skip.elim documents (applySkip documents) =
      documents.drop (query.skip.elim 0 UInt64.toNat) := by
    cases query.skip with
    | none => rfl
    | some skip =>
      rw [Option.elim, applySkip]
      split
      next hpos => rfl
      next hzero =>
        have hskip : skip = 0 := by simpa using hzero
        rw [hskip]
        rfl
  simp only [applyPostProcessing, hskip, page]

/-- A scan stops at the first document that the filter cannot be decided on. -/
theorem executeCollectionScan_of_error {filter : Filter} {before after : List Document}
    {doc : Document} {e : QueryExecutionError}
    (hbefore : ∀ d ∈ before, ∃ found, matchesFilter regex d filter = .ok found)
    (hdoc : matchesFilter regex doc filter = .error e) :
    VedDb.executeCollectionScan regex filter (before ++ doc :: after) = .error e := by
  induction before with
  | nil => rw [List.nil_append, VedDb.executeCollectionScan, hdoc]
  | cons first before ih =>
    obtain ⟨⟨found, hfound⟩, hrest⟩ := List.forall_mem_cons.mp hbefore
    rw [List.cons_append, VedDb.executeCollectionScan, hfound, ih hrest]
    rfl

theorem decided_or_error (regex : RegexCrate) (filter : Filter) (documents : List Document) :
    (∀ doc ∈ documents, ∃ found, matchesFilter regex doc filter = .ok found) ∨
      ∃ before doc after e, documents = before ++ doc :: after ∧
        (∀ d ∈ before, ∃ found, matchesFilter regex d filter = .ok found) ∧
        matchesFilter regex doc filter = .error e := by
  induction documents with
  | nil => exact .inl (List.forall_mem_nil _)
  | cons doc documents ih =>
    cases hdoc : matchesFilter regex doc filter with
    | error e => exact .inr ⟨[], doc, documents, e, rfl, List.forall_mem_nil _, hdoc⟩
    | ok found =>
      rcases ih with hall | ⟨before, own, after, e, rfl, hbefore, hown⟩
      · exact .inl (List.forall_mem_cons.mpr ⟨⟨found, hdoc⟩, hall⟩)
      · exact .inr ⟨doc :: before, own, after, e, rfl,
          List.forall_mem_cons.mpr ⟨⟨found, hdoc⟩, hbefore⟩, hown⟩

/-- The run fails with the first error of the filter, or it gives the documents that match, sorted,
a page of them, projected. -/
def Answers (regex : RegexCrate) (documents : List Document) (query : Query)
    (outcome : Option (Except ScanError (List Document))) : Prop :=
  (∃ before doc after e, documents = before ++ doc :: after ∧
    (∀ d ∈ before, ∃ found, matchesFilter regex d query.filter = .ok found) ∧
    matchesFilter regex doc query.filter = .error e ∧ outcome = some (.error (.matching e))) ∨
  ∃ sorted results,
    (∀ doc ∈ documents, ∃ found, matchesFilter regex doc query.filter = .ok found) ∧
    outcome = some (.ok results) ∧
    Sorts query.sort (documents.filter (surelyMatches regex query.filter)) sorted ∧
    Projects query.projection (page query sorted) results

def Unconfused (sort : SortSpecification) (documents : List Document) : Prop :=
  ∀ a b c, a ∈ documents → b ∈ documents → c ∈ documents →
    ¬Confuses Value.Below Value.Confuses (sort.fields.map sortKey) a b c

theorem unconfused_iff {sort : SortSpecification} :
    Unconfused sort documents ↔ TotalPreorderOn (compareBy sort) (· ∈ documents) := by
  rw [compareBy_eq, totalPreorderOn_compareBy_iff compareValues_orders]
  rfl

theorem execute_of_decided {planOrder scanOrder : HashOrder} {executor : QueryExecutor}
    (h : executor.planner.analyzeFilterForIndex planOrder query.filter = none)
    (hall : ∀ doc ∈ documents, ∃ found, matchesFilter regex doc query.filter = .ok found) :
    execute regex sortBy planOrder scanOrder clock executor documents query =
      (applyPostProcessing sortBy clock query
        (documents.filter (surelyMatches regex query.filter))).map .ok := by
  have hscan : VedDb.executeCollectionScan regex query.filter documents =
      .ok (documents.filter (surelyMatches regex query.filter)) :=
    executeCollectionScan_eq_filter fun doc hdoc => by
      obtain ⟨found, hfound⟩ := hall doc hdoc
      rw [surelyMatches, hfound]
  rw [execute, h, Option.isSome_none, if_neg Bool.false_ne_true, executeCollectionScan, hscan]

/-- A run whose sort does not panic answers. -/
theorem answers_of_sorts {sorted : List Document}
    (hall : ∀ doc ∈ documents, ∃ found, matchesFilter regex doc query.filter = .ok found)
    (hsort : query.sort.elim (some (documents.filter (surelyMatches regex query.filter)))
      (applySort sortBy (documents.filter (surelyMatches regex query.filter))) = some sorted) :
    Answers regex documents query ((applyPostProcessing sortBy clock query
      (documents.filter (surelyMatches regex query.filter))).map .ok) := by
  refine .inr ⟨sorted, _, hall, ?_, sorts_applySort hsort,
    projects_applyProjection clock query.projection _⟩
  rw [applyPostProcessing_eq, hsort]
  rfl

/-- A query for which no index is selected answers, whatever sorts the documents, exactly when the
filter fails on one of them, or no document that matches confuses the sort. -/
theorem execute_answers_iff (planOrder scanOrder : HashOrder) (regex : RegexCrate)
    (clock : Nat → Nat → DateTime) (executor : QueryExecutor) (documents : List Document)
    (query : Query)
    (h : executor.planner.analyzeFilterForIndex planOrder query.filter = none) :
    (∀ sortBy, Answers regex documents query
        (execute regex sortBy planOrder scanOrder clock executor documents query)) ↔
      (∃ doc ∈ documents, ∃ e, matchesFilter regex doc query.filter = .error e) ∨
        ∀ sort, query.sort = some sort →
          Unconfused sort (documents.filter (surelyMatches regex query.filter)) := by
  rcases decided_or_error regex query.filter documents with hall | hfirst
  · have hnone : ¬∃ doc ∈ documents, ∃ e, matchesFilter regex doc query.filter = .error e := by
      rintro ⟨doc, hdoc, e, he⟩
      obtain ⟨found, hfound⟩ := hall doc hdoc
      cases he.symm.trans hfound
    simp only [or_iff_right hnone, unconfused_iff, execute_of_decided h hall]
    constructor
    · intro hanswers sort hsort
      -- The strict sort has only run through where the comparator is a total preorder.
      rcases hanswers (.strict Document) with ⟨_, doc, _, e, rfl, _, he, _⟩ |
        ⟨_, _, _, houtcome, _, _⟩
      · exact absurd ⟨doc, List.mem_append_right _ List.mem_cons_self, e, he⟩ hnone
      · rw [applyPostProcessing_eq, hsort] at houtcome
        obtain ⟨_, hpost, _⟩ := Option.map_eq_some_iff.mp houtcome
        obtain ⟨_, hsorted, _⟩ := Option.map_eq_some_iff.mp hpost
        exact (SortBy.strict_eq_some_iff.mp hsorted).1
    · intro hpre sortBy
      cases hsort : query.sort with
      | none => exact answers_of_sorts hall (by rw [hsort]; rfl)
      | some sort =>
        obtain ⟨sorted, hsorted, _⟩ := sortBy.stable (hpre sort hsort)
        exact answers_of_sorts hall (by rw [hsort]; exact hsorted)
  · obtain ⟨before, doc, after, e, rfl, hbefore, hdoc⟩ := hfirst
    refine iff_of_true (fun sortBy => .inl ⟨before, doc, after, e, rfl, hbefore, hdoc, ?_⟩)
      (.inl ⟨doc, List.mem_append_right _ List.mem_cons_self, e, hdoc⟩)
    rw [execute, h, Option.isSome_none, if_neg Bool.false_ne_true, executeCollectionScan,
      executeCollectionScan_of_error hbefore hdoc]

def upwards : Query :=
  { filter := .empty, projection := none, skip := none, limit := none
    sort := some { fields := [("n", .ascending)] } }

theorem execute_answers_iff_upwards : Answers { compile := fun _ => .error "" }
    [.holding (.int32 2), .holding (.int32 1)] upwards
    (execute { compile := fun _ => .error "" } (.merge Document) .given .given (fun _ _ => 0) .new
      [.holding (.int32 2), .holding (.int32 1)] upwards) := by
  refine (execute_answers_iff .given .given { compile := fun _ => .error "" } (fun _ _ => 0) .new
    [.holding (.int32 2), .holding (.int32 1)] upwards rfl).mpr
    (.inr fun sort hsort => ?_) (.merge Document)
  cases hsort
  refine unconfused_iff.mpr (compareBy_totalPreorderOn ?_)
  have hint : ∀ doc ∈ [Document.holding (.int32 2), .holding (.int32 1)],
      ∃ i, doc = .holding (.int32 i) := by
    intro doc hdoc
    rcases List.mem_pair.mp hdoc with rfl | rfl
    · exact ⟨2, rfl⟩
    · exact ⟨1, rfl⟩
  intro a b ha hb field hfield v w hv hw
  obtain ⟨i, rfl⟩ := hint a ha
  obtain ⟨j, rfl⟩ := hint b hb
  rw [List.mem_singleton.mp hfield, Document.holding_getByPath] at hv hw
  cases hv
  cases hw
  trivial

/-- Downwards from 21 to 1, with a text in the place of 20. -/
def textBelowFirst : List Document :=
  .holding (.int32 21) :: .holding (.string "a") ::
    (List.range 19).map fun i => .holding (.int32 (.ofNat (19 - i)))

/-- The text ties with the numbers on both sides of it, and a sort that notices this panics. -/
theorem execute_panics :
    execute { compile := fun _ => .error "" } (.strict Document) .given .given (fun _ _ => 0) .new
        textBelowFirst upwards = none ∧
      ¬Answers { compile := fun _ => .error "" } textBelowFirst upwards
        (execute { compile := fun _ => .error "" } (.strict Document) .given .given
          (fun _ _ => 0) .new textBelowFirst upwards) := by
  have hpanics : execute { compile := fun _ => .error "" } (.strict Document) .given .given
      (fun _ _ => 0) .new textBelowFirst upwards = none := by
    have hmatched : textBelowFirst.filter
        (surelyMatches { compile := fun _ => .error "" } upwards.filter) = textBelowFirst :=
      List.filter_eq_self.mpr fun _ _ => rfl
    rw [execute_of_decided rfl fun _ _ => ⟨true, rfl⟩, hmatched, applyPostProcessing_eq]
    have hnone : (SortBy.strict Document).sort (compareBy { fields := [("n", .ascending)] })
        textBelowFirst = none := by
      refine SortBy.strict_eq_none (@not_preorder_of_text _ 19 21 "a" (by decide) ?_ ?_ ?_)
      · exact .tail _ (.tail _ (.head _))
      · exact .head _
      · exact .tail _ (.head _)
    rw [upwards, Option.elim, applySort, hnone]
    rfl
  refine ⟨hpanics, fun h => ?_⟩
  rw [hpanics] at h
  rcases h with ⟨_, _, _, _, _, _, _, hnone⟩ | ⟨_, _, _, hnone, _⟩ <;> cases hnone

end QueryExecutor

end VedDb
