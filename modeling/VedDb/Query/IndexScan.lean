import Mathlib.Data.List.Dedup
import VedDb.Index.Contents
import VedDb.Query.Filter
import VedDb.Schema

/-!
# Choosing an index

`IndexSelector` of `query/index_selector.rs` and `QueryPlanner` of `query/planner.rs`, as far as
they name the index of a scan.  A planner that is made by `QueryPlanner::new` knows no indexes and
names none.
-/

namespace VedDb

/-! ## Candidates -/

/-- The index types that the selector tells apart. -/
inductive CandidateType where
  | single (field : String)
  | compound (fields : List String)
  | text (field : String)
deriving DecidableEq

/-- `IndexCandidate`, without the score that only `select_index` looks at. -/
structure IndexCandidate where
  name : String
  indexType : CandidateType
  unique : Bool
  sparse : Bool
deriving DecidableEq

namespace IndexCandidate

/-- `from_definition`; a geospatial index counts as one on a single field. -/
def fromDefinition (definition : IndexDefinition) : IndexCandidate :=
  { name := definition.name
    indexType := match definition.indexType with
      | .single field => .single field
      | .compound fields => .compound fields
      | .text field => .text field
      | .geospatial field => .single field
    unique := definition.unique
    sparse := definition.sparse }

def canUseForField (candidate : IndexCandidate) (field : String) : Bool :=
  match candidate.indexType with
  | .single indexField => indexField = field
  | .compound fields => fields.contains field
  | .text indexField => indexField = field

end IndexCandidate

structure IndexSelector where
  availableIndexes : List IndexCandidate

namespace IndexSelector

def new : IndexSelector := { availableIndexes := [] }

def withIndexes (indexes : List IndexDefinition) : IndexSelector :=
  { availableIndexes := indexes.map IndexCandidate.fromDefinition }

/-- `find_indexes_for_field`: the candidates with those for the field, one for each name. -/
def findIndexesForField (selector : IndexSelector) (field : String)
    (candidates : List IndexCandidate) : List IndexCandidate :=
  selector.availableIndexes.foldl
    (fun candidates index =>
      if index.canUseForField field && !candidates.any (·.name = index.name) then
        candidates ++ [index]
      else candidates)
    candidates

end IndexSelector

/-! ## Plans -/

/-- The order in which a hash map gives its keys. -/
structure HashOrder where
  arrange : List String → List String
  perm : ∀ keys, (arrange keys).Perm keys

def HashOrder.given : HashOrder := { arrange := id, perm := fun _ => .refl _ }

structure QueryPlanner where
  indexSelector : IndexSelector

namespace QueryPlanner

def new : QueryPlanner := { indexSelector := .new }

def getFilterField : Filter → Option String
  | .eq field _ | .ne field _ | .gt field _ | .gte field _ | .lt field _ | .lte field _
  | .inValues field _ | .nin field _ | .fieldExists field _ | .regex field _ _ => some field
  | _ => none

variable (planner : QueryPlanner)

def indexForField (field : String) : Option String :=
  ((planner.indexSelector.findIndexesForField field []).head?).map IndexCandidate.name

/-- `analyze_filter_for_index`.  The fields of a conjunction come in the order of a hash map. -/
def analyzeFilterForIndex (order : HashOrder) : Filter → Option String
  | .eq field _ | .gt field _ | .gte field _ | .lt field _ | .lte field _ | .inValues field _ =>
    planner.indexForField field
  | .and filters =>
    (order.arrange (filters.filterMap getFilterField).dedup).findSome? planner.indexForField
  | _ => none

/-- A planner that knows no indexes names none. -/
theorem analyzeFilterForIndex_new (order : HashOrder) (filter : Filter) :
    new.analyzeFilterForIndex order filter = none := by
  have hnone (field : String) : new.indexForField field = none := rfl
  cases filter with
  | and filters => exact List.findSome?_eq_none_iff.mpr fun field _ => hnone field
  | _ => rfl

end QueryPlanner

/-!
## Index scans

`QueryExecutor::execute_index_scan` of `query/executor.rs`.  It looks one comparison of the filter
up in the index that the planner names, and keeps those documents found there that match the whole
filter; a document that the filter cannot be decided on is left out.  Where the planner names no
index it is a collection scan.
-/

/-! ## The executor -/

structure QueryExecutor where
  planner : QueryPlanner
  indexManager : Option IndexManager

namespace QueryExecutor

def new : QueryExecutor := { planner := .new, indexManager := none }

def setIndexManager (executor : QueryExecutor) (manager : IndexManager) : QueryExecutor :=
  { executor with indexManager := some manager }

/-- An executor as its callers can make one: `new`, then any calls of `set_index_manager`.  Nothing
sets the planner, which is private. -/
def built (managers : List IndexManager) : QueryExecutor :=
  managers.foldl setIndexManager new

end QueryExecutor

inductive ScanError where
  | matching (error : QueryExecutionError)
  | indexError (context : String) (error : IndexError)

/-! ## Comparisons -/

/-- The comparisons that are looked up in an index. -/
inductive Comparison where
  | eq
  | gt
  | gte
  | lt
  | lte
deriving DecidableEq

/-- The comparison of a filter on a single field. -/
def Filter.comparison : Filter → Option (Comparison × Value)
  | .eq _ value => some (.eq, value)
  | .gt _ value => some (.gt, value)
  | .gte _ value => some (.gte, value)
  | .lt _ value => some (.lt, value)
  | .lte _ value => some (.lte, value)
  | _ => none

/-- The comparison that is looked up: that of the filter, or the first one of a conjunction. -/
def Filter.lookedUp : Filter → Option (Comparison × Value)
  | .and filters => filters.findSome? Filter.comparison
  | filter => filter.comparison

namespace QueryExecutor

/-! ## Looking up -/

/-- One of the calls of `get_doc_ids_from_index`, with the context of its error. -/
def lookUp (manager : IndexManager) (indexName : String) (key : IndexKey) :
    Comparison → String × Except IndexError (List DocumentId)
  | .eq => ("Index lookup error: ", manager.findWithIndex indexName key)
  | .gt => ("Index range error: ", manager.findRangeWithIndex indexName (some key) none false false)
  | .gte => ("Index range error: ", manager.findRangeWithIndex indexName (some key) none true false)
  | .lt => ("Index range error: ", manager.findRangeWithIndex indexName none (some key) false false)
  | .lte => ("Index range error: ", manager.findRangeWithIndex indexName none (some key) false true)

/-- `get_doc_ids_from_index`: nothing, when there is no comparison. -/
def getDocIdsFromIndex (manager : IndexManager) (indexName : String) (filter : Filter) :
    Except ScanError (List DocumentId) :=
  match filter.lookedUp with
  | none => .ok []
  | some (comparison, value) =>
    match IndexKey.fromValues [value] with
    | .error error => .error (.indexError "Index key error: " error)
    | .ok key =>
      match lookUp manager indexName key comparison with
      | (context, .error error) => .error (.indexError context error)
      | (_, .ok ids) => .ok ids

/-! ## Scanning -/

variable (regex : RegexCrate)

def executeCollectionScan (filter : Filter) (documents : List Document) :
    Except ScanError (List Document) :=
  match VedDb.executeCollectionScan regex filter documents with
  | .error error => .error (.matching error)
  | .ok results => .ok results

/-- The map from identifiers to documents, of which the last one of an identifier is kept. -/
def docMap (documents : List Document) (id : DocumentId) : Option Document :=
  documents.reverse.find? fun doc => doc.id = id

/-- `matches_filter(..).unwrap_or(false)`. -/
def surelyMatches (filter : Filter) (doc : Document) : Bool :=
  match matchesFilter regex doc filter with
  | .error _ => false
  | .ok found => found

def executeIndexScan (order : HashOrder) (executor : QueryExecutor) (filter : Filter)
    (documents : List Document) : Except ScanError (List Document) :=
  match executor.indexManager with
  | none => executeCollectionScan regex filter documents
  | some manager =>
    match executor.planner.analyzeFilterForIndex order filter with
    | none => executeCollectionScan regex filter documents
    | some indexName =>
      match getDocIdsFromIndex manager indexName filter with
      | .error error => .error error
      | .ok ids => .ok ((ids.filterMap (docMap documents)).filter (surelyMatches regex filter))

variable {regex} {filter : Filter}

theorem surelyMatches_iff {doc : Document} :
    surelyMatches regex filter doc = true ↔ matchesFilter regex doc filter = .ok true := by
  rw [surelyMatches]
  cases matchesFilter regex doc filter with
  | error error => simp
  | ok found => simp

/-! ## The two scans -/

theorem foldl_setIndexManager_planner (managers : List IndexManager) (executor : QueryExecutor) :
    (managers.foldl setIndexManager executor).planner = executor.planner := by
  induction managers generalizing executor with
  | nil => rfl
  | cons manager managers ih => exact ih (executor.setIndexManager manager)

theorem built_names_no_index (managers : List IndexManager) (order : HashOrder) (filter : Filter) :
    (built managers).planner.analyzeFilterForIndex order filter = none := by
  have hplanner : (built managers).planner = .new := foldl_setIndexManager_planner managers new
  rw [hplanner]
  exact QueryPlanner.analyzeFilterForIndex_new order filter

/-- Whatever index managers an executor was given, an index scan answers as a collection scan: with
the same documents, or the same error. -/
theorem executeIndexScan_agrees (regex : RegexCrate) (order : HashOrder)
    (managers : List IndexManager) (filter : Filter) (documents : List Document) :
    executeIndexScan regex order (built managers) filter documents =
      executeCollectionScan regex filter documents := by
  rw [executeIndexScan]
  cases (built managers).indexManager with
  | none => rfl
  | some manager =>
    dsimp only
    rw [built_names_no_index]

end QueryExecutor

end VedDb
