import VedDb.Protocol.FieldQueries
import VedDb.Query.Queries
import VedDb.Storage.Refinement

/-!
# The Query command and the query engine

A query request has the parts of a query: the command looks at the filter alone, and scans beside
the engine.  The engine does the same for the documents that match, and then sorts them, takes a
page of them and projects.
-/

namespace VedDb

open Comparator

namespace QueryRequest

def member (name : String) (part : Option JsonValue) : List (String × JsonValue) :=
  part.toList.map fun value => (name, value)

/-- The parts of the request as the parser takes them. -/
def toJson (request : QueryRequest) : JsonValue :=
  .object
    (member "filter" (request.filter.map Value.toPlainJson) ++
      member "limit" (request.limit.map fun n => .number (.posInt n)) ++
      member "projection" (request.projection.map Value.toPlainJson) ++
      member "skip" (request.skip.map fun n => .number (.posInt n)) ++
      member "sort" (request.sort.map Value.toPlainJson))

theorem lookup_member (name key : String) (part : Option JsonValue) :
    (member name part).lookup key = if key = name then part else none := by
  cases part with
  | none => exact (ite_self _).symm
  | some value =>
    show [(name, value)].lookup key = _
    by_cases hkey : key = name
    · rw [if_pos hkey, hkey, List.lookup_cons_self]
    · rw [if_neg hkey, List.lookup_cons, beq_eq_false_iff_ne.mpr hkey, List.lookup_nil]

/-- A part that a value stands for, as the parser reads it. -/
def parsed {α : Type} (part : Option Value)
    (parse : JsonValue → Except QueryParseError α) : Except QueryParseError (Option α) :=
  match part with
  | none => .ok none
  | some value => (parse value.toPlainJson).map some

theorem parsePart_value {α : Type} {obj : List (String × JsonValue)} {key : String}
    (part : Option Value) {parse : JsonValue → Except QueryParseError α}
    (h : obj.lookup key = part.map Value.toPlainJson) :
    QueryParser.parsePart obj key parse = parsed part parse := by
  rw [QueryParser.parsePart, h]
  cases part with
  | none => rfl
  | some value => rfl

theorem parsePart_number {obj : List (String × JsonValue)} {key message : String}
    (part : Option UInt64) (h : obj.lookup key = part.map fun n => .number (.posInt n)) :
    QueryParser.parsePart obj key (QueryParser.parseNumber message) = .ok part := by
  rw [QueryParser.parsePart, h]
  cases part with
  | none => rfl
  | some n => rfl

def parsedFilter (request : QueryRequest) : Except QueryParseError Filter :=
  (parsed request.filter QueryParser.parseFilter).map fun filter => filter.getD .empty

theorem parseFromValue_toJson_iff {request : QueryRequest} {query : Query} :
    QueryParser.parseFromValue request.toJson = .ok query ↔
      request.parsedFilter = .ok query.filter ∧
        parsed request.projection QueryParser.parseProjection = .ok query.projection ∧
        parsed request.sort QueryParser.parseSort = .ok query.sort ∧
        query.skip = request.skip ∧ query.limit = request.limit := by
  rw [toJson, QueryParser.parseFromValue,
    parsePart_value request.filter (by simp [List.lookup_append, lookup_member]),
    parsePart_value request.projection (by simp [List.lookup_append, lookup_member]),
    parsePart_value request.sort (by simp [List.lookup_append, lookup_member]),
    parsePart_number request.skip (by simp [List.lookup_append, lookup_member]),
    parsePart_number request.limit (by simp [List.lookup_append, lookup_member]),
    parsedFilter]
  cases parsed request.filter QueryParser.parseFilter with
  | error e => simp [bind, Except.bind, Except.map]
  | ok filter =>
    cases parsed request.projection QueryParser.parseProjection with
    | error e => simp [bind, Except.bind, Except.map]
    | ok projection =>
      cases parsed request.sort QueryParser.parseSort with
      | error e => simp [bind, Except.bind, Except.map]
      | ok sort =>
        constructor
        · intro h
          cases h
          exact ⟨rfl, rfl, rfl, rfl, rfl⟩
        · rintro ⟨hfilter, hprojection, hsort, hskip, hlimit⟩
          obtain ⟨_, _, _, _, _⟩ := query
          cases hfilter
          cases hprojection
          cases hsort
          cases hskip
          cases hlimit
          rfl

/-! ## What the command looks at -/

def hasObjectFilter (request : QueryRequest) : Bool :=
  match request.filter with
  | none | some (.object _) => true
  | some _ => false

theorem toPlainJson_ne_object {value : Value} (h : ∀ kvs, value ≠ .object kvs)
    (members : List (String × JsonValue)) : value.toPlainJson ≠ .object members := by
  intro heq
  cases value with
  | object kvs => exact h kvs rfl
  | float64 f =>
    rw [Value.toPlainJson] at heq
    cases hnumber : JsonNumber.ofFloat f with
    | none =>
      rw [hnumber] at heq
      cases heq
    | some n =>
      rw [hnumber] at heq
      cases heq
  | _ => cases heq

/-- An object, or the empty one in its place, is what the command and the parser look at. -/
theorem exists_members {request : QueryRequest} (h : request.hasObjectFilter = true) :
    ∃ members, (request.filter.map Value.toPlainJson).getD (.object []) = .object members ∧
      request.parsedFilter = QueryParser.parseFilter (.object members) := by
  rw [hasObjectFilter] at h
  split at h
  next hfilter =>
    rw [parsedFilter, hfilter]
    exact ⟨[], rfl, rfl⟩
  next kvs hfilter =>
    rw [parsedFilter, hfilter]
    refine ⟨Value.toPlainMembers kvs, rfl, ?_⟩
    rw [parsed, Value.toPlainJson]
    cases QueryParser.parseFilter (.object (Value.toPlainMembers kvs)) with
    | error e => rfl
    | ok filter => rfl
  next => cases h

end QueryRequest

/-! ## Parts that change nothing -/

namespace QueryExecutor

def projected (projection : Option Projection) (fields : Fields) : Fields :=
  match projection with
  | none => fields
  | some projection => fields.filter fun field _ => projection.shouldInclude field

/-- The parts of the query besides its filter have nothing to do with these documents: none is
skipped and none is beyond the limit, the documents are in order, and all their fields are
included. -/
structure Idle (query : Query) (documents : List Document) : Prop where
  skip : ∀ n, query.skip = some n → n = 0 ∨ documents = []
  limit : ∀ n, query.limit = some n → documents.length ≤ n.toNat
  sort : ∀ sort, query.sort = some sort → TotalPreorderOn (compareBy sort) (· ∈ documents) ∧
    documents.Pairwise fun a b => compareBy sort a b ≠ .gt
  projection : ∀ projection, query.projection = some projection →
    ∀ doc ∈ documents, ∀ field ∈ doc.fields, projection.shouldInclude field = true

variable {query : Query} {documents : List Document}

theorem content_applyPostProcessing (sortBy : SortBy Document) (clock : Nat → Nat → DateTime) :
    (applyPostProcessing sortBy clock query documents).map (List.map Document.content) =
      (query.sort.elim (some documents) (applySort sortBy documents)).map fun sorted =>
        (page query sorted).map fun doc => (doc.id, projected query.projection doc.fields) := by
  rw [applyPostProcessing_eq, Option.map_map]
  congr 1
  funext sorted
  have hprojects := projects_applyProjection clock query.projection (page query sorted)
  dsimp only [Function.comp_apply]
  cases hprojection : query.projection with
  | none => rfl
  | some projection =>
    rw [hprojection] at hprojects
    exact hprojects

theorem page_sublist (query : Query) (documents : List Document) :
    (page query documents).Sublist documents := by
  rw [page]
  cases query.limit with
  | none => exact List.drop_sublist _ _
  | some limit => exact (List.take_sublist _ _).trans (List.drop_sublist _ _)

theorem length_page_congr (query : Query) {l l' : List Document} (h : l.length = l'.length) :
    (page query l).length = (page query l').length := by
  rw [page, page]
  cases query.limit with
  | none => simp only [Option.elim_none, List.length_drop, h]
  | some limit => simp only [Option.elim_some, List.length_take, List.length_drop, h]

/-- When a page is everything. -/
theorem page_eq_self_iff : page query documents = documents ↔
    (∀ n, query.skip = some n → n = 0 ∨ documents = []) ∧
      ∀ n, query.limit = some n → documents.length ≤ n.toNat := by
  have hlength : page query documents = documents ↔
      (page query documents).length = documents.length :=
    ⟨congrArg List.length, (page_sublist query documents).eq_of_length⟩
  have hskip : (∀ n, query.skip = some n → n = 0 ∨ documents = []) ↔
      (query.skip.elim 0 UInt64.toNat = 0 ∨ documents.length = 0) := by
    cases query.skip with
    | none => simp
    | some n =>
      have hzero : n = 0 ↔ n.toNat = 0 := UInt64.toNat_inj.symm
      simp [hzero]
  rw [hlength, hskip, page]
  cases query.limit with
  | none =>
    simp only [Option.elim_none, List.length_drop, reduceCtorEq, false_implies, implies_true,
      and_true]
    omega
  | some limit =>
    simp only [Option.elim_some, List.length_take, List.length_drop, Option.some.injEq,
      forall_eq']
    omega

theorem compareField_congr {field : String × SortOrder} {a a' b b' : Document}
    (ha : a.fields = a'.fields) (hb : b.fields = b'.fields) :
    compareField field a b = compareField field a' b' := by
  simp only [compareField, Document.getByPath, ha, hb]

theorem compareBy_congr {sort : SortSpecification} {a a' b b' : Document}
    (ha : a.fields = a'.fields) (hb : b.fields = b'.fields) :
    compareBy sort a b = compareBy sort a' b' := by
  rw [compareBy]
  induction sort.fields with
  | nil => rfl
  | cons field fields ih =>
    rw [List.map_cons, lexicographic, lexicographic, compareField_congr ha hb, ih]

theorem applySort_keeps_iff {sort : SortSpecification} :
    (∀ sortBy, (applySort sortBy documents sort).map (List.map Document.content) =
        some (documents.map Document.content)) ↔
      TotalPreorderOn (compareBy sort) (· ∈ documents) ∧
        documents.Pairwise fun a b => compareBy sort a b ≠ .gt :=
  sorts_keep_iff
    (fun c d => compareBy sort ⟨c.1, c.2, .default 0⟩ ⟨d.1, d.2, .default 0⟩)
    fun _ _ => compareBy_congr rfl rfl

theorem projected_idem (projection : Option Projection) (fields : Fields) :
    projected projection (projected projection fields) = projected projection fields := by
  cases projection with
  | none => rfl
  | some projection =>
    apply Std.ExtTreeMap.ext_getElem?
    intro name
    rw [projected, projected, Std.ExtTreeMap.getElem?_filter', Std.ExtTreeMap.getElem?_filter']
    cases fields[name]? with
    | none => rfl
    | some value => rw [Option.filter_filter]; simp

theorem projected_eq_self_iff {projection : Option Projection} {fields : Fields} :
    projected projection fields = fields ↔
      ∀ own, projection = some own → ∀ field ∈ fields, own.shouldInclude field = true := by
  cases projection with
  | none => exact iff_of_true rfl nofun
  | some projection =>
    rw [projected, Std.ExtTreeMap.filter_eq_self_iff]
    simp

/-- The documents that match stay as they are, whatever sorts them, exactly when the other parts of
the query have nothing to do. -/
theorem applyPostProcessing_keeps_iff :
    (∀ sortBy clock,
      (applyPostProcessing sortBy clock query documents).map (List.map Document.content) =
        some (documents.map Document.content)) ↔ Idle query documents := by
  constructor
  · intro h
    have hrun (sortBy : SortBy Document) : ∃ sorted,
        query.sort.elim (some documents) (applySort sortBy documents) = some sorted ∧
          sorted.Perm documents ∧ page query sorted = sorted ∧
          sorted.map (fun doc => (doc.id, projected query.projection doc.fields)) =
            documents.map Document.content := by
      have hown := h sortBy fun _ _ => 0
      rw [content_applyPostProcessing] at hown
      obtain ⟨sorted, hsort, hkeep⟩ := Option.map_eq_some_iff.mp hown
      have hperm : sorted.Perm documents := by
        have hsorts := sorts_applySort hsort
        cases hquery : query.sort with
        | none =>
          rw [hquery] at hsorts
          exact .of_eq hsorts
        | some sort =>
          rw [hquery] at hsorts
          exact hsorts.1
      have hlength := congrArg List.length hkeep
      rw [List.length_map, List.length_map, ← hperm.length_eq] at hlength
      have hpage := (page_sublist query _).eq_of_length hlength
      rw [hpage] at hkeep
      exact ⟨sorted, hsort, hperm, hpage, hkeep⟩
    -- what is left of a document is one of the documents, so its fields were all included
    have hfields : ∀ doc ∈ documents, projected query.projection doc.fields = doc.fields := by
      intro doc hdoc
      obtain ⟨_, _, _, _, hkeep⟩ := hrun (.merge Document)
      have hmem := List.mem_map_of_mem (f := Document.content) hdoc
      rw [← hkeep, List.mem_map] at hmem
      obtain ⟨own, _, heq⟩ := hmem
      have hown : projected query.projection own.fields = doc.fields := congrArg Prod.snd heq
      rw [← hown, projected_idem]
    have hwhole : page query documents = documents := by
      obtain ⟨_, _, hperm, hpage, _⟩ := hrun (.merge Document)
      apply (page_sublist query documents).eq_of_length
      rw [← length_page_congr query hperm.length_eq, hpage, hperm.length_eq]
    obtain ⟨hskip, hlimit⟩ := page_eq_self_iff.mp hwhole
    refine ⟨hskip, hlimit, fun sort hquery => applySort_keeps_iff.mp fun sortBy => ?_,
      fun own hown doc hdoc => projected_eq_self_iff.mp (hfields doc hdoc) own hown⟩
    obtain ⟨sorted, hsort, hperm, _, hkeep⟩ := hrun sortBy
    rw [hquery, Option.elim_some] at hsort
    rw [hsort, Option.map_some, ← hkeep]
    congr 1
    apply List.map_congr_left
    intro doc hdoc
    rw [hfields doc (hperm.mem_iff.mp hdoc), Document.content]
  · intro h sortBy clock
    have hsort : query.sort.elim (some documents) (applySort sortBy documents) =
        some documents := by
      cases hsort : query.sort with
      | none => rfl
      | some sort =>
        obtain ⟨hpre, hordered⟩ := h.sort sort hsort
        obtain ⟨sorted, hsorted, hstable⟩ := sortBy.stable hpre
        rw [hstable.unique hpre (.self hordered)] at hsorted
        exact hsorted
    rw [content_applyPostProcessing, hsort, Option.map_some,
      page_eq_self_iff.mpr ⟨h.skip, h.limit⟩]
    congr 1
    apply List.map_congr_left
    intro doc hdoc
    have hfields := projected_eq_self_iff.mpr fun own hown => h.projection own hown doc hdoc
    rw [hfields, Document.content]

end QueryExecutor

theorem executeCollectionScan_empty (regex : RegexCrate) (documents : List Document) :
    executeCollectionScan regex .empty documents = .ok documents := by
  rw [executeCollectionScan_eq_filter (p := fun _ => true) fun doc _ => rfl, List.filter_true]

namespace DocumentCommand

open QueryRequest (parsed)

variable {C : Type} {env : StorageEnv C} {regex : RegexCrate} {now : DateTime}
  {engine : HybridStorageEngine C} {request : QueryRequest}

variable (env regex now engine) in
theorem found_of_object (h : request.hasObjectFilter = true) {results : List Document} :
    found env regex now engine request = .ok results ↔
      ∃ filter documents, request.parsedFilter = .ok filter ∧
        engine.scanCollection env.json now request.collection = .ok documents ∧
        executeCollectionScan regex filter documents = .ok results := by
  obtain ⟨members, hjson, hparse⟩ := request.exists_members h
  rw [found, hjson, hparse]
  cases members with
  | nil =>
    have hfilter : QueryParser.parseFilter (.object []) = .ok .empty := rfl
    simp only [hfilter, scanned, Except.ok.injEq, exists_eq_left', exists_and_left,
      executeCollectionScan_empty]
    cases engine.scanCollection env.json now request.collection with
    | error error => simp
    | ok documents => simp
  | cons member members =>
    simp only [scanned]
    cases QueryParser.parseFilter (.object (member :: members)) with
    | error error => simp
    | ok filter =>
      cases engine.scanCollection env.json now request.collection with
      | error error => simp
      | ok documents =>
        cases hscan : executeCollectionScan regex filter documents with
        | error error => simp [hscan]
        | ok matched => simp [hscan]

variable (env regex now engine) in
/-- With another filter it answers that there is nothing, and the parser refuses it. -/
theorem found_of_other (h : request.hasObjectFilter = false) :
    found env regex now engine request = .ok [] ∧ ∀ filter, request.parsedFilter ≠ .ok filter := by
  rw [QueryRequest.hasObjectFilter] at h
  split at h
  next => cases h
  next => cases h
  next value hother hfilter =>
    have hne := QueryRequest.toPlainJson_ne_object hother
    have hjson : (request.filter.map Value.toPlainJson).getD (.object []) = value.toPlainJson := by
      rw [hfilter]
      rfl
    constructor
    · rw [found, hjson]
      split
      next heq => exact absurd heq (hne _)
      next heq => exact absurd heq (hne _)
      next => rfl
    · intro filter hparse
      rw [QueryRequest.parsedFilter, hfilter, parsed] at hparse
      cases hvalue : value.toPlainJson with
      | object members => exact hne members hvalue
      | _ =>
        rw [hvalue] at hparse
        cases hparse

/-! ## The command and the engine -/

section

variable (env regex now engine request)

/-- What the query engine makes of the parts of the request on the stored collection; nothing where
it fails or panics. -/
def executed (sortBy : SortBy Document) (planOrder scanOrder : HashOrder)
    (clock : Nat → Nat → DateTime) : Option (List Document) :=
  match QueryParser.parseFromValue request.toJson with
  | .error _ => none
  | .ok query =>
    match engine.scanCollection env.json now request.collection with
    | .error _ => none
    | .ok documents =>
      (QueryExecutor.execute regex sortBy planOrder scanOrder clock .new documents
        query).bind Except.toOption

/-- The command answers the documents that the engine finds, in the same order, and fails where the
engine fails, whatever sorts the documents and in whatever order hash maps give their keys. -/
def Agrees : Prop :=
  ∀ sortBy planOrder scanOrder clock,
    (found env regex now engine request).toOption.map (List.map Document.content) =
      (executed env regex now engine request sortBy planOrder scanOrder clock).map
        (List.map Document.content)

/-- The filter is absent or an object; and where it can be decided on the whole collection, the
other parts of the request are well formed and have nothing to do with the documents that match. -/
def AsksForFilterOnly : Prop :=
  request.hasObjectFilter = true ∧
    ∀ filter documents, request.parsedFilter = .ok filter →
      engine.scanCollection env.json now request.collection = .ok documents →
      (∀ doc ∈ documents, ∃ found, matchesFilter regex doc filter = .ok found) →
      ∃ query, QueryParser.parseFromValue request.toJson = .ok query ∧
        QueryExecutor.Idle query
          (documents.filter (QueryExecutor.surelyMatches regex filter))

end

theorem executed_eq {query : Query} {documents : List Document}
    (hquery : QueryParser.parseFromValue request.toJson = .ok query)
    (hscan : engine.scanCollection env.json now request.collection = .ok documents)
    (sortBy : SortBy Document) (planOrder scanOrder : HashOrder) (clock : Nat → Nat → DateTime) :
    executed env regex now engine request sortBy planOrder scanOrder clock =
      (executeCollectionScan regex query.filter documents).toOption.bind
        (QueryExecutor.applyPostProcessing sortBy clock query) := by
  rw [executed, hquery]
  dsimp only
  rw [hscan]
  dsimp only
  rw [QueryExecutor.execute, show QueryExecutor.new.planner = QueryPlanner.new from rfl,
    QueryPlanner.analyzeFilterForIndex_new, Option.isSome_none, if_neg Bool.false_ne_true,
    QueryExecutor.executeCollectionScan]
  cases executeCollectionScan regex query.filter documents with
  | error error => rfl
  | ok results =>
    dsimp only [Except.toOption, Option.bind_some]
    cases QueryExecutor.applyPostProcessing sortBy clock query results with
    | none => rfl
    | some documents => rfl

theorem scan_of_decided {filter : Filter} {documents : List Document}
    (h : ∀ doc ∈ documents, ∃ found, matchesFilter regex doc filter = .ok found) :
    executeCollectionScan regex filter documents =
      .ok (documents.filter (QueryExecutor.surelyMatches regex filter)) :=
  executeCollectionScan_eq_filter fun doc hdoc => by
    obtain ⟨found, hfound⟩ := h doc hdoc
    rw [QueryExecutor.surelyMatches, hfound]

/-- Where the command fails, the engine fails. -/
theorem executed_of_error (h : request.hasObjectFilter = true) {error : ConnectionError}
    (hfound : found env regex now engine request = .error error) (sortBy : SortBy Document)
    (planOrder scanOrder : HashOrder) (clock : Nat → Nat → DateTime) :
    executed env regex now engine request sortBy planOrder scanOrder clock = none := by
  cases hquery : QueryParser.parseFromValue request.toJson with
  | error e => rw [executed, hquery]
  | ok query =>
    cases hscan : engine.scanCollection env.json now request.collection with
    | error e =>
      rw [executed, hquery]
      dsimp only
      rw [hscan]
    | ok documents =>
      rw [executed_eq hquery hscan]
      cases hresults : executeCollectionScan regex query.filter documents with
      | error e => rfl
      | ok results =>
        have hfilter := (QueryRequest.parseFromValue_toJson_iff.mp hquery).1
        have hok := (found_of_object env regex now engine h).mpr
          ⟨query.filter, documents, hfilter, hscan, hresults⟩
        rw [hfound] at hok
        cases hok

/-- The command agrees with the query engine exactly when the request asks for nothing beyond its
filter. -/
theorem query_agrees_iff : Agrees env regex now engine request ↔
    AsksForFilterOnly env regex now engine request := by
  cases hobject : request.hasObjectFilter with
  | false =>
    obtain ⟨hfound, hnone⟩ := found_of_other env regex now engine hobject
    refine iff_of_false (fun h => ?_) fun h => Bool.noConfusion (hobject.symm.trans h.1)
    have hagrees := h (.merge Document) .given .given fun _ _ => 0
    have hexecuted : executed env regex now engine request (.merge Document) .given .given
        (fun _ _ => 0) = none := by
      cases hquery : QueryParser.parseFromValue request.toJson with
      | error e => rw [executed, hquery]
      | ok query =>
        exact absurd (QueryRequest.parseFromValue_toJson_iff.mp hquery).1 (hnone query.filter)
    rw [hfound, hexecuted] at hagrees
    cases hagrees
  | true =>
    constructor
    · intro h
      refine ⟨hobject, fun filter documents hfilter hscan hdecided => ?_⟩
      have hmatched := scan_of_decided hdecided
      have hfound := (found_of_object env regex now engine hobject).mpr
        ⟨filter, documents, hfilter, hscan, hmatched⟩
      cases hquery : QueryParser.parseFromValue request.toJson with
      | error e =>
        have hagrees := h (.merge Document) .given .given fun _ _ => 0
        rw [hfound, executed, hquery] at hagrees
        cases hagrees
      | ok query =>
        have hsame : filter = query.filter := Except.ok.inj
          (hfilter.symm.trans (QueryRequest.parseFromValue_toJson_iff.mp hquery).1)
        refine ⟨query, rfl,
          QueryExecutor.applyPostProcessing_keeps_iff.mp fun sortBy clock => ?_⟩
        have hagrees := h sortBy .given .given clock
        rw [hfound, executed_eq hquery hscan, ← hsame, hmatched] at hagrees
        exact hagrees.symm
    · rintro ⟨_, h⟩ sortBy planOrder scanOrder clock
      cases hfound : found env regex now engine request with
      | error error => rw [executed_of_error hobject hfound]; rfl
      | ok results =>
        obtain ⟨filter, documents, hfilter, hscan, hresults⟩ :=
          (found_of_object env regex now engine hobject).mp hfound
        have hdecided := executeCollectionScan_ok_iff.mp ⟨results, hresults⟩
        obtain ⟨query, hquery, hidle⟩ := h filter documents hfilter hscan hdecided
        have hsame : filter = query.filter := Except.ok.inj
          (hfilter.symm.trans (QueryRequest.parseFromValue_toJson_iff.mp hquery).1)
        have hmatched := scan_of_decided hdecided
        rw [executed_eq hquery hscan, ← hsame, hmatched,
          Except.ok.inj (hresults.symm.trans hmatched)]
        exact (QueryExecutor.applyPostProcessing_keeps_iff.mpr hidle sortBy clock).symm

def afterFirst : QueryRequest :=
  { collection := "c", filter := none, projection := none, sort := none, skip := some 1
    limit := none }

/-- The only document of a collection is answered, though it was to be skipped. -/
theorem not_agrees :
    found numbersEnv { compile := fun _ => .error "" } 0 insertFive.2 afterFirst = .ok [five] ∧
      executed numbersEnv { compile := fun _ => .error "" } 0 insertFive.2 afterFirst
        (.merge Document) .given .given (fun _ _ => 0) = some [] ∧
      ¬Agrees numbersEnv { compile := fun _ => .error "" } 0 insertFive.2 afterFirst := by
  have hfound : found numbersEnv { compile := fun _ => .error "" } 0 insertFive.2 afterFirst =
      .ok [five] := rfl
  have hexecuted : executed numbersEnv { compile := fun _ => .error "" } 0 insertFive.2 afterFirst
      (.merge Document) .given .given (fun _ _ => 0) = some [] := rfl
  refine ⟨hfound, hexecuted, fun h => ?_⟩
  have hagrees := h (.merge Document) .given .given fun _ _ => 0
  rw [hfound, hexecuted] at hagrees
  cases hagrees

end DocumentCommand

end VedDb
