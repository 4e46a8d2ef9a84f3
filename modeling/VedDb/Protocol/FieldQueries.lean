import VedDb.Protocol.Documents
import VedDb.Query.ReadBack
import VedDb.Replication.Agreement
import VedDb.Storage.Poison

/-!
# Queries for the value of a field

A query with the filter `{f: v}` for the documents whose field `f` equals `v`.  The value is
compared as plain JSON brings it back; an object stands for the operators of a condition, and a name
with a dot or a dollar sign is not the name of a field.  A document that is not read back makes its
collection unreadable.
-/

namespace VedDb

open LittleEndian (Bytes)
open QueryParser

/-! ## What a filter looks at -/

section

variable {regex : RegexCrate} {doc doc' : Document}

theorem operatorHolds_congr {field : String} (h : doc.getByPath field = doc'.getByPath field)
    (op : String) (val : JsonValue) (obj : List (String × JsonValue)) :
    operatorHolds regex doc field op val obj = operatorHolds regex doc' field op val obj := by
  unfold operatorHolds
  split
  all_goals first | rfl | simp only [matchesFilter, h]

theorem operatorsHold_congr {field : String} (h : doc.getByPath field = doc'.getByPath field)
    (obj members : List (String × JsonValue)) :
    operatorsHold regex doc field obj members = operatorsHold regex doc' field obj members := by
  induction members with
  | nil => rfl
  | cons member members ih =>
    obtain ⟨op, val⟩ := member
    rw [operatorsHold, operatorsHold, operatorHolds_congr h, ih]

theorem conditionHolds_congr {field : String} (h : doc.getByPath field = doc'.getByPath field)
    (value : JsonValue) :
    conditionHolds regex doc field value = conditionHolds regex doc' field value := by
  unfold conditionHolds
  split
  · simp only [matchesFilter, h]
  · exact operatorsHold_congr h _ _
  · simp only [matchesFilter, h]

/-- The documents have the same values at the paths that do not start with a dollar sign. -/
def AgreeOnFields (doc doc' : Document) : Prop :=
  ∀ field, isLogical field = false → doc.getByPath field = doc'.getByPath field

mutual

/-- A filter looks at no other paths. -/
theorem holds_congr (h : AgreeOnFields doc doc') : ∀ json : JsonValue,
    holds regex doc json = holds regex doc' json
  | .object members => allKeysHold_congr h members
  | .null | .bool _ | .number _ | .string _ | .array _ => rfl

theorem allKeysHold_congr (h : AgreeOnFields doc doc') : ∀ members : List (String × JsonValue),
    allKeysHold regex doc members = allKeysHold regex doc' members
  | [] => rfl
  | (key, val) :: members => by
      have hcons (own : Document) : allKeysHold regex own ((key, val) :: members) =
          both (allKeysHold regex own [(key, val)]) (allKeysHold regex own members) :=
        allKeysHold_cons key val members
      rw [hcons doc, hcons doc', allKeysHold_congr h members]
      congr 1
      cases hkey : isLogical key with
      | false =>
        rw [allKeysHold_field hkey, allKeysHold_field hkey, conditionHolds_congr (h key hkey)]
      | true =>
        rw [allKeysHold_logical hkey, allKeysHold_logical hkey]
        split
        · split
          next items => exact allHold_congr h items
          next => rfl
        · split
          next items => exact anyHolds_congr h items
          next => rfl
        · rw [holds_congr h val]
        · rfl

theorem allHold_congr (h : AgreeOnFields doc doc') : ∀ items : List JsonValue,
    allHold regex doc items = allHold regex doc' items
  | [] => rfl
  | item :: items => by rw [allHold, allHold, holds_congr h item, allHold_congr h items]

theorem anyHolds_congr (h : AgreeOnFields doc doc') : ∀ items : List JsonValue,
    anyHolds regex doc items = anyHolds regex doc' items
  | [] => rfl
  | item :: items => by rw [anyHolds, anyHolds, holds_congr h item, anyHolds_congr h items]

end

end

/-! ## Objects as conditions -/

/-- An object with members stands for the operators of a condition. -/
def Value.isCondition : Value → Bool
  | .object (_ :: _) => true
  | _ => false

-- Bytes are compared with the values of a filter as an object is, and equal none of them.
theorem compareValues_binary (kvs : List (String × Value)) (b : Value) :
    compareValues (.binary []) b = compareValues (.object kvs) b := by
  cases b with
  | _ => rfl

theorem jsonToValue_ne_binary (json : JsonValue) :
    (jsonToValue json).eq (.binary []) = false ∧
      Value.eq (.binary []) (jsonToValue json) = false := by
  cases json with
  | number n =>
    rw [jsonToValue]
    split
    · split
      · exact ⟨rfl, rfl⟩
      · exact ⟨rfl, rfl⟩
    · exact ⟨rfl, rfl⟩
  | _ => exact ⟨rfl, rfl⟩

theorem any_eq_binary (items : List JsonValue) :
    ((jsonToValues items).any fun own => own.eq (.binary [])) = false := by
  induction items with
  | nil => rfl
  | cons item items ih => rw [jsonToValues, List.any_cons, (jsonToValue_ne_binary item).1, ih]; rfl

section

variable {kvs : List (String × Value)} {obj : List (String × JsonValue)}

theorem containers_lt_of_member {op : String} {val : JsonValue}
    (hkvs : obj = Value.toPlainMembers kvs) (hmem : (op, val) ∈ obj) :
    (jsonToValue val).containers < (Value.object kvs).containers := by
  have hmember := Value.containers_le_of_mem_members hmem
  have hread := Value.containersMembers_readBack_le kvs
  rw [← hkvs] at hread
  rw [Value.containers]
  omega

/-- Where an object satisfies one of its own operators, bytes satisfy it. -/
theorem operatorHolds_binary {regex : RegexCrate} {doc doc' : Document} {field op : String}
    {val : JsonValue} (hkvs : obj = Value.toPlainMembers kvs) (hmem : (op, val) ∈ obj)
    (hdoc : doc.getByPath field = some (.object kvs))
    (hdoc' : doc'.getByPath field = some (.binary []))
    (h : operatorHolds regex doc field op val obj = .ok true) :
    operatorHolds regex doc' field op val obj = .ok true := by
  have hlt := containers_lt_of_member hkvs hmem
  have hne : Value.eq (.object kvs) (jsonToValue val) = false :=
    Value.eq_eq_false_of_lt hlt.ne'
  revert h
  unfold operatorHolds
  split
  case h_1 =>
    intro h
    simp [matchesFilter, hdoc, hne] at h
  case h_2 =>
    intro _
    simp [matchesFilter, hdoc', (jsonToValue_ne_binary val).2]
  case h_3 | h_4 | h_5 | h_6 =>
    intro h
    simp only [matchesFilter, hdoc, hdoc', Option.any_some, compareValues_binary kvs] at h ⊢
    exact h
  case h_7 items =>
    intro h
    -- an item lies inside of the object
    have hnone : (jsonToValues items).any (fun own => own.eq (.object kvs)) = false := by
      rw [List.any_eq_false]
      intro own hown
      have hitem := Value.containers_le_of_mem hown
      rw [jsonToValue, Value.containers] at hlt
      rw [Value.eq_eq_false_of_lt (by omega)]
      exact Bool.false_ne_true
    simp [matchesFilter, hdoc, hnone] at h
  case h_8 items =>
    intro _
    simp [matchesFilter, hdoc', any_eq_binary items]
  case h_9 =>
    intro h
    simp only [matchesFilter, hdoc, hdoc', Option.isSome_some] at h ⊢
    exact h
  case h_10 =>
    intro h
    simp [matchesFilter, hdoc] at h
  case h_11 => exact id
  case h_12 =>
    intro h
    cases h

end

theorem operatorsHold_iff {regex : RegexCrate} {doc : Document} {field : String}
    {obj members : List (String × JsonValue)} :
    operatorsHold regex doc field obj members = .ok true ↔ ∀ member ∈ members,
      operatorHolds regex doc field member.1 member.2 obj = .ok true := by
  induction members with
  | nil => exact iff_of_true rfl (List.forall_mem_nil _)
  | cons member members ih =>
    obtain ⟨op, val⟩ := member
    rw [operatorsHold, both_eq_true_iff, ih, List.forall_mem_cons]

/-! ## The filter for a value -/

/-- A name that stands for the field itself. -/
def isFieldName (field : String) : Bool := !isLogical field && !field.toList.contains '.'

theorem isFieldName_iff {field : String} :
    isFieldName field = true ↔ isLogical field = false ∧ '.' ∉ field.toList := by
  simp [isFieldName]

theorem parseFilter_single {field : String} (h : isLogical field = false) (val : JsonValue) :
    parseFilter (.object [(field, val)]) = parseFieldCondition field val := by
  rw [parseFilter, List.isEmpty_cons, if_neg Bool.false_ne_true, parseConditions_cons_field h]
  cases parseFieldCondition field val with
  | error e => rfl
  | ok filter => rfl

theorem parseFieldCondition_toPlainJson (field : String) {value : Value}
    (h : value.isCondition = false) :
    parseFieldCondition field value.toPlainJson = .ok (.eq field value.readBack) := by
  cases value with
  | object kvs =>
    cases kvs with
    | nil => rfl
    | cons kv kvs => cases h
  | float64 f =>
    rw [Value.readBack, Value.toPlainJson]
    cases JsonNumber.ofFloat f with
    | none => rfl
    | some n => rfl
  | _ => rfl

namespace DocumentCommand

def hasField (field : String) (value : Value) (doc : Document) : Bool :=
  doc.fields[field]?.any fun own => own.eq value

/-- A query for the value finds the documents whose field equals it, and among them those that were
given this value, whatever a collection holds. -/
def FindsByValue (field : String) (value : Value) : Prop :=
  ∀ (C : Type) (env : StorageEnv C) (regex : RegexCrate) (now : DateTime)
    (engine : HybridStorageEngine C) (request : QueryRequest) (documents : List Document),
    request.filter = some (.object [(field, value)]) →
    engine.scanCollection env.json now request.collection = .ok documents →
    ∃ results, found env regex now engine request = .ok results ∧
      results = documents.filter (hasField field value) ∧
      ∀ doc ∈ documents, doc.fields[field]? = some value → doc ∈ results

/-- What a query with a filter on one name answers. -/
theorem found_single {C : Type} {env : StorageEnv C} {regex : RegexCrate} {now : DateTime}
    {engine : HybridStorageEngine C} {request : QueryRequest} {documents : List Document}
    {field : String} {value : Value} (hfilter : request.filter = some (.object [(field, value)]))
    (hscan : engine.scanCollection env.json now request.collection = .ok documents)
    {results : List Document} :
    found env regex now engine request = .ok results ↔
      ∃ filter, parseFilter (.object [(field, value.toPlainJson)]) = .ok filter ∧
        executeCollectionScan regex filter documents = .ok results := by
  have hscanned : scanned env now engine request.collection = .ok documents := by
    rw [scanned, hscan]
  have hjson : (request.filter.map Value.toPlainJson).getD (.object []) =
      .object [(field, value.toPlainJson)] := by
    rw [hfilter]
    rfl
  rw [found, hjson]
  dsimp only
  cases parseFilter (.object [(field, value.toPlainJson)]) with
  | error error => simp
  | ok filter =>
    dsimp only
    rw [hscanned]
    dsimp only
    cases hmatched : executeCollectionScan regex filter documents with
    | error error => simp [hmatched]
    | ok matched => simp [hmatched]

/-! ## Collections of one document -/

/-- A codec of one document. -/
def oneDocument (doc : Document) : DocumentJson where
  toVec _ _ := .ok []
  fromSlice _ := .ok (doc.id, doc.fields)
  schemaToVec _ := .error "no schemas"
  indexToVec _ := .error "no indexes"

def storing (doc : Document) : HybridStorageEngine Unit :=
  .new () { documents := Std.ExtTreeMap.empty.insert (PersistentLayer.makeDocumentKey "c" doc.id) []
            metadata := ∅ }

theorem scanCollection_storing {doc : Document} (hmeta : doc.metadata = .default 0) :
    (storing doc).scanCollection (oneDocument doc) 0 "c" = .ok [doc] := by
  have hpre : (utf8 ("c" ++ ":")).isPrefixOf (PersistentLayer.makeDocumentKey "c" doc.id) = true :=
    PersistentLayer.isPrefixOf_makeDocumentKey_iff.mpr (.inl rfl)
  have hentries : (storing doc).persistentLayer.documents.toList =
      [(PersistentLayer.makeDocumentKey "c" doc.id, [])] := rfl
  have hdoc : doc = { id := doc.id, fields := doc.fields, metadata := .default 0 } := by
    rw [← hmeta]
  rw [HybridStorageEngine.scanCollection, PersistentLayer.scanCollection, hentries,
    List.filter_cons_of_pos (by exact hpre), List.filter_nil, PersistentLayer.decodeDocuments,
    PersistentLayer.decodeDocuments]
  exact congrArg (fun own => Except.ok [own]) hdoc.symm

theorem FindsByValue.single {field : String} {value : Value} (h : FindsByValue field value)
    (regex : RegexCrate) (fields : Fields) :
    ∃ filter, parseFilter (.object [(field, value.toPlainJson)]) = .ok filter ∧
      matchesFilter regex { id := ⟨0⟩, fields := fields, metadata := .default 0 } filter =
        .ok (hasField field value { id := ⟨0⟩, fields := fields, metadata := .default 0 }) ∧
      (fields[field]? = some value →
        hasField field value { id := ⟨0⟩, fields := fields, metadata := .default 0 } = true) := by
  set doc : Document := { id := ⟨0⟩, fields := fields, metadata := .default 0 } with hdoc
  have hscan : (storing doc).scanCollection (oneDocument doc) 0 "c" = .ok [doc] :=
    scanCollection_storing rfl
  obtain ⟨results, hfound, rfl, hgiven⟩ := h Unit { plainEnv with json := oneDocument doc } regex 0
    (storing doc)
    { collection := "c", filter := some (.object [(field, value)]), projection := none
      sort := none, skip := none, limit := none } [doc] rfl hscan
  obtain ⟨filter, hparse, hmatched⟩ := (found_single rfl hscan).mp hfound
  refine ⟨filter, hparse, ?_, fun hvalue => ?_⟩
  · rw [executeCollectionScan] at hmatched
    cases hmatch : matchesFilter regex doc filter with
    | error e =>
      rw [hmatch] at hmatched
      cases hmatched
    | ok own =>
      rw [hmatch] at hmatched
      cases own with
      | true =>
        have hresults : [doc] = [doc].filter (hasField field value) := Except.ok.inj hmatched
        rw [eq_comm, List.filter_eq_self] at hresults
        rw [hresults doc (List.mem_singleton_self doc)]
      | false =>
        have hresults : [] = [doc].filter (hasField field value) := Except.ok.inj hmatched
        rw [eq_comm, List.filter_eq_nil_iff] at hresults
        rw [Bool.eq_false_iff.mpr (hresults doc (List.mem_singleton_self doc))]
  · have hmem := hgiven doc (List.mem_singleton_self doc) hvalue
    exact (List.mem_filter.mp hmem).2

def oneField (field : String) (value : Value) : Document :=
  { id := ⟨0⟩, fields := Std.ExtTreeMap.empty.insert field value, metadata := .default 0 }

theorem lookup_oneField (field name : String) (value : Value) :
    (oneField field value).fields[name]? = if field = name then some value else none := by
  show (Std.ExtTreeMap.empty.insert field value)[name]? = _
  rw [lookup_insert]
  split
  · rfl
  · exact Std.ExtTreeMap.getElem?_empty

theorem hasField_oneField (field : String) (value own : Value) :
    hasField field value (oneField field own) = own.eq value := by
  rw [hasField, lookup_oneField, if_pos rfl, Option.any_some]

/-- Behind a name that is none of a field, nothing is found of the field with the name. -/
theorem getByPath_oneField_eq_none {field path : String} (value : Value)
    (h : isLogical field = true ∧ isLogical path = false ∨ '.' ∈ field.toList) :
    (oneField field value).getByPath path = none := by
  obtain ⟨first, hpre, hdot, hnone⟩ := Fields.exists_firstPart path
  apply hnone
  show (oneField field value).fields[first]? = none
  rw [lookup_oneField, if_neg]
  rintro rfl
  rcases h with ⟨hfield, hpath⟩ | hfield
  · rw [isLogical, decide_eq_true_eq] at hfield
    rw [isLogical, decide_eq_false_iff_not] at hpath
    obtain ⟨rest, hrest⟩ := hpre
    apply hpath
    rw [← hrest, List.head?_append, hfield]
    rfl
  · exact hdot hfield

/-! ## Which values are found -/

namespace FindsByValue

variable {field : String} {value : Value}

theorem oneField (h : FindsByValue field value) (regex : RegexCrate) :
    ∃ filter, parseFilter (.object [(field, value.toPlainJson)]) = .ok filter ∧
      matchesFilter regex (oneField field value) filter = .ok true ∧
      ∀ own, matchesFilter regex (DocumentCommand.oneField field own) filter =
        .ok (own.eq value) := by
  obtain ⟨filter, hparse, hmatch, hgiven⟩ :=
    h.single regex (DocumentCommand.oneField field value).fields
  have hvalue : (DocumentCommand.oneField field value).fields[field]? = some value := by
    rw [lookup_oneField, if_pos rfl]
  rw [hgiven hvalue] at hmatch
  refine ⟨filter, hparse, hmatch, fun own => ?_⟩
  obtain ⟨filter', hparse', hmatch', _⟩ :=
    h.single regex (DocumentCommand.oneField field own).fields
  have hsame : filter' = filter := Except.ok.inj (hparse'.symm.trans hparse)
  rw [hsame] at hmatch'
  exact hmatch'.trans (congrArg Except.ok (hasField_oneField field value own))

theorem isFieldName (h : FindsByValue field value) : isFieldName field = true := by
  have regex : RegexCrate := { compile := fun _ => .error "" }
  obtain ⟨filter, hparse, hmatch, _⟩ := h.oneField regex
  obtain ⟨filter', hparse', hbare, _⟩ := h.single regex ∅
  have hsame : filter' = filter := Except.ok.inj (hparse'.symm.trans hparse)
  rw [hsame, hasField, Std.ExtTreeMap.getElem?_empty] at hbare
  set bare : Document := { id := ⟨0⟩, fields := ∅, metadata := .default 0 } with hdef
  have hnone (path : String) : bare.getByPath path = none := by
    obtain ⟨first, _, _, hnone⟩ := Fields.exists_firstPart path
    exact hnone ∅ Std.ExtTreeMap.getElem?_empty
  have hdiffer : matchesFilter regex (DocumentCommand.oneField field value) filter ≠
      matchesFilter regex bare filter := by
    rw [hmatch, hbare]
    exact fun heq => Bool.noConfusion (Except.ok.inj heq)
  by_contra hname
  apply hdiffer
  cases hlogical : isLogical field with
  | true =>
    have hagree : AgreeOnFields (DocumentCommand.oneField field value) bare :=
      fun path hpath => (getByPath_oneField_eq_none value (.inl ⟨hlogical, hpath⟩)).trans
        (hnone path).symm
    rw [parseFilter_means _ hparse, parseFilter_means _ hparse, holds_congr hagree]
  | false =>
    have hdot : '.' ∈ field.toList := by
      by_contra hdot
      apply hname
      rw [VedDb.isFieldName, hlogical]
      simpa using hdot
    rw [parseFilter_single hlogical] at hparse
    rw [parseFieldCondition_means hparse, parseFieldCondition_means hparse]
    exact conditionHolds_congr
      ((getByPath_oneField_eq_none value (.inr hdot)).trans (hnone field).symm) _

theorem isCondition_eq_false (h : FindsByValue field value) : value.isCondition = false := by
  rw [Bool.eq_false_iff]
  intro hcondition
  have regex : RegexCrate := { compile := fun _ => .error "" }
  have hname := h.isFieldName
  obtain ⟨hlogical, hdot⟩ := isFieldName_iff.mp hname
  obtain ⟨filter, hparse, hmatch, hothers⟩ := h.oneField regex
  have hpath (own : Value) : (DocumentCommand.oneField field own).getByPath field = some own := by
    rw [Document.getByPath, Fields.getByPath_of_no_dot hdot, lookup_oneField, if_pos rfl]
  rw [parseFilter_single hlogical] at hparse
  have hbytes := hothers (.binary [])
  cases value with
  | object kvs =>
    cases kvs with
    | nil => cases hcondition
    | cons kv kvs =>
      rw [parseFieldCondition_means hparse] at hmatch hbytes
      have hholds := operatorsHold_iff.mp hmatch
      have hall : ∀ member ∈ Value.toPlainMembers (kv :: kvs),
          operatorHolds regex (DocumentCommand.oneField field (.binary [])) field member.1
            member.2 (Value.toPlainMembers (kv :: kvs)) = .ok true := by
        intro member hmember
        exact operatorHolds_binary rfl hmember (hpath _) (hpath _) (hholds member hmember)
      have hfound := operatorsHold_iff.mpr hall
      have hdiffer := hfound.symm.trans hbytes
      cases hdiffer
  | _ => cases hcondition

theorem survives (h : FindsByValue field value) : value.survives = true := by
  have regex : RegexCrate := { compile := fun _ => .error "" }
  obtain ⟨hlogical, hdot⟩ := isFieldName_iff.mp h.isFieldName
  obtain ⟨filter, hparse, hmatch, _⟩ := h.oneField regex
  rw [parseFilter_single hlogical,
    parseFieldCondition_toPlainJson field h.isCondition_eq_false] at hparse
  rw [← Except.ok.inj hparse, matchesFilter, Document.getByPath, Fields.getByPath_of_no_dot hdot,
    lookup_oneField, if_pos rfl, Option.any_some, Value.eq_readBack] at hmatch
  exact Except.ok.inj hmatch

end FindsByValue

theorem findsByValue_of_survives {field : String} {value : Value}
    (hname : VedDb.isFieldName field = true) (hcondition : value.isCondition = false)
    (hsurvives : value.survives = true) : FindsByValue field value := by
  intro C env regex now engine request documents hfilter hscan
  obtain ⟨hlogical, hdot⟩ := isFieldName_iff.mp hname
  have hmatch : ∀ doc ∈ documents, matchesFilter regex doc (.eq field value.readBack) =
      .ok (hasField field value doc) := by
    intro doc _
    rw [matchesFilter, Document.getByPath, Fields.getByPath_of_no_dot hdot,
      Value.readBack_of_survives value hsurvives, hasField]
  refine ⟨_, (found_single hfilter hscan).mpr ⟨.eq field value.readBack, ?_,
    executeCollectionScan_eq_filter hmatch⟩, rfl, fun doc hdoc hvalue => ?_⟩
  · rw [parseFilter_single hlogical, parseFieldCondition_toPlainJson field hcondition]
  · have hself := Value.eq_readBack value
    rw [Value.readBack_of_survives value hsurvives, hsurvives] at hself
    rw [List.mem_filter, hasField, hvalue, Option.any_some]
    exact ⟨hdoc, hself⟩

/-! ## Inserting and querying -/

def WritesAtOnce {C : Type} (engine : HybridStorageEngine C) (collection : String) : Prop :=
  ∀ schema delayMs, engine.schemas[collection]? = some schema →
    schema.cacheConfig.strategy ≠ .writeBehind delayMs

def FindsInserted (json : DocumentJson) (doc : Document) (field : String) (value : Value) : Prop :=
  ∀ (C : Type) (env : StorageEnv C) (regex : RegexCrate) (now : DateTime)
    (engine engine' : HybridStorageEngine C) (request : QueryRequest),
    env.json = json → request.filter = some (.object [(field, value)]) →
    WritesAtOnce engine request.collection →
    (∃ documents, engine.scanCollection env.json now request.collection = .ok documents) →
    insert env now engine { collection := request.collection, document := doc } =
      (.ok (), engine') →
    ∃ results, found env regex now engine' request = .ok results ∧
      ∃ own ∈ results, own.content = doc.content

theorem populateCache_persistentLayer {C : Type} (cache : CacheOps C)
    (e : HybridStorageEngine C) (collection : String) (docId : DocumentId) (doc : Document)
    (schema : Schema) :
    (e.populateCache cache collection docId doc schema).2.persistentLayer = e.persistentLayer := by
  rw [HybridStorageEngine.populateCache]
  rcases cache.setWithTtl e.cacheLayer (HybridStorageEngine.makeCacheKey collection docId)
    (HybridStorageEngine.documentToCacheData doc schema) schema.cacheConfig.ttl with
    ⟨error | ok, layer⟩
  · rfl
  · rfl

theorem persistentLayer_insert {C : Type} {env : StorageEnv C} {now : DateTime}
    {engine engine' : HybridStorageEngine C} {request : InsertDocRequest}
    (hwrites : WritesAtOnce engine request.collection)
    (h : insert env now engine request = (.ok (), engine')) :
    engine.persistentLayer.insertDocument env.json request.collection request.document.id
      request.document = .ok engine'.persistentLayer := by
  have hwritten : engine.writeDocument env.cache env.json now request.collection
      request.document.id request.document = (.ok (), engine') := by
    rw [insert, HybridStorageEngine.insertDocument] at h
    cases hown : engine.writeDocument env.cache env.json now request.collection
        request.document.id request.document with
    | mk outcome e =>
      rw [hown] at h
      cases outcome with
      | error error => cases h
      | ok done =>
        cases h
        rfl
  unfold HybridStorageEngine.writeDocument HybridStorageEngine.writeThrough at hwritten
  cases hlayer : engine.persistentLayer.insertDocument env.json request.collection
      request.document.id request.document with
  | error e =>
    rw [hlayer] at hwritten
    split at hwritten
    · cases hwritten
    next schema hschema =>
      split at hwritten
      next hstrategy => cases hwritten
      next hstrategy => cases hwritten
      next delayMs hstrategy => exact absurd hstrategy (hwrites schema delayMs hschema)
      next hstrategy => cases hwritten
  | ok layer =>
    rw [hlayer] at hwritten
    split at hwritten
    · cases hwritten
      rfl
    next schema hschema =>
      split at hwritten
      next hstrategy =>
        cases hwritten
        rfl
      next hstrategy =>
        have hkept := congrArg (fun result => result.2.persistentLayer) hwritten
        dsimp only [HybridStorageEngine.persist] at hkept
        rw [populateCache_persistentLayer] at hkept
        exact congrArg Except.ok hkept
      next delayMs hstrategy => exact absurd hstrategy (hwrites schema delayMs hschema)
      next hstrategy =>
        cases hwritten
        rfl

theorem scan_of_found {C : Type} {env : StorageEnv C} {regex : RegexCrate} {now : DateTime}
    {engine : HybridStorageEngine C} {request : QueryRequest} {field : String} {value : Value}
    {results : List Document} (hfilter : request.filter = some (.object [(field, value)]))
    (h : found env regex now engine request = .ok results) :
    ∃ documents, engine.scanCollection env.json now request.collection = .ok documents := by
  cases hscan : engine.scanCollection env.json now request.collection with
  | ok documents => exact ⟨documents, rfl⟩
  | error e =>
    have hjson : (request.filter.map Value.toPlainJson).getD (.object []) =
        .object [(field, value.toPlainJson)] := by
      rw [hfilter]
      rfl
    rw [found, hjson] at h
    dsimp only at h
    rw [scanned, hscan] at h
    split at h
    next => cases h
    next => cases h

/-- A document with a list of two kinds, and codecs that know its text. -/
def tagged : Document := oneField "tags" (.array [.int32 10, .string "x"])

def taggedSerde : SerdeEnv :=
  JsonText.serde [encodeDocument (JsonText.serde []) tagged.id tagged.fields]

theorem taggedSerde_faithful : taggedSerde.Faithful tagged where
  text := by
    rw [Json.Text.Faithful, depth_encodeDocument, if_pos (by decide)]
    rfl
  uuid := (fieldSerde_faithful tagged.id "tags").uuid
  dates := (fieldSerde_faithful tagged.id "tags").dates

def five : Document := oneField "n" (.int64 5)

def numbersEnv : StorageEnv Unit :=
  { plainEnv with
    json := JsonText.documents [encodeDocument (JsonText.serde []) five.id five.fields] }

def insertFive : Except ConnectionError Unit × HybridStorageEngine Unit :=
  insert numbersEnv 0 (.new () .empty) { collection := "c", document := five }

def queryFive : QueryRequest :=
  { collection := "c", filter := some (.object [("n", .int64 5)]), projection := none
    sort := none, skip := none, limit := none }

end DocumentCommand

end VedDb
