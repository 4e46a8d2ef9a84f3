import VedDb.Floats
import VedDb.Paths

/-!
# Filters

`Filter` of `query/ast.rs` and how `query/executor.rs` decides whether a document matches one.  The
patterns of a regular expression are compiled each time a string is met; a pattern that does not
compile fails there and nowhere else.
-/

namespace VedDb

/-! ## Comparing values -/

mutual

/-- `PartialEq for Value`, derived: doubles compare as numbers. -/
def Value.eq : Value → Value → Bool
  | .null, .null => true
  | .bool a, .bool b => a == b
  | .int32 a, .int32 b => a == b
  | .int64 a, .int64 b => a == b
  | .float64 a, .float64 b => a.partialCmp b == some .eq
  | .string a, .string b => a == b
  | .binary a, .binary b => a == b
  | .array as, .array bs => Value.eqItems as bs
  | .object as, .object bs => Value.eqMembers as bs
  | .objectId a, .objectId b => a.bytes == b.bytes
  | .dateTime a, .dateTime b => decide (a = b)
  | _, _ => false

def Value.eqItems : List Value → List Value → Bool
  | [], [] => true
  | a :: as, b :: bs => a.eq b && Value.eqItems as bs
  | _, _ => false

def Value.eqMembers : List (String × Value) → List (String × Value) → Bool
  | [], [] => true
  | (k, a) :: as, (l, b) :: bs => k == l && a.eq b && Value.eqMembers as bs
  | _, _ => false

end

/-- `compare_values`.  Values of different kinds are equal, apart from null and the numbers. -/
def compareValues (a b : Value) : Ordering :=
  match a, b with
  | .null, .null => .eq
  | .null, _ => .lt
  | _, .null => .gt
  | .bool a, .bool b => compare a b
  | .int32 a, .int32 b => compare a.toInt b.toInt
  | .int64 a, .int64 b => compare a.toInt b.toInt
  | .int32 a, .int64 b => compare a.toInt b.toInt
  | .int64 a, .int32 b => compare a.toInt b.toInt
  | .float64 a, .float64 b => (a.partialCmp b).getD .eq
  | .int32 a, .float64 b => ((F64.ofInt a.toInt).partialCmp b).getD .eq
  | .int64 a, .float64 b => ((F64.ofInt a.toInt).partialCmp b).getD .eq
  | .float64 a, .int32 b => (a.partialCmp (F64.ofInt b.toInt)).getD .eq
  | .float64 a, .int64 b => (a.partialCmp (F64.ofInt b.toInt)).getD .eq
  | .string a, .string b => compare a b
  | .dateTime a, .dateTime b => compare a b
  | .objectId a, .objectId b => compare a.bytes b.bytes
  | _, _ => .eq

/-! ## Filters -/

inductive Filter where
  | empty
  | eq (field : String) (value : Value)
  | ne (field : String) (value : Value)
  | gt (field : String) (value : Value)
  | gte (field : String) (value : Value)
  | lt (field : String) (value : Value)
  | lte (field : String) (value : Value)
  /-- `Filter::In`. -/
  | inValues (field : String) (values : List Value)
  | nin (field : String) (values : List Value)
  /-- `Filter::Exists`. -/
  | fieldExists (field : String) (present : Bool)
  | regex (field : String) (pattern : String) (options : Option String)
  | and (filters : List Filter)
  | or (filters : List Filter)
  | not (filter : Filter)

/-- `Regex::new` and `is_match`. -/
structure RegexCrate where
  compile : String → Except String (String → Bool)

inductive QueryExecutionError where
  | invalidRegex (message : String)
  deriving DecidableEq

variable (regex : RegexCrate)

/-- The regular expression of a filter: the option `i` is put in front of the pattern. -/
def compileRegex (pattern : String) (options : Option String) : Except String (String → Bool) :=
  match options with
  | some opts =>
    if opts.toList.contains 'i' then regex.compile ("(?i)" ++ pattern)
    else regex.compile pattern
  | none => regex.compile pattern

mutual

def matchesFilter (doc : Document) : Filter → Except QueryExecutionError Bool
  | .empty => .ok true
  | .eq field value => .ok ((doc.getByPath field).any fun v => v.eq value)
  | .ne field value => .ok (!(doc.getByPath field).any fun v => v.eq value)
  | .gt field value => .ok ((doc.getByPath field).any fun v => compareValues v value == .gt)
  | .gte field value => .ok ((doc.getByPath field).any fun v => compareValues v value != .lt)
  | .lt field value => .ok ((doc.getByPath field).any fun v => compareValues v value == .lt)
  | .lte field value => .ok ((doc.getByPath field).any fun v => compareValues v value != .gt)
  | .inValues field values => .ok ((doc.getByPath field).any fun v => values.any (·.eq v))
  | .nin field values => .ok ((doc.getByPath field).all fun v => !values.any (·.eq v))
  | .fieldExists field present => .ok ((doc.getByPath field).isSome == present)
  | .regex field pattern options =>
    match doc.getByPath field with
    | some (.string s) =>
      match compileRegex regex pattern options with
      | .error e => .error (.invalidRegex e)
      | .ok isMatch => .ok (isMatch s)
    | _ => .ok false
  | .and filters => matchesAll doc filters
  | .or filters => matchesAny doc filters
  | .not filter => (matchesFilter doc filter).map (!·)

/-- The loop of `Filter::And`. -/
def matchesAll (doc : Document) : List Filter → Except QueryExecutionError Bool
  | [] => .ok true
  | filter :: filters =>
    match matchesFilter doc filter with
    | .error e => .error e
    | .ok false => .ok false
    | .ok true => matchesAll doc filters

/-- The loop of `Filter::Or`. -/
def matchesAny (doc : Document) : List Filter → Except QueryExecutionError Bool
  | [] => .ok false
  | filter :: filters =>
    match matchesFilter doc filter with
    | .error e => .error e
    | .ok true => .ok true
    | .ok false => matchesAny doc filters

end

/-- `execute_collection_scan`, and the loop of the `Query`, `UpdateDoc` and `DeleteDoc` commands. -/
def executeCollectionScan (filter : Filter) : List Document →
    Except QueryExecutionError (List Document)
  | [] => .ok []
  | doc :: docs =>
    match matchesFilter regex doc filter with
    | .error e => .error e
    | .ok found =>
      (executeCollectionScan filter docs).map fun results =>
        if found then doc :: results else results

theorem executeCollectionScan_ok_iff {regex : RegexCrate} {filter : Filter}
    {docs : List Document} :
    (∃ results, executeCollectionScan regex filter docs = .ok results) ↔
      ∀ doc ∈ docs, ∃ found, matchesFilter regex doc filter = .ok found := by
  induction docs with
  | nil => exact iff_of_true ⟨[], rfl⟩ nofun
  | cons doc docs ih =>
    rw [List.forall_mem_cons, ← ih, executeCollectionScan]
    cases hmatch : matchesFilter regex doc filter with
    | error e => simp
    | ok found =>
      cases executeCollectionScan regex filter docs with
      | error e => simp [Except.map]
      | ok results => simp [Except.map]

/-- Where the filter is decided on every document, a scan keeps those it matches. -/
theorem executeCollectionScan_eq_filter {regex : RegexCrate} {filter : Filter}
    {docs : List Document} {p : Document → Bool}
    (h : ∀ doc ∈ docs, matchesFilter regex doc filter = .ok (p doc)) :
    executeCollectionScan regex filter docs = .ok (docs.filter p) := by
  induction docs with
  | nil => rfl
  | cons doc docs ih =>
    rw [List.forall_mem_cons] at h
    rw [executeCollectionScan, h.1, ih h.2, List.filter_cons]
    rfl

mutual

-- A filter looks at the fields of a document alone.
theorem matchesFilter_congr {regex : RegexCrate} {doc doc' : Document}
    (h : doc.fields = doc'.fields) : ∀ filter : Filter,
    matchesFilter regex doc filter = matchesFilter regex doc' filter
  | .empty => rfl
  | .eq field value => by simp only [matchesFilter, Document.getByPath, h]
  | .ne field value => by simp only [matchesFilter, Document.getByPath, h]
  | .gt field value => by simp only [matchesFilter, Document.getByPath, h]
  | .gte field value => by simp only [matchesFilter, Document.getByPath, h]
  | .lt field value => by simp only [matchesFilter, Document.getByPath, h]
  | .lte field value => by simp only [matchesFilter, Document.getByPath, h]
  | .inValues field values => by simp only [matchesFilter, Document.getByPath, h]
  | .nin field values => by simp only [matchesFilter, Document.getByPath, h]
  | .fieldExists field present => by simp only [matchesFilter, Document.getByPath, h]
  | .regex field pattern options => by simp only [matchesFilter, Document.getByPath, h]
  | .and filters => by rw [matchesFilter, matchesFilter, matchesAll_congr h filters]
  | .or filters => by rw [matchesFilter, matchesFilter, matchesAny_congr h filters]
  | .not filter => by rw [matchesFilter, matchesFilter, matchesFilter_congr h filter]

theorem matchesAll_congr {regex : RegexCrate} {doc doc' : Document}
    (h : doc.fields = doc'.fields) : ∀ filters : List Filter,
    matchesAll regex doc filters = matchesAll regex doc' filters
  | [] => rfl
  | filter :: filters => by
      rw [matchesAll, matchesAll, matchesFilter_congr h filter, matchesAll_congr h filters]

theorem matchesAny_congr {regex : RegexCrate} {doc doc' : Document}
    (h : doc.fields = doc'.fields) : ∀ filters : List Filter,
    matchesAny regex doc filters = matchesAny regex doc' filters
  | [] => rfl
  | filter :: filters => by
      rw [matchesAny, matchesAny, matchesFilter_congr h filter, matchesAny_congr h filters]

end

/-! ## Filters that can always be decided -/

mutual

def Filter.Compiles : Filter → Prop
  | .regex _ pattern options => ∃ isMatch, compileRegex regex pattern options = .ok isMatch
  | .and filters => Filter.AllCompile filters
  | .or filters => Filter.AllCompile filters
  | .not filter => filter.Compiles
  | _ => True

def Filter.AllCompile : List Filter → Prop
  | [] => True
  | filter :: filters => filter.Compiles ∧ Filter.AllCompile filters

end

mutual

/-- A filter whose patterns compile can be decided on every document. -/
theorem matchesFilter_ok {regex : RegexCrate} (doc : Document) : ∀ filter : Filter,
    filter.Compiles regex → ∃ found, matchesFilter regex doc filter = .ok found
  | .empty, _ | .eq _ _, _ | .ne _ _, _ | .gt _ _, _ | .gte _ _, _ | .lt _ _, _ | .lte _ _, _
  | .inValues _ _, _ | .nin _ _, _ | .fieldExists _ _, _ => ⟨_, rfl⟩
  | .regex field pattern options, h => by
      obtain ⟨isMatch, hmatch⟩ := h
      rw [matchesFilter, hmatch]
      split
      · exact ⟨_, rfl⟩
      · exact ⟨_, rfl⟩
  | .and filters, h => matchesAll_ok doc filters h
  | .or filters, h => matchesAny_ok doc filters h
  | .not filter, h => by
      obtain ⟨found, hfound⟩ := matchesFilter_ok doc filter h
      rw [matchesFilter, hfound]
      exact ⟨_, rfl⟩

theorem matchesAll_ok {regex : RegexCrate} (doc : Document) : ∀ filters : List Filter,
    Filter.AllCompile regex filters → ∃ found, matchesAll regex doc filters = .ok found
  | [], _ => ⟨_, rfl⟩
  | filter :: filters, h => by
      obtain ⟨found, hfound⟩ := matchesFilter_ok doc filter h.1
      rw [matchesAll, hfound]
      cases found with
      | true => exact matchesAll_ok doc filters h.2
      | false => exact ⟨_, rfl⟩

theorem matchesAny_ok {regex : RegexCrate} (doc : Document) : ∀ filters : List Filter,
    Filter.AllCompile regex filters → ∃ found, matchesAny regex doc filters = .ok found
  | [], _ => ⟨_, rfl⟩
  | filter :: filters, h => by
      obtain ⟨found, hfound⟩ := matchesFilter_ok doc filter h.1
      rw [matchesAny, hfound]
      cases found with
      | true => exact ⟨_, rfl⟩
      | false => exact matchesAny_ok doc filters h.2

end

end VedDb
