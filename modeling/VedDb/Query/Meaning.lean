import VedDb.Query.Parser

/-!
# What a filter means

A filter object holds of a document when all its keys do.  The parser returns at the first logical
operator and leaves out the other keys of the object; and it takes `$options` for an operator, which
it does not know.
-/

namespace VedDb

namespace QueryParser

/-! ## Meaning -/

/-- The second decision, where the first is positive. -/
def both {ε : Type} : Except ε Bool → Except ε Bool → Except ε Bool
  | .ok true, second => second
  | first, _ => first

/-- The second decision, where the first is negative. -/
def either {ε : Type} : Except ε Bool → Except ε Bool → Except ε Bool
  | .ok false, second => second
  | first, _ => first

/-- A key that stands for a logical operator. -/
def isLogical (key : String) : Bool := key.toList.head? = some '$'

variable (regex : RegexCrate) (doc : Document)

/-- An operator of a condition on a field holds.  The options belong to the regular expression
beside them. -/
def operatorHolds (field op : String) (val : JsonValue) (obj : List (String × JsonValue)) :
    Except QueryExecutionError Bool :=
  match op, val with
  | "$eq", val => matchesFilter regex doc (.eq field (jsonToValue val))
  | "$ne", val => matchesFilter regex doc (.ne field (jsonToValue val))
  | "$gt", val => matchesFilter regex doc (.gt field (jsonToValue val))
  | "$gte", val => matchesFilter regex doc (.gte field (jsonToValue val))
  | "$lt", val => matchesFilter regex doc (.lt field (jsonToValue val))
  | "$lte", val => matchesFilter regex doc (.lte field (jsonToValue val))
  | "$in", .array items => matchesFilter regex doc (.inValues field (jsonToValues items))
  | "$nin", .array items => matchesFilter regex doc (.nin field (jsonToValues items))
  | "$exists", .bool present => matchesFilter regex doc (.fieldExists field present)
  | "$regex", .string pattern =>
    matchesFilter regex doc
      (.regex field pattern ((obj.lookup "$options").bind JsonValue.asStr))
  | "$options", .string _ => .ok (obj.lookup "$regex").isSome
  | _, _ => .ok false

def operatorsHold (field : String) (obj : List (String × JsonValue)) :
    List (String × JsonValue) → Except QueryExecutionError Bool
  | [] => .ok true
  | (op, val) :: members =>
    both (operatorHolds regex doc field op val obj) (operatorsHold field obj members)

def conditionHolds (field : String) (value : JsonValue) : Except QueryExecutionError Bool :=
  match value with
  | .object [] => matchesFilter regex doc (.eq field (jsonToValue value))
  | .object obj => operatorsHold regex doc field obj obj
  | _ => matchesFilter regex doc (.eq field (jsonToValue value))

mutual

/-- A filter holds of a document: all keys of the object do.  Where a pattern is met that does not
compile, nothing is decided. -/
def holds : JsonValue → Except QueryExecutionError Bool
  | .object members => allKeysHold members
  | _ => .ok false

def allKeysHold : List (String × JsonValue) → Except QueryExecutionError Bool
  | [] => .ok true
  | (key, val) :: members =>
    both
      (if isLogical key then
        match key with
        | "$and" => match val with
            | .array items => allHold items
            | _ => .ok false
        | "$or" => match val with
            | .array items => anyHolds items
            | _ => .ok false
        | "$not" => (holds val).map (!·)
        | _ => .ok false
      else conditionHolds regex doc key val)
      (allKeysHold members)

def allHold : List JsonValue → Except QueryExecutionError Bool
  | [] => .ok true
  | item :: items => both (holds item) (allHold items)

def anyHolds : List JsonValue → Except QueryExecutionError Bool
  | [] => .ok false
  | item :: items => either (holds item) (anyHolds items)

end

/-! ## What the parser keeps -/

mutual

/-- A filter with only the first logical operator of each object that has one. -/
def kept : JsonValue → JsonValue
  | .object members => .object (keptMembers members members)
  | .array items => .array (keptItems items)
  | json => json

def keptMembers (all : List (String × JsonValue)) :
    List (String × JsonValue) → List (String × JsonValue)
  | [] => all
  | (key, val) :: members =>
    if isLogical key then [(key, kept val)] else keptMembers all members

def keptItems : List JsonValue → List JsonValue
  | [] => []
  | item :: items => kept item :: keptItems items

end

/-! ## Which filters are accepted -/

/-- An operator of a condition with an operand of its kind. -/
def supportedOperator (op : String) (val : JsonValue) (obj : List (String × JsonValue)) : Bool :=
  match op, val with
  | "$eq", _ | "$ne", _ | "$gt", _ | "$gte", _ | "$lt", _ | "$lte", _ => true
  | "$in", .array _ | "$nin", .array _ | "$exists", .bool _ | "$regex", .string _ => true
  | "$options", .string _ => (obj.lookup "$regex").isSome
  | _, _ => false

def supportedCondition : JsonValue → Bool
  | .object obj => obj.all fun member => supportedOperator member.1 member.2 obj
  | _ => true

mutual

/-- A filter that is made of supported operators. -/
def supported : JsonValue → Bool
  | .object members => supportedMembers members
  | _ => false

def supportedMembers : List (String × JsonValue) → Bool
  | [] => true
  | (key, val) :: members =>
    (if isLogical key then
      match key with
      | "$and" | "$or" => match val with
          | .array items => supportedItems items
          | _ => false
      | "$not" => supported val
      | _ => false
    else supportedCondition val) && supportedMembers members

def supportedItems : List JsonValue → Bool
  | [] => true
  | item :: items => supported item && supportedItems items

end

/-- A condition has options of a regular expression. -/
def hasOptions : JsonValue → Bool
  | .object obj => obj.any fun member => member.1 = "$options"
  | _ => false

mutual

/-- A condition with options stands before the first logical operator of its object, or in the
operands of that operator. -/
def reachesOptions : JsonValue → Bool
  | .object members => reachesInMembers members
  | .array items => reachesInItems items
  | _ => false

def reachesInMembers : List (String × JsonValue) → Bool
  | [] => false
  | (key, val) :: members =>
    if isLogical key then reachesOptions val else hasOptions val || reachesInMembers members

def reachesInItems : List JsonValue → Bool
  | [] => false
  | item :: items => reachesOptions item || reachesInItems items

end

/-! ## Decisions -/

section

variable {regex : RegexCrate} {doc : Document}

theorem both_eq_true_iff {ε : Type} {x y : Except ε Bool} :
    both x y = .ok true ↔ x = .ok true ∧ y = .ok true := by
  cases x with
  | error e => simp [both]
  | ok found =>
    cases found with
    | true => simp [both]
    | false => simp [both]

@[simp] theorem both_true {ε : Type} (x : Except ε Bool) : both x (.ok true) = x := by
  cases x with
  | error e => rfl
  | ok found =>
    cases found with
    | true => rfl
    | false => rfl

theorem allKeysHold_cons (key : String) (val : JsonValue) (members : List (String × JsonValue)) :
    allKeysHold regex doc ((key, val) :: members) =
      both (allKeysHold regex doc [(key, val)]) (allKeysHold regex doc members) := by
  rw [allKeysHold.eq_def, allKeysHold.eq_def regex doc [(key, val)]]
  dsimp only
  rw [allKeysHold.eq_def regex doc [], both_true]

theorem holds_object_iff {members : List (String × JsonValue)} :
    holds regex doc (.object members) = .ok true ↔
      ∀ member ∈ members, holds regex doc (.object [member]) = .ok true := by
  induction members with
  | nil => exact iff_of_true rfl (List.forall_mem_nil _)
  | cons member members ih =>
    obtain ⟨key, val⟩ := member
    rw [List.forall_mem_cons, ← ih, holds, holds, holds, allKeysHold_cons, both_eq_true_iff]

/-! ## Lists of filters -/

theorem matchesAll_cons (filter : Filter) (filters : List Filter) :
    matchesAll regex doc (filter :: filters) =
      both (matchesFilter regex doc filter) (matchesAll regex doc filters) := by
  rw [matchesAll]
  cases matchesFilter regex doc filter with
  | error e => rfl
  | ok found =>
    cases found with
    | true => rfl
    | false => rfl

theorem matchesAny_cons (filter : Filter) (filters : List Filter) :
    matchesAny regex doc (filter :: filters) =
      either (matchesFilter regex doc filter) (matchesAny regex doc filters) := by
  rw [matchesAny]
  cases matchesFilter regex doc filter with
  | error e => rfl
  | ok found =>
    cases found with
    | true => rfl
    | false => rfl

theorem both_assoc {ε : Type} (x y z : Except ε Bool) : both (both x y) z = both x (both y z) := by
  cases x with
  | error e => rfl
  | ok found =>
    cases found with
    | true => rfl
    | false => rfl

theorem matchesAll_append (first rest : List Filter) :
    matchesAll regex doc (first ++ rest) =
      both (matchesAll regex doc first) (matchesAll regex doc rest) := by
  induction first with
  | nil => rfl
  | cons filter first ih => rw [List.cons_append, matchesAll_cons, matchesAll_cons, ih, both_assoc]

theorem matchesFilter_combine (filters : List Filter) :
    matchesFilter regex doc (combine filters) = matchesAll regex doc filters := by
  rw [combine.eq_def]
  split
  · rw [matchesAll_cons, matchesAll, both_true]
  · rw [matchesFilter]

end

section

variable {regex : RegexCrate} {doc : Document}

/-! ## Conditions on a field -/

theorem map_eq_ok_iff {ε α β : Type} {f : α → β} {x : Except ε α} {b : β} :
    x.map f = .ok b ↔ ∃ a, x = .ok a ∧ f a = b := by
  cases x with
  | error e => simp [Except.map]
  | ok a => simp [Except.map]

theorem parseOperator_means {field op : String} {val : JsonValue}
    {obj : List (String × JsonValue)} {filter : Filter}
    (h : parseOperator field op val obj = .ok filter) :
    matchesFilter regex doc filter = operatorHolds regex doc field op val obj := by
  unfold parseOperator at h
  unfold operatorHolds
  split at h
  case h_7 | h_8 =>
    cases val with
    | array items =>
      cases h
      rfl
    | _ => cases h
  case h_9 =>
    cases val with
    | bool present =>
      cases h
      rfl
    | _ => cases h
  case h_10 =>
    cases val with
    | string pattern =>
      cases h
      rfl
    | _ => cases h
  case h_11 => cases h
  all_goals
    cases h
    rfl

theorem parseOperators_means {field : String} {obj : List (String × JsonValue)} :
    ∀ {members : List (String × JsonValue)} {filters : List Filter},
    parseOperators field obj members = .ok filters →
    matchesAll regex doc filters = operatorsHold regex doc field obj members := by
  intro members
  induction members with
  | nil =>
    intro filters h
    cases h
    rfl
  | cons member members ih =>
    intro filters h
    obtain ⟨op, val⟩ := member
    rw [parseOperators] at h
    split at h
    next => cases h
    next filter hop =>
      obtain ⟨rest, hrest, rfl⟩ := map_eq_ok_iff.mp h
      rw [matchesAll_cons, parseOperator_means hop, ih hrest, operatorsHold]

theorem parseFieldCondition_means {field : String} {value : JsonValue} {filter : Filter}
    (h : parseFieldCondition field value = .ok filter) :
    matchesFilter regex doc filter = conditionHolds regex doc field value := by
  cases value with
  | object obj =>
    cases obj with
    | nil =>
      cases h
      rfl
    | cons member obj =>
      rw [parseFieldCondition] at h
      · obtain ⟨filters, hops, rfl⟩ := map_eq_ok_iff.mp h
        rw [matchesFilter_combine, parseOperators_means hops, conditionHolds]
        intro hnil
        cases hnil
      · intro hnil
        cases hnil
  | _ =>
    cases h
    rfl

/-! ## Filters -/

/-- Whether an object has a logical operator. -/
def hasLogical (members : List (String × JsonValue)) : Bool :=
  members.any fun member => isLogical member.1

theorem hasLogical_cons (key : String) (val : JsonValue) (members : List (String × JsonValue)) :
    hasLogical ((key, val) :: members) = (isLogical key || hasLogical members) := rfl

theorem keptMembers_of_no_logical (all : List (String × JsonValue)) :
    ∀ members : List (String × JsonValue), hasLogical members = false →
      keptMembers all members = all := by
  intro members h
  induction members with
  | nil => rfl
  | cons member members ih =>
    obtain ⟨key, val⟩ := member
    rw [hasLogical_cons, Bool.or_eq_false_iff] at h
    rw [keptMembers, h.1, if_neg Bool.false_ne_true]
    exact ih h.2

theorem parseConditions_cons_logical {key : String} {val : JsonValue}
    {members : List (String × JsonValue)} {filters : List Filter} :
    isLogical key = true → parseConditions ((key, val) :: members) filters =
      match key with
      | "$and" => match val with
          | .array items => (parseFilters items).map Filter.and
          | _ => .error (.invalidFormat "$and must be an array")
      | "$or" => match val with
          | .array items => (parseFilters items).map Filter.or
          | _ => .error (.invalidFormat "$or must be an array")
      | "$not" => (parseFilter val).map Filter.not
      | _ => .error (.unsupportedOperator key) := by
  intro h
  rw [parseConditions.eq_def]
  dsimp only
  exact if_pos (of_decide_eq_true h)

theorem parseConditions_cons_field {key : String} {val : JsonValue}
    {members : List (String × JsonValue)} {filters : List Filter} (h : isLogical key = false) :
    parseConditions ((key, val) :: members) filters =
      match parseFieldCondition key val with
      | .error error => .error error
      | .ok filter => parseConditions members (filters ++ [filter]) := by
  rw [parseConditions.eq_def]
  dsimp only
  exact if_neg (of_decide_eq_false h)

theorem allKeysHold_logical {key : String} {val : JsonValue} :
    isLogical key = true → allKeysHold regex doc [(key, val)] =
      match key with
      | "$and" => match val with
          | .array items => allHold regex doc items
          | _ => .ok false
      | "$or" => match val with
          | .array items => anyHolds regex doc items
          | _ => .ok false
      | "$not" => (holds regex doc val).map (!·)
      | _ => .ok false := by
  intro h
  rw [allKeysHold.eq_def]
  dsimp only
  rw [if_pos h, allKeysHold, both_true]

theorem allKeysHold_field {key : String} {val : JsonValue} (h : isLogical key = false) :
    allKeysHold regex doc [(key, val)] = conditionHolds regex doc key val := by
  rw [allKeysHold.eq_def]
  dsimp only
  rw [h, allKeysHold, both_true]
  rfl

mutual

theorem parseFilter_means : ∀ (json : JsonValue) {filter : Filter},
    parseFilter json = .ok filter →
      matchesFilter regex doc filter = holds regex doc (kept json)
  | .object members, filter, h => by
      rw [parseFilter] at h
      rw [kept, holds]
      split at h
      next hempty =>
        rw [List.isEmpty_iff.mp hempty]
        cases h
        rfl
      next =>
        rw [parseConditions_means members members h]
        split
        next => rfl
        next hnone =>
          rw [keptMembers_of_no_logical members members (by simpa using hnone)]
          rfl
  | .null, _, h | .bool _, _, h | .number _, _, h | .string _, _, h | .array _, _, h => by cases h

theorem parseConditions_means (all : List (String × JsonValue)) :
    ∀ (members : List (String × JsonValue)) {filters : List Filter} {filter : Filter},
    parseConditions members filters = .ok filter →
      matchesFilter regex doc filter =
        if hasLogical members then allKeysHold regex doc (keptMembers all members)
        else both (matchesAll regex doc filters) (allKeysHold regex doc members)
  | [], filters, filter, h => by
      cases h
      rw [matchesFilter_combine]
      exact (both_true _).symm
  | (key, val) :: members, filters, filter, h => by
      cases hkey : isLogical key with
      | true =>
        rw [parseConditions_cons_logical hkey] at h
        rw [hasLogical_cons, hkey, Bool.true_or, if_pos rfl, keptMembers, if_pos hkey,
          allKeysHold_logical hkey]
        split at h
        next =>
          cases val with
          | array items =>
            obtain ⟨subFilters, hitems, rfl⟩ := map_eq_ok_iff.mp h
            exact (parseFilters_means items hitems).1
          | _ => cases h
        next =>
          cases val with
          | array items =>
            obtain ⟨subFilters, hitems, rfl⟩ := map_eq_ok_iff.mp h
            exact (parseFilters_means items hitems).2
          | _ => cases h
        next =>
          obtain ⟨subFilter, hval, rfl⟩ := map_eq_ok_iff.mp h
          rw [matchesFilter, parseFilter_means val hval]
        next => cases h
      | false =>
        rw [parseConditions_cons_field hkey] at h
        split at h
        next => cases h
        next condition hcondition =>
          rw [parseConditions_means all members h, hasLogical_cons, hkey, Bool.false_or,
            keptMembers, hkey, if_neg Bool.false_ne_true, matchesAll_append, matchesAll_cons,
            matchesAll, both_true, parseFieldCondition_means hcondition, both_assoc,
            allKeysHold_cons, allKeysHold_field hkey]

theorem parseFilters_means : ∀ (items : List JsonValue) {filters : List Filter},
    parseFilters items = .ok filters →
      matchesAll regex doc filters = allHold regex doc (keptItems items) ∧
      matchesAny regex doc filters = anyHolds regex doc (keptItems items)
  | [], filters, h => by
      cases h
      exact ⟨rfl, rfl⟩
  | item :: items, filters, h => by
      rw [parseFilters] at h
      split at h
      next => cases h
      next filter hitem =>
        obtain ⟨rest, hrest, rfl⟩ := map_eq_ok_iff.mp h
        have hfilter := parseFilter_means item hitem
        obtain ⟨hall, hany⟩ := parseFilters_means items hrest
        rw [matchesAll_cons, matchesAny_cons, hfilter, hall, hany, keptItems, allHold, anyHolds]
        exact ⟨rfl, rfl⟩

end

end

/-! ## Acceptance -/

theorem exists_map_eq_ok_iff {ε α β : Type} {f : α → β} {x : Except ε α} :
    (∃ b, x.map f = .ok b) ↔ ∃ a, x = .ok a := by
  constructor
  · rintro ⟨b, hb⟩
    obtain ⟨a, ha, -⟩ := map_eq_ok_iff.mp hb
    exact ⟨a, ha⟩
  · rintro ⟨a, ha⟩
    exact ⟨f a, map_eq_ok_iff.mpr ⟨a, ha, rfl⟩⟩

theorem parseOperator_accepts (field : String) {op : String} {val : JsonValue}
    {obj : List (String × JsonValue)} (h : supportedOperator op val obj = true) :
    (∃ filter, parseOperator field op val obj = .ok filter) ↔ op ≠ "$options" := by
  unfold supportedOperator at h
  split at h
  case h_11 => exact iff_of_false (by rintro ⟨filter, hop⟩; cases hop) (by decide)
  case h_12 => cases h
  all_goals exact iff_of_true ⟨_, rfl⟩ (by decide)

theorem parseOperators_accepts {field : String} {obj : List (String × JsonValue)} :
    ∀ {members : List (String × JsonValue)},
    (∀ member ∈ members, supportedOperator member.1 member.2 obj = true) →
    ((∃ filters, parseOperators field obj members = .ok filters) ↔
      ∀ member ∈ members, member.1 ≠ "$options") := by
  intro members h
  induction members with
  | nil => exact iff_of_true ⟨[], rfl⟩ (List.forall_mem_nil _)
  | cons member members ih =>
    obtain ⟨op, val⟩ := member
    rw [List.forall_mem_cons] at h ⊢
    rw [← parseOperator_accepts field h.1, ← ih h.2, parseOperators]
    cases parseOperator field op val obj with
    | error e => simp
    | ok filter => simp [exists_map_eq_ok_iff]

theorem parseFieldCondition_accepts (field : String) {value : JsonValue}
    (h : supportedCondition value = true) :
    (∃ filter, parseFieldCondition field value = .ok filter) ↔ hasOptions value = false := by
  cases value with
  | object obj =>
    cases obj with
    | nil => exact iff_of_true ⟨_, rfl⟩ rfl
    | cons member obj =>
      rw [parseFieldCondition, exists_map_eq_ok_iff,
        parseOperators_accepts (List.all_eq_true.mp h), hasOptions, List.any_eq_false]
      · simp only [decide_eq_true_eq, ne_eq]
      · intro hnil
        cases hnil
  | _ => exact iff_of_true ⟨_, rfl⟩ rfl

mutual

theorem parseFilter_accepts : ∀ json : JsonValue, supported json = true →
    ((∃ filter, parseFilter json = .ok filter) ↔ reachesOptions json = false)
  | .object members, h => by
      rw [parseFilter, reachesOptions]
      split
      next hempty =>
        rw [List.isEmpty_iff.mp hempty]
        exact iff_of_true ⟨_, rfl⟩ rfl
      next => exact parseConditions_accepts members [] h
  | .null, h | .bool _, h | .number _, h | .string _, h | .array _, h => by cases h

theorem parseConditions_accepts : ∀ (members : List (String × JsonValue)) (filters : List Filter),
    supportedMembers members = true →
      ((∃ filter, parseConditions members filters = .ok filter) ↔
        reachesInMembers members = false)
  | [], filters, _ => iff_of_true ⟨_, rfl⟩ rfl
  | (key, val) :: members, filters, h => by
      rw [supportedMembers.eq_def] at h
      dsimp only at h
      rw [Bool.and_eq_true] at h
      obtain ⟨hown, hmembers⟩ := h
      cases hkey : isLogical key with
      | true =>
        rw [if_pos hkey] at hown
        rw [parseConditions_cons_logical hkey, reachesInMembers, if_pos hkey]
        split at hown
        next =>
          cases val with
          | array items =>
            rw [reachesOptions, ← parseFilters_accepts items hown]
            exact exists_map_eq_ok_iff
          | _ => cases hown
        next =>
          cases val with
          | array items =>
            rw [reachesOptions, ← parseFilters_accepts items hown]
            exact exists_map_eq_ok_iff
          | _ => cases hown
        next =>
          rw [← parseFilter_accepts val hown]
          exact exists_map_eq_ok_iff
        next => cases hown
      | false =>
        rw [hkey, if_neg Bool.false_ne_true] at hown
        rw [parseConditions_cons_field hkey, reachesInMembers, hkey, if_neg Bool.false_ne_true,
          Bool.or_eq_false_iff, ← parseFieldCondition_accepts key hown]
        cases parseFieldCondition key val with
        | error e => simp
        | ok condition =>
          rw [parseConditions_accepts members (filters ++ [condition]) hmembers]
          simp

theorem parseFilters_accepts : ∀ items : List JsonValue, supportedItems items = true →
    ((∃ filters, parseFilters items = .ok filters) ↔ reachesInItems items = false)
  | [], _ => iff_of_true ⟨_, rfl⟩ rfl
  | item :: items, h => by
      rw [supportedItems, Bool.and_eq_true] at h
      rw [reachesInItems, Bool.or_eq_false_iff, ← parseFilter_accepts item h.1,
        ← parseFilters_accepts items h.2, parseFilters]
      cases parseFilter item with
      | error e => simp
      | ok filter => simp [exists_map_eq_ok_iff]

end

/-! ## Parsed filters -/

/-- A parsed filter holds of a document exactly when the JSON filter does, if and only if leaving
out all but the first logical operator of each object makes no difference to that; and a filter of
supported operators is accepted if and only if the parser reaches no options. -/
theorem parseFilter_means_iff (regex : RegexCrate) (json : JsonValue) :
    (∀ filter, parseFilter json = .ok filter → ∀ doc,
      ((matchesFilter regex doc filter = .ok true ↔ holds regex doc json = .ok true) ↔
        (holds regex doc (kept json) = .ok true ↔ holds regex doc json = .ok true))) ∧
    (supported json = true →
      ((∃ filter, parseFilter json = .ok filter) ↔ reachesOptions json = false)) := by
  refine ⟨fun filter hparse doc => ?_, parseFilter_accepts json⟩
  rw [parseFilter_means json hparse]

/-- A document without fields is found by a filter that asks for a field beside a negation, and the
options of a regular expression are refused. -/
theorem parseFilter_drops_key :
    (∃ filter,
      parseFilter (.object [("$not", .object [("role", .string "admin")]),
        ("active", .bool false)]) = .ok filter ∧
      matchesFilter { compile := fun _ => .error "" }
        { id := ⟨0⟩, fields := ∅, metadata := .default 0 } filter = .ok true ∧
      holds { compile := fun _ => .error "" } { id := ⟨0⟩, fields := ∅, metadata := .default 0 }
        (.object [("$not", .object [("role", .string "admin")]), ("active", .bool false)]) =
          .ok false) ∧
    supported (.object [("name", .object [("$options", .string "i"),
      ("$regex", .string "^a")])]) = true ∧
    parseFilter (.object [("name", .object [("$options", .string "i"),
      ("$regex", .string "^a")])]) = .error (.unsupportedOperator "$options") :=
  ⟨⟨.not (.eq "role" (.string "admin")), rfl, rfl, rfl⟩, by decide, rfl⟩

end QueryParser

end VedDb
