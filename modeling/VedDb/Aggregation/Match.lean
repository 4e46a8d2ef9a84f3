import VedDb.Aggregation.Widths
import VedDb.Query.Meaning

/-!
# The match stage

`Pipeline::apply_match` of `aggregation.rs` interprets the filters that `QueryParser` parses for
queries.  It looks for a field under the name of each key, logical operators among them, takes the
first operator of a condition that it knows and leaves out the others.
-/

namespace VedDb

open QueryParser

namespace Pipeline

/-! ## The stage -/

/-- The loop of `value_matches` over the operators of a condition: the first one it knows
decides. -/
def matchOperators (a : Value) : List (String × Value) → Option Bool
  | [] => none
  | (op, val) :: obj =>
    match op with
    | "$eq" => some (a.eq val)
    | "$ne" => some (!a.eq val)
    | "$gt" => some (compareValues (some a) (some val) == .gt)
    | "$gte" =>
      let cmp := compareValues (some a) (some val)
      some (cmp == .gt || cmp == .eq)
    | "$lt" => some (compareValues (some a) (some val) == .lt)
    | "$lte" =>
      let cmp := compareValues (some a) (some val)
      some (cmp == .lt || cmp == .eq)
    | "$in" =>
      match val with
      | .array arr => some (arr.any fun item => item.eq a)
      | _ => some false
    | _ => matchOperators a obj

def valueMatches (actual : Option Value) (expected : Value) : Bool :=
  match actual with
  | some a =>
    match expected with
    | .object obj => (matchOperators a obj).getD (a.eq expected)
    | _ => a.eq expected
  | none => false

def matchesFilter (doc : Document) (filter : Value) : Bool :=
  match filter with
  | .object filterObj => filterObj.all fun member => valueMatches doc.fields[member.1]? member.2
  | _ => false

def jsonToDocValue (json : JsonValue) : Value := json.toValue

def applyMatch (docs : List Document) (filter : JsonValue) : List Document :=
  docs.filter fun doc => matchesFilter doc (jsonToDocValue filter)

/-! ## What a key asks for -/

/-- The operators that `$match` knows. -/
def knows (op : String) : Bool :=
  ["$eq", "$ne", "$gt", "$gte", "$lt", "$lte", "$in"].contains op

/-- An operator of `$match` on the value of a field, in the terms of a query. -/
def stageTest (value : Value) (op : String) (operand : JsonValue) : Bool :=
  match op with
  | "$eq" => value.sameAs operand && value.isWide
  | "$ne" => !(value.sameAs operand && value.isWide)
  | "$gt" => value.ordersWith operand && VedDb.compareValues value (jsonToValue operand) == .gt
  | "$gte" => !value.ordersWith operand || VedDb.compareValues value (jsonToValue operand) != .lt
  | "$lt" => value.ordersWith operand && VedDb.compareValues value (jsonToValue operand) == .lt
  | "$lte" => !value.ordersWith operand || VedDb.compareValues value (jsonToValue operand) != .gt
  | "$in" =>
    match operand with
    | .array items => items.any value.sameAs && value.isWide
    | _ => false
  | _ => false

/-- The operator of a condition that `$match` looks at. -/
def firstKnown : JsonValue → Option (String × JsonValue)
  | .object obj => obj.find? fun member => knows member.1
  | _ => none

/-- What `$match` asks of a key: there is a field of that name, and it meets the first operator that
`$match` knows or, where there is none, is the operand itself. -/
def StageAccepts (doc : Document) (member : String × JsonValue) : Prop :=
  ∃ value, doc.fields[member.1]? = some value ∧
    match firstKnown member.2 with
    | some (op, operand) => stageTest value op operand = true
    | none => (value.sameAs member.2 && value.isWide) = true

/-- What a query asks of a key: its condition holds at the path.  Where a filter has a logical
operator, only the first one asks for something, without what the parser leaves out of it. -/
def QueryAccepts (regex : RegexCrate) (doc : Document) (members : List (String × JsonValue))
    (member : String × JsonValue) : Prop :=
  if hasLogical members then
    members.find? (fun member => isLogical member.1) = some member →
      holds regex doc (kept (.object [member])) = .ok true
  else holds regex doc (.object [member]) = .ok true

/-! ## What the stage decides -/

/-- A strict comparison of the stage. -/
theorem strict_eq {value : Value} {operand : JsonValue} (order : Ordering) (h : order ≠ .eq) :
    (compareValues (some value) (some operand.toValue) == order) =
      (value.ordersWith operand && VedDb.compareValues value (jsonToValue operand) == order) := by
  rw [Value.compareValues_toValue]
  cases value.ordersWith operand with
  | true => rfl
  | false => exact beq_eq_false_iff_ne.mpr h.symm

/-- A comparison of the stage that equal values meet. -/
theorem weak_eq {value : Value} {operand : JsonValue} (order : Ordering) (h : order ≠ .eq) :
    (compareValues (some value) (some operand.toValue) == order ||
        compareValues (some value) (some operand.toValue) == .eq) =
      (!value.ordersWith operand ||
        VedDb.compareValues value (jsonToValue operand) != order.swap) := by
  rw [Value.compareValues_toValue]
  cases value.ordersWith operand with
  | true =>
    rw [if_pos rfl]
    cases VedDb.compareValues value (jsonToValue operand) <;> cases order <;>
      first | rfl | exact absurd rfl h
  | false =>
    rw [if_neg Bool.false_ne_true]
    exact Bool.or_true _

/-- The items of an operand of `$in`. -/
theorem any_toValues (value : Value) (items : List JsonValue) :
    (JsonValue.toValues items).any (fun item => item.eq value) =
      (items.any value.sameAs && value.isWide) := by
  induction items with
  | nil => rfl
  | cons item items ih =>
    rw [JsonValue.toValues, List.any_cons, List.any_cons, ih, Value.eq_comm, Value.eq_toValue,
      Bool.and_or_distrib_right]

theorem matchOperators_toFields (a : Value) (obj : List (String × JsonValue)) :
    matchOperators a (JsonValue.toFields obj) =
      (obj.find? fun member => knows member.1).map fun member =>
        stageTest a member.1 member.2 := by
  induction obj with
  | nil => rfl
  | cons member obj ih =>
    obtain ⟨op, operand⟩ := member
    rw [JsonValue.toFields, matchOperators.eq_def]
    dsimp only
    split
    next => exact congrArg some (Value.eq_toValue a operand)
    next => exact congrArg some (congrArg (!·) (Value.eq_toValue a operand))
    next => exact congrArg some (strict_eq .gt (by decide))
    next => exact congrArg some (weak_eq .gt (by decide))
    next => exact congrArg some (strict_eq .lt (by decide))
    next => exact congrArg some (weak_eq .lt (by decide))
    next =>
      cases operand with
      | array items => exact congrArg some (any_toValues a items)
      | number n =>
        rw [JsonValue.toValue]
        cases n.asInt64 with
        | none => rfl
        | some i => rfl
      | _ => rfl
    next =>
      have hunknown : ¬knows op = true := by
        simp only [knows, List.contains_cons, List.contains_nil, Bool.or_eq_true, beq_iff_eq,
          Bool.false_eq_true, or_false]
        tauto
      refine ih.trans ?_
      rw [List.find?_cons, Bool.not_eq_true _ |>.mp hunknown]

theorem valueMatches_eq (doc : Document) (member : String × JsonValue) :
    valueMatches doc.fields[member.1]? member.2.toValue = true ↔ StageAccepts doc member := by
  rw [StageAccepts]
  cases doc.fields[member.1]? with
  | none => simp [valueMatches]
  | some value =>
    have hown := Value.eq_toValue value member.2
    simp only [Option.some.injEq, exists_eq_left']
    cases hoperand : member.2 with
    | object obj =>
      have hobj : valueMatches (some value) (JsonValue.object obj).toValue =
          (matchOperators value (JsonValue.toFields obj)).getD
            (value.eq (JsonValue.object obj).toValue) := rfl
      rw [hoperand] at hown
      rw [hobj, hown, firstKnown, matchOperators_toFields]
      cases obj.find? fun member => knows member.1 with
      | none => rfl
      | some known => rfl
    | number n =>
      have hnumber : valueMatches (some value) (JsonValue.number n).toValue =
          value.eq (JsonValue.number n).toValue := by
        rw [JsonValue.toValue]
        cases n.asInt64 with
        | none => rfl
        | some i => rfl
      rw [hoperand] at hown
      exact Bool.eq_iff_iff.mp (hnumber.trans hown)
    | _ =>
      rw [hoperand] at hown
      exact Bool.eq_iff_iff.mp hown

/-- The stage asks something of each key. -/
theorem matchesFilter_iff {doc : Document} {members : List (String × JsonValue)} :
    matchesFilter doc (jsonToDocValue (.object members)) = true ↔
      ∀ member ∈ members, StageAccepts doc member := by
  have hfields : JsonValue.toFields members =
      members.map fun member => (member.1, member.2.toValue) := by
    induction members with
    | nil => rfl
    | cons member members ih => rw [JsonValue.toFields, ih, List.map_cons]
  rw [jsonToDocValue, JsonValue.toValue, matchesFilter, hfields, List.all_map, List.all_eq_true]
  exact forall₂_congr fun member _ => valueMatches_eq doc member

/-! ## What a query decides -/

theorem keptMembers_of_find {member : String × JsonValue} (all : List (String × JsonValue)) :
    ∀ {members : List (String × JsonValue)},
    members.find? (fun member => isLogical member.1) = some member →
      keptMembers all members = keptMembers [member] [member]
  | [], h => by cases h
  | (key, val) :: members, h => by
      rw [List.find?_cons] at h
      rw [keptMembers]
      cases hkey : isLogical key with
      | true =>
        simp only [hkey, Option.some.injEq] at h
        rw [if_pos rfl, ← h, keptMembers, hkey, if_pos rfl]
      | false =>
        simp only [hkey] at h
        rw [if_neg Bool.false_ne_true]
        exact keptMembers_of_find all h

/-- The query asks something of each key too. -/
theorem queryAccepts_iff {regex : RegexCrate} {doc : Document}
    {members : List (String × JsonValue)} {filter : Filter}
    (h : parseFilter (.object members) = .ok filter) :
    VedDb.matchesFilter regex doc filter = .ok true ↔
      ∀ member ∈ members, QueryAccepts regex doc members member := by
  rw [parseFilter_means _ h, kept]
  simp only [QueryAccepts]
  cases hlogical : hasLogical members with
  | false =>
    rw [keptMembers_of_no_logical members members hlogical]
    exact holds_object_iff
  | true =>
    obtain ⟨member, hfind⟩ : ∃ member,
        members.find? (fun member => isLogical member.1) = some member := by
      rw [← Option.isSome_iff_exists, List.find?_isSome]
      exact List.any_eq_true.mp hlogical
    simp only [if_true]
    rw [keptMembers_of_find members hfind, ← kept]
    constructor
    · intro hholds other _ hother
      rw [hfind] at hother
      rwa [← Option.some.inj hother]
    · intro hall
      exact hall member (List.mem_of_find?_eq_some hfind) hfind

/-! ## Keys with one test -/

/-- Where the stage and a query judge the value of a field differently by one operator: the value is
the operand up to the widths of whole numbers, and has the widths of one conversion only; or the
query has an order for the two that the stage does not have, and the operator looks for it. -/
def Misjudges (value : Value) (op : String) (operand : JsonValue) : Prop :=
  match op with
  | "$eq" | "$ne" => value.sameAs operand = true ∧ value.isWide ≠ value.isNarrow
  | "$in" =>
    match operand with
    | .array items => items.any value.sameAs = true ∧ value.isWide ≠ value.isNarrow
    | _ => False
  | "$gt" | "$lte" =>
    value.ordersWith operand = false ∧ VedDb.compareValues value (jsonToValue operand) = .gt
  | "$gte" | "$lt" =>
    value.ordersWith operand = false ∧ VedDb.compareValues value (jsonToValue operand) = .lt
  | _ => False

theorem any_jsonToValues (value : Value) (items : List JsonValue) :
    (jsonToValues items).any (fun item => item.eq value) =
      (items.any value.sameAs && value.isNarrow) := by
  induction items with
  | nil => rfl
  | cons item items ih =>
    rw [jsonToValues, List.any_cons, List.any_cons, ih, Value.eq_comm, Value.eq_jsonToValue,
      Bool.and_or_distrib_right]

theorem widths_iff : ∀ same wide narrow : Bool,
    ((same && wide) = true ↔ (same && narrow) = true) ↔ ¬(same = true ∧ wide ≠ narrow) := by
  decide

theorem strict_iff (orders : Bool) (cmp order : Ordering) :
    ((orders && cmp == order) = true ↔ (cmp == order) = true) ↔
      ¬(orders = false ∧ cmp = order) := by
  cases orders with
  | true => simp
  | false => simp

theorem weak_iff (orders : Bool) (cmp order : Ordering) :
    ((!orders || cmp != order) = true ↔ (cmp != order) = true) ↔
      ¬(orders = false ∧ cmp = order) := by
  cases orders with
  | true => simp
  | false => simp

/-- The test of the stage and the one of a query come out alike where they do not judge the value
differently. -/
theorem test_iff {regex : RegexCrate} {doc : Document} {field op : String}
    {operand : JsonValue} {obj : List (String × JsonValue)} {value : Value}
    (hknown : knows op = true) (hvalue : doc.getByPath field = some value) :
    (stageTest value op operand = true ↔
        operatorHolds regex doc field op operand obj = .ok true) ↔
      ¬Misjudges value op operand := by
  simp only [knows, List.contains_cons, List.contains_nil, Bool.or_eq_true, beq_iff_eq,
    Bool.false_eq_true, or_false] at hknown
  rcases hknown with rfl | rfl | rfl | rfl | rfl | rfl | rfl
  case inr.inr.inr.inr.inr.inr =>
    cases operand with
    | array items =>
      simp only [stageTest, operatorHolds, VedDb.matchesFilter, Misjudges, hvalue,
        Option.any_some, any_jsonToValues, Except.ok.injEq]
      exact widths_iff _ _ _
    | _ => simp [stageTest, operatorHolds, Misjudges]
  all_goals
    simp only [stageTest, operatorHolds, VedDb.matchesFilter, Misjudges, hvalue, Option.any_some,
      Value.eq_jsonToValue, Except.ok.injEq]
  · exact widths_iff _ _ _
  · simp only [Bool.not_eq_true', ← Bool.not_eq_true, not_iff_not]
    exact widths_iff _ _ _
  · exact strict_iff _ _ _
  · exact weak_iff _ _ _
  · exact strict_iff _ _ _
  · exact weak_iff _ _ _

theorem operatorHolds_missing_iff {regex : RegexCrate} {doc : Document} {field op : String}
    {operand : JsonValue} {obj : List (String × JsonValue)} (hknown : knows op = true)
    (hvalue : doc.getByPath field = none) :
    operatorHolds regex doc field op operand obj = .ok true ↔ op = "$ne" := by
  simp only [knows, List.contains_cons, List.contains_nil, Bool.or_eq_true, beq_iff_eq,
    Bool.false_eq_true, or_false] at hknown
  rcases hknown with rfl | rfl | rfl | rfl | rfl | rfl | rfl
  case inr.inr.inr.inr.inr.inr =>
    cases operand with
    | array items => simp [operatorHolds, VedDb.matchesFilter, hvalue]
    | _ => simp [operatorHolds]
  all_goals simp [operatorHolds, VedDb.matchesFilter, hvalue]

/-- The one test of a condition: its only operator, or the equality with a value. -/
def soleTest : JsonValue → Option (String × JsonValue)
  | .object [(op, operand)] => if knows op then some (op, operand) else none
  | .object (_ :: _ :: _) => none
  | value => some ("$eq", value)

/-- A key that names a field, without dots, and has one test that `$match` knows too. -/
def Plain (member : String × JsonValue) : Prop :=
  isLogical member.1 = false ∧ '.' ∉ member.1.toList ∧ (soleTest member.2).isSome = true

/-- The stage and a query judge a plain key differently: the field is missing and is asked to be
another value, or its value is misjudged. -/
def Misjudged (doc : Document) (member : String × JsonValue) : Prop :=
  ∃ op operand, soleTest member.2 = some (op, operand) ∧
    match doc.fields[member.1]? with
    | none => op = "$ne"
    | some value => Misjudges value op operand

theorem soleTest_cases {condition operand : JsonValue} {op : String}
    (h : soleTest condition = some (op, operand)) :
    (knows op = true ∧ condition = .object [(op, operand)]) ∨
      (op = "$eq" ∧ operand = condition ∧ ∀ first rest, condition ≠ .object (first :: rest)) := by
  cases condition with
  | object obj =>
    cases obj with
    | nil =>
      cases h
      exact .inr ⟨rfl, rfl, by simp⟩
    | cons first rest =>
      cases rest with
      | nil =>
        rw [soleTest] at h
        split at h
        next hknown =>
          cases h
          exact .inl ⟨hknown, rfl⟩
        next => cases h
      | cons second rest => cases h
  | _ =>
    cases h
    exact .inr ⟨rfl, rfl, by simp⟩

theorem stageAccepts_plain {doc : Document} {key op : String} {condition operand : JsonValue}
    (h : soleTest condition = some (op, operand)) :
    StageAccepts doc (key, condition) ↔
      ∃ value, doc.fields[key]? = some value ∧ stageTest value op operand = true := by
  rw [StageAccepts]
  rcases soleTest_cases h with ⟨hknown, rfl⟩ | ⟨rfl, rfl, hvalue⟩
  · rw [firstKnown, List.find?_cons, hknown]
  · have hnone : firstKnown operand = none := by
      cases operand with
      | object obj =>
        cases obj with
        | nil => rfl
        | cons first rest => exact absurd rfl (hvalue first rest)
      | _ => rfl
    rw [hnone]
    rfl

/-- So does a query. -/
theorem conditionHolds_plain {regex : RegexCrate} {doc : Document} {key op : String}
    {condition operand : JsonValue} (h : soleTest condition = some (op, operand)) :
    ∃ obj, conditionHolds regex doc key condition =
      operatorHolds regex doc key op operand obj := by
  rcases soleTest_cases h with ⟨-, rfl⟩ | ⟨rfl, rfl, hvalue⟩
  · refine ⟨[(op, operand)], ?_⟩
    rw [conditionHolds, operatorsHold, operatorsHold, both_true]
    intro hnil
    cases hnil
  · refine ⟨[], ?_⟩
    cases operand with
    | object obj =>
      cases obj with
      | nil => rfl
      | cons first rest => exact absurd rfl (hvalue first rest)
    | _ => rfl

theorem plain_alike_iff {regex : RegexCrate} {doc : Document} {member : String × JsonValue}
    {members : List (String × JsonValue)} (hplain : Plain member)
    (hmembers : hasLogical members = false) :
    (StageAccepts doc member ↔ QueryAccepts regex doc members member) ↔
      ¬Misjudged doc member := by
  obtain ⟨key, condition⟩ := member
  obtain ⟨hkey, hdot, htest⟩ := hplain
  obtain ⟨⟨op, operand⟩, htest⟩ := Option.isSome_iff_exists.mp htest
  have hknown : knows op = true := by
    rcases soleTest_cases htest with ⟨hknown, -⟩ | ⟨rfl, -⟩
    · exact hknown
    · rfl
  have hpath : doc.getByPath key = doc.fields[key]? := Fields.getByPath_of_no_dot hdot doc.fields
  obtain ⟨obj, hcondition⟩ : ∃ obj, conditionHolds regex doc key condition =
      operatorHolds regex doc key op operand obj := conditionHolds_plain htest
  have hquery : QueryAccepts regex doc members (key, condition) ↔
      operatorHolds regex doc key op operand obj = .ok true := by
    rw [QueryAccepts, hmembers, if_neg Bool.false_ne_true, holds, allKeysHold_field hkey,
      hcondition]
  have hmisjudged : Misjudged doc (key, condition) ↔
      match doc.fields[key]? with
      | none => op = "$ne"
      | some value => Misjudges value op operand := by
    simp only [Misjudged, htest, Option.some.injEq, Prod.mk.injEq, and_assoc, exists_and_left,
      exists_eq_left']
  rw [hquery, hmisjudged, stageAccepts_plain htest]
  cases hfield : doc.fields[key]? with
  | some value =>
    rw [hfield] at hpath
    simp only [Option.some.injEq, exists_eq_left']
    exact test_iff hknown hpath
  | none =>
    rw [hfield] at hpath
    have hstage : ¬∃ value, none = some value ∧ stageTest value op operand = true := by
      rintro ⟨value, hnone, _⟩
      cases hnone
    rw [operatorHolds_missing_iff hknown hpath, iff_false_left hstage]

/-! ## Agreement -/

/-- Two tests of all elements come out alike when they differ on no element, or where one element
fails both, or one fails the first test alone and another one the second test alone. -/
theorem forall_iff_forall {α : Type} {l : List α} {p q differs : α → Prop}
    (h : ∀ x ∈ l, (p x ↔ q x) ↔ ¬differs x) :
    ((∀ x ∈ l, p x) ↔ ∀ x ∈ l, q x) ↔
      (∀ x ∈ l, ¬differs x) ∨ (∃ x ∈ l, ¬p x ∧ ¬differs x) ∨
        ((∃ x ∈ l, p x ∧ differs x) ∧ ∃ x ∈ l, ¬p x ∧ differs x) := by
  constructor
  · intro hiff
    by_cases hall : ∀ x ∈ l, p x
    · exact .inl fun x hx => (h x hx).mp (iff_of_true (hall x hx) (hiff.mp hall x hx))
    · obtain ⟨x, hx, hpx⟩ := not_forall₂.mp hall
      obtain ⟨y, hy, hqy⟩ := not_forall₂.mp (mt hiff.mpr hall)
      by_cases hdx : differs x
      · by_cases hpy : p y
        · have hdy : differs y := by
            by_contra hnot
            exact hqy (((h y hy).mpr hnot).mp hpy)
          exact .inr (.inr ⟨⟨y, hy, hpy, hdy⟩, x, hx, hpx, hdx⟩)
        · exact .inr (.inl ⟨y, hy, hpy, (h y hy).mp (iff_of_false hpy hqy)⟩)
      · exact .inr (.inl ⟨x, hx, hpx, hdx⟩)
  · rintro (halike | ⟨x, hx, hpx, hdx⟩ | ⟨⟨x, hx, hpx, hdx⟩, y, hy, hpy, -⟩)
    · exact forall₂_congr fun x hx => (h x hx).mpr (halike x hx)
    · have hqx := mt ((h x hx).mpr hdx).mpr hpx
      exact iff_of_false (fun hall => hpx (hall x hx)) fun hall => hqx (hall x hx)
    · have hqx : ¬q x := fun hqx => (h x hx).mp (iff_of_true hpx hqx) hdx
      exact iff_of_false (fun hall => hpy (hall y hy)) fun hall => hqx (hall x hx)

def PlainKeys : JsonValue → Prop
  | .object members => ∀ member ∈ members, Plain member
  | _ => False

/-- No key is misjudged; or one that is not misjudged fails the stage, or one that is misjudged
fails it and another one does not. -/
def JudgedAlike (doc : Document) : JsonValue → Prop
  | .object members =>
    (∀ member ∈ members, ¬Misjudged doc member) ∨
      (∃ member ∈ members, ¬StageAccepts doc member ∧ ¬Misjudged doc member) ∨
        ((∃ member ∈ members, StageAccepts doc member ∧ Misjudged doc member) ∧
          ∃ member ∈ members, ¬StageAccepts doc member ∧ Misjudged doc member)
  | _ => False

/-- A document that comes to the stage passes it as the parsed query decides, if the keys of the
filter are plain and judged alike; and of the filters with plain keys only where they are judged
alike. -/
theorem applyMatch_agrees_iff {regex : RegexCrate} {json : JsonValue} {filter : Filter}
    {docs : List Document} {doc : Document} {found : Bool} (hparse : parseFilter json = .ok filter)
    (hdoc : doc ∈ docs) (hrun : VedDb.matchesFilter regex doc filter = .ok found) :
    (PlainKeys json ∧ JudgedAlike doc json → (doc ∈ applyMatch docs json ↔ found = true)) ∧
      (PlainKeys json → (doc ∈ applyMatch docs json ↔ found = true) → JudgedAlike doc json) := by
  cases json with
  | object members =>
    have hiff (hplain : ∀ member ∈ members, Plain member) :
        (doc ∈ applyMatch docs (.object members) ↔ found = true) ↔
          JudgedAlike doc (.object members) := by
      have hfound : found = true ↔ VedDb.matchesFilter regex doc filter = .ok true := by
        rw [hrun, Except.ok.injEq]
      have hlogical : hasLogical members = false := by
        rw [hasLogical, List.any_eq_false]
        intro member hmember
        rw [(hplain member hmember).1]
        exact Bool.false_ne_true
      rw [applyMatch, List.mem_filter, and_iff_right hdoc, hfound, matchesFilter_iff,
        queryAccepts_iff hparse]
      exact forall_iff_forall fun member hmember =>
        plain_alike_iff (hplain member hmember) hlogical
    exact ⟨fun h => (hiff h.1).mpr h.2, fun hplain => (hiff hplain).mp⟩
  | _ => cases hparse

/-- A document with a text and a number of 64 bits. -/
def nameAndNumber : Document where
  id := ⟨0⟩
  fields := ((∅ : Fields).insert "name" (.string "x")).insert "n" (.int64 7)
  metadata := .default 0

def namedFrom : JsonValue :=
  .object [("name", .string "x"), ("n", .object [("$gte", .number (.posInt 5))])]

theorem applyMatch_agrees_iff_named : ∃ filter, parseFilter namedFrom = .ok filter ∧
    VedDb.matchesFilter ⟨fun _ => .error ""⟩ nameAndNumber filter = .ok true ∧
    (nameAndNumber ∈ applyMatch [nameAndNumber] namedFrom ↔ true = true) := by
  refine ⟨_, rfl, rfl, (@applyMatch_agrees_iff ⟨fun _ => .error ""⟩ _ _ _ _ _ rfl
    (List.mem_singleton.mpr rfl) rfl).1 ⟨?_, .inl ?_⟩⟩
  · intro member hmember
    rcases List.mem_pair.mp hmember with rfl | rfl
    · exact ⟨rfl, by decide, rfl⟩
    · exact ⟨rfl, by decide, rfl⟩
  · rintro member hmember ⟨op, operand, htest, hmisjudged⟩
    rcases List.mem_pair.mp hmember with rfl | rfl
    · cases htest
      exact hmisjudged.2 rfl
    · cases htest
      exact Bool.noConfusion hmisjudged.1

def documentWith (name : String) (value : Value) : Document :=
  { id := ⟨0⟩, fields := .insert ∅ name value, metadata := .default 0 }

/-- A query finds a field of 32 bits that holds the number it asks for; the stage does not. -/
theorem applyMatch_int32 :
    ∃ filter, parseFilter (.object [("n", .number (.posInt 5))]) = .ok filter ∧
      VedDb.matchesFilter ⟨fun _ => .error ""⟩ (documentWith "n" (.int32 5)) filter = .ok true ∧
      documentWith "n" (.int32 5) ∉
        applyMatch [documentWith "n" (.int32 5)] (.object [("n", .number (.posInt 5))]) := by
  refine ⟨.eq "n" (.int32 5), rfl, rfl, ?_⟩
  rw [applyMatch, List.mem_filter]
  rintro ⟨_, h⟩
  exact absurd h (by decide)

end Pipeline

end VedDb
