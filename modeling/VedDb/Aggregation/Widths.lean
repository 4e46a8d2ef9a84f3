import VedDb.Query.Parser
import VedDb.Query.Sorting

/-!
# The widths of whole numbers

A whole number of a filter becomes an `Int32` for a query, where it fits, and always an `Int64` for
`$match`.  Values of the two widths are never equal, and `$match` does not compare them.
-/

namespace VedDb

open QueryParser (jsonToValue jsonToValues jsonToFields)

/-- A whole number that the parser takes for an `Int32`. -/
def fitsInt32 (i : Int64) : Bool := -2 ^ 31 ≤ i.toInt ∧ i.toInt < 2 ^ 31

/-! ## Both conversions as one -/

/-- A whole number as an `Int32` where it is to be one. -/
def Value.ofInt64 (narrows : Int64 → Bool) (i : Int64) : Value :=
  if narrows i then .int32 (Int32.ofInt i.toInt) else .int64 i

mutual

/-- The value of a JSON value, with some whole numbers as an `Int32`. -/
def JsonValue.toValueBy (narrows : Int64 → Bool) : JsonValue → Value
  | .null => .null
  | .bool b => .bool b
  | .number n => match n.asInt64 with
      | some i => .ofInt64 narrows i
      | none => .float64 n.asFloat
  | .string s => .string s
  | .array items => .array (toValuesBy narrows items)
  | .object members => .object (toFieldsBy narrows members)

def JsonValue.toValuesBy (narrows : Int64 → Bool) : List JsonValue → List Value
  | [] => []
  | item :: items => item.toValueBy narrows :: toValuesBy narrows items

def JsonValue.toFieldsBy (narrows : Int64 → Bool) : List (String × JsonValue) →
    List (String × Value)
  | [] => []
  | (k, v) :: members => (k, v.toValueBy narrows) :: toFieldsBy narrows members

end

namespace JsonValue

mutual

theorem toValueBy_false : ∀ json : JsonValue, json.toValueBy (fun _ => false) = json.toValue
  | .null | .bool _ | .string _ => rfl
  | .number n => by
      rw [toValueBy, toValue]
      cases n.asInt64 with
      | none => rfl
      | some i => rfl
  | .array items => by rw [toValueBy, toValue, toValuesBy_false items]
  | .object members => by rw [toValueBy, toValue, toFieldsBy_false members]

theorem toValuesBy_false : ∀ items : List JsonValue,
    toValuesBy (fun _ => false) items = toValues items
  | [] => rfl
  | item :: items => by rw [toValuesBy, toValues, toValueBy_false item, toValuesBy_false items]

theorem toFieldsBy_false : ∀ members : List (String × JsonValue),
    toFieldsBy (fun _ => false) members = toFields members
  | [] => rfl
  | (k, v) :: members => by rw [toFieldsBy, toFields, toValueBy_false v, toFieldsBy_false members]

end

mutual

theorem toValueBy_fits : ∀ json : JsonValue, json.toValueBy fitsInt32 = jsonToValue json
  | .null | .bool _ | .string _ => rfl
  | .number n => by
      rw [toValueBy, jsonToValue]
      cases n.asInt64 with
      | none => rfl
      | some i =>
        dsimp only
        rw [Value.ofInt64, fitsInt32]
        simp only [decide_eq_true_eq]
  | .array items => by rw [toValueBy, jsonToValue, toValuesBy_fits items]
  | .object members => by rw [toValueBy, jsonToValue, toFieldsBy_fits members]

theorem toValuesBy_fits : ∀ items : List JsonValue,
    toValuesBy fitsInt32 items = jsonToValues items
  | [] => rfl
  | item :: items => by rw [toValuesBy, jsonToValues, toValueBy_fits item, toValuesBy_fits items]

theorem toFieldsBy_fits : ∀ members : List (String × JsonValue),
    toFieldsBy fitsInt32 members = jsonToFields members
  | [] => rfl
  | (k, v) :: members => by
      rw [toFieldsBy, jsonToFields, toValueBy_fits v, toFieldsBy_fits members]

end

end JsonValue

/-! ## Equality -/

namespace Value

mutual

/-- The value with every `Int32` as an `Int64`. -/
def widen : Value → Value
  | .int32 i => .int64 i.toInt64
  | .array vs => .array (widenItems vs)
  | .object kvs => .object (widenMembers kvs)
  | value => value

def widenItems : List Value → List Value
  | [] => []
  | v :: vs => v.widen :: widenItems vs

def widenMembers : List (String × Value) → List (String × Value)
  | [] => []
  | (k, v) :: kvs => (k, v.widen) :: widenMembers kvs

end

mutual

/-- A whole number in the value is an `Int32` exactly when it is to be one. -/
def hasWidths (narrows : Int64 → Bool) : Value → Bool
  | .int32 i => narrows i.toInt64
  | .int64 i => !narrows i
  | .array vs => haveWidths narrows vs
  | .object kvs => membersHaveWidths narrows kvs
  | _ => true

def haveWidths (narrows : Int64 → Bool) : List Value → Bool
  | [] => true
  | v :: vs => v.hasWidths narrows && haveWidths narrows vs

def membersHaveWidths (narrows : Int64 → Bool) : List (String × Value) → Bool
  | [] => true
  | (_, v) :: kvs => v.hasWidths narrows && membersHaveWidths narrows kvs

end

/-- Every whole number has 64 bits, as in the filter of `$match`. -/
def isWide (value : Value) : Bool := value.hasWidths fun _ => false

/-- Every whole number that fits 32 bits has 32, and no other, as in the filter of a query. -/
def isNarrow (value : Value) : Bool := value.hasWidths fitsInt32

/-- A value is a JSON value up to the widths of whole numbers. -/
def sameAs (value : Value) (json : JsonValue) : Bool := value.widen.eq json.toValue

variable {narrows : Int64 → Bool}

theorem widen_int64 (i : Int64) : (int64 i).widen = .int64 i := rfl

theorem toInt64_ofInt {i : Int64} (h : fitsInt32 i = true) :
    (Int32.ofInt i.toInt).toInt64 = i := by
  have hrange := of_decide_eq_true h
  apply Int64.toInt_inj.mp
  rw [Int32.toInt_toInt64, Int32.toInt_ofInt_of_le hrange.1 hrange.2]

/-- A value equals a whole number when it does so up to the width, and has the width. -/
theorem eq_ofInt64 (hnarrows : ∀ i, narrows i = true → fitsInt32 i = true) (value : Value)
    (i : Int64) :
    value.eq (.ofInt64 narrows i) = (value.widen.eq (.int64 i) && value.hasWidths narrows) := by
  rw [ofInt64]
  split
  next h =>
    have hback := toInt64_ofInt (hnarrows i h)
    cases value with
    | int32 j =>
      have hiff : j = Int32.ofInt i.toInt ↔ j.toInt64 = i := by
        constructor
        · rintro rfl
          exact hback
        · intro heq
          rw [← heq] at hback ⊢
          rw [Int32.toInt_toInt64, Int32.ofInt_toInt]
      rw [widen, eq, eq, hasWidths]
      by_cases heq : j.toInt64 = i
      · rw [beq_iff_eq.mpr heq, beq_iff_eq.mpr (hiff.mpr heq), heq, h]
        rfl
      · rw [beq_eq_false_iff_ne.mpr heq, beq_eq_false_iff_ne.mpr (mt hiff.mp heq)]
        rfl
    | int64 j =>
      rw [widen_int64, eq, hasWidths]
      by_cases heq : j = i
      · rw [heq, h, beq_self_eq_true]
        rfl
      · rw [beq_eq_false_iff_ne.mpr heq]
        rfl
    | _ => rfl
  next h =>
    cases value with
    | int32 j =>
      rw [widen, eq, hasWidths]
      by_cases heq : j.toInt64 = i
      · rw [heq, Bool.not_eq_true _ |>.mp h, beq_self_eq_true]
        rfl
      · rw [beq_eq_false_iff_ne.mpr heq]
        rfl
    | int64 j =>
      rw [widen_int64, eq, hasWidths]
      by_cases heq : j = i
      · rw [heq, Bool.not_eq_true _ |>.mp h, beq_self_eq_true]
        rfl
      · rw [beq_eq_false_iff_ne.mpr heq]
        rfl
    | _ => rfl

theorem partialCmp_eq_comm (f g : F64) :
    (f.partialCmp g == some .eq) = (g.partialCmp f == some .eq) := by
  rw [F64.partialCmp, F64.partialCmp, Bool.or_comm]
  split
  next => rfl
  next =>
    have hswap : compare g.rank f.rank = (compare f.rank g.rank).swap := Std.OrientedCmp.eq_swap
    rw [hswap]
    cases compare f.rank g.rank <;> rfl

mutual

theorem eq_comm : ∀ v w : Value, v.eq w = w.eq v
  | .float64 f, w => by
      cases w with
      | float64 g => exact partialCmp_eq_comm f g
      | _ => rfl
  | .array vs, w => by
      cases w with
      | array ws => exact eqItems_comm vs ws
      | _ => rfl
  | .object kvs, w => by
      cases w with
      | object lws => exact eqMembers_comm kvs lws
      | _ => rfl
  | .dateTime t, w => by
      cases w with
      | dateTime u => exact decide_eq_decide.mpr Eq.comm
      | _ => rfl
  | .null, w | .bool _, w | .int32 _, w | .int64 _, w | .string _, w | .binary _, w
  | .objectId _, w => by
      cases w with
      | _ => first | rfl | exact Bool.beq_comm

theorem eqItems_comm : ∀ vs ws : List Value, eqItems vs ws = eqItems ws vs
  | [], [] | [], _ :: _ | _ :: _, [] => rfl
  | v :: vs, w :: ws => by rw [eqItems, eqItems, eq_comm v w, eqItems_comm vs ws]

theorem eqMembers_comm : ∀ kvs lws : List (String × Value), eqMembers kvs lws = eqMembers lws kvs
  | [], [] | [], _ :: _ | _ :: _, [] => rfl
  | (k, v) :: kvs, (l, w) :: lws => by
      rw [eqMembers, eqMembers, eq_comm v w, eqMembers_comm kvs lws, Bool.beq_comm]

end

mutual

theorem eq_toValueBy (hnarrows : ∀ i, narrows i = true → fitsInt32 i = true) :
    ∀ (json : JsonValue) (value : Value),
    value.eq (json.toValueBy narrows) = (value.sameAs json && value.hasWidths narrows)
  | .null, value | .bool _, value | .string _, value => by
      cases value with
      | _ => simp [JsonValue.toValueBy, JsonValue.toValue, sameAs, widen, hasWidths, eq]
  | .number n, value => by
      rw [JsonValue.toValueBy, sameAs, JsonValue.toValue]
      cases n.asInt64 with
      | some i => exact eq_ofInt64 hnarrows value i
      | none => cases value <;> simp [widen, eq, hasWidths]
  | .array items, value => by
      rw [JsonValue.toValueBy, sameAs, JsonValue.toValue]
      cases value with
      | array vs => exact eqItems_toValuesBy hnarrows items vs
      | _ => rfl
  | .object members, value => by
      rw [JsonValue.toValueBy, sameAs, JsonValue.toValue]
      cases value with
      | object kvs => exact eqMembers_toFieldsBy hnarrows members kvs
      | _ => rfl

theorem eqItems_toValuesBy (hnarrows : ∀ i, narrows i = true → fitsInt32 i = true) :
    ∀ (items : List JsonValue) (vs : List Value),
    eqItems vs (JsonValue.toValuesBy narrows items) =
      (eqItems (widenItems vs) (JsonValue.toValues items) && haveWidths narrows vs)
  | [], [] => rfl
  | [], _ :: _ => rfl
  | _ :: _, [] => rfl
  | item :: items, v :: vs => by
      rw [JsonValue.toValuesBy, JsonValue.toValues, widenItems, haveWidths, eqItems, eqItems,
        eq_toValueBy hnarrows item v, eqItems_toValuesBy hnarrows items vs, sameAs]
      ac_rfl

theorem eqMembers_toFieldsBy (hnarrows : ∀ i, narrows i = true → fitsInt32 i = true) :
    ∀ (members : List (String × JsonValue)) (kvs : List (String × Value)),
    eqMembers kvs (JsonValue.toFieldsBy narrows members) =
      (eqMembers (widenMembers kvs) (JsonValue.toFields members) &&
        membersHaveWidths narrows kvs)
  | [], [] => rfl
  | [], _ :: _ => rfl
  | _ :: _, [] => rfl
  | (k, json) :: members, (l, v) :: kvs => by
      rw [JsonValue.toFieldsBy, JsonValue.toFields, widenMembers, membersHaveWidths, eqMembers,
        eqMembers, eq_toValueBy hnarrows json v, eqMembers_toFieldsBy hnarrows members kvs, sameAs]
      ac_rfl

end

/-- Equality with an operand of `$match`. -/
theorem eq_toValue (value : Value) (json : JsonValue) :
    value.eq json.toValue = (value.sameAs json && value.isWide) := by
  rw [← JsonValue.toValueBy_false, eq_toValueBy fun i h => absurd h Bool.false_ne_true]
  rfl

/-- Equality with an operand of a query. -/
theorem eq_jsonToValue (value : Value) (json : JsonValue) :
    value.eq (jsonToValue json) = (value.sameAs json && value.isNarrow) := by
  rw [← JsonValue.toValueBy_fits, eq_toValueBy fun i h => h]
  rfl

/-! ## Order -/

/-- `$match` has an order for a value and an operand: they are both numbers of 64 bits, or both
doubles, texts or truth values. -/
def ordersWith (value : Value) (json : JsonValue) : Bool :=
  Pipeline.kind value = Pipeline.kind json.toValue ∧ Pipeline.kind value ≠ .unordered

/-- Where `$match` has an order it is the one of a query.  Otherwise it takes the two for equal. -/
theorem compareValues_toValue (value : Value) (json : JsonValue) :
    Pipeline.compareValues (some value) (some json.toValue) =
      if value.ordersWith json then compareValues value (jsonToValue json) else .eq := by
  rw [ordersWith]
  cases json with
  | number n =>
    rw [JsonValue.toValue, jsonToValue]
    cases n.asInt64 with
    | none => cases value <;> rfl
    | some i =>
      dsimp only
      by_cases hfits : -2 ^ 31 ≤ i.toInt ∧ i.toInt < 2 ^ 31
      · rw [if_pos hfits]
        cases value with
        | int64 j =>
          have hback : (Int32.ofInt i.toInt).toInt = i.toInt :=
            Int32.toInt_ofInt_of_le hfits.1 hfits.2
          rw [compareValues, hback]
          rfl
        | _ => rfl
      · rw [if_neg hfits]
        cases value <;> rfl
  | _ => cases value <;> rfl

end Value

end VedDb
