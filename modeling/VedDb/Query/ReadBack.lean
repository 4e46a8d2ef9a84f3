import VedDb.Query.Meaning
import VedDb.Serde.Value

/-!
# Values in filters

A value of a filter goes through plain JSON and back before it is compared.  A whole number comes
back as an `Int32` wherever it fits, and what JSON has no kind for comes back as `null`.
-/

namespace VedDb

open QueryParser

/-- What a filter makes of a value. -/
def Value.readBack (value : Value) : Value := jsonToValue value.toPlainJson

mutual

/-- The value comes back as it was. -/
def Value.survives : Value → Bool
  | .int64 i => ¬(-2 ^ 31 ≤ i.toInt ∧ i.toInt < 2 ^ 31)
  | .float64 f => f.isFinite
  | .array vs => Value.allSurvive vs
  | .object kvs => Value.membersSurvive kvs
  | .binary _ | .objectId _ | .dateTime _ => false
  | _ => true

def Value.allSurvive : List Value → Bool
  | [] => true
  | v :: vs => v.survives && Value.allSurvive vs

def Value.membersSurvive : List (String × Value) → Bool
  | [] => true
  | (_, v) :: kvs => v.survives && Value.membersSurvive kvs

end

/-! ## Numbers -/

namespace JsonNumber

theorem asInt64_ofNonneg {i : Int} (hlow : 0 ≤ i) (hhigh : i < 2 ^ 63) :
    (JsonNumber.posInt (UInt64.ofNat i.toNat)).asInt64 = some (Int64.ofInt i) := by
  have hnat : (UInt64.ofNat i.toNat).toNat = i.toNat := by
    rw [UInt64.toNat_ofNat']
    omega
  rw [asInt64, hnat, if_pos (by omega), ← Int64.ofInt_eq_ofNat, Int.toNat_of_nonneg hlow]

theorem asInt64_ofInt64 (i : Int64) : (ofInt64 i).asInt64 = some i := by
  rw [ofInt64]
  split
  next hpos =>
    rw [asInt64_ofNonneg hpos i.toInt_lt, Int64.ofInt_toInt]
  next => rfl

theorem asInt64_ofInt32 (i : Int32) : (ofInt32 i).asInt64 = some (Int64.ofInt i.toInt) := by
  have hhigh := i.toInt_lt
  rw [ofInt32]
  split
  next hpos => rw [asInt64_ofNonneg hpos (by omega)]
  next => rfl

end JsonNumber

namespace Value

theorem readBack_int32 (i : Int32) : (Value.int32 i).readBack = .int32 i := by
  have hlow := i.le_toInt
  have hhigh := i.toInt_lt
  have hsame : (Int64.ofInt i.toInt).toInt = i.toInt :=
    Int64.toInt_ofInt_of_le (by omega) (by omega)
  rw [readBack, toPlainJson, jsonToValue, JsonNumber.asInt64_ofInt32]
  dsimp only
  rw [hsame, if_pos ⟨hlow, hhigh⟩, Int32.ofInt_toInt]

theorem readBack_int64 (i : Int64) : (Value.int64 i).readBack =
    if -2 ^ 31 ≤ i.toInt ∧ i.toInt < 2 ^ 31 then .int32 (Int32.ofInt i.toInt) else .int64 i := by
  rw [readBack, toPlainJson, jsonToValue, JsonNumber.asInt64_ofInt64]

theorem readBack_float64 (f : F64) :
    (Value.float64 f).readBack = if f.isFinite then .float64 f else .null := by
  rw [readBack, toPlainJson, JsonNumber.ofFloat]
  cases f.isFinite with
  | true => rfl
  | false => rfl

/-! ## What comes back as it was -/

mutual

/-- A value is equal to what a filter makes of it exactly when it comes back as it was. -/
theorem eq_readBack : ∀ v : Value, v.eq v.readBack = v.survives
  | .null | .bool _ | .string _ => by simp [readBack, toPlainJson, jsonToValue, eq, survives]
  | .int32 i => by
      rw [readBack_int32]
      simp [eq, survives]
  | .int64 i => by
      rw [readBack_int64, survives]
      split
      next h => exact (decide_eq_false (not_not.mpr h)).symm
      next h =>
        rw [eq, beq_self_eq_true]
        exact (decide_eq_true h).symm
  | .float64 f => by
      rw [readBack_float64, survives]
      cases hfinite : f.isFinite with
      | false => rfl
      | true =>
        have hnumber : f.isNaN = false := by
          rw [F64.isFinite, decide_eq_true_eq] at hfinite
          exact decide_eq_false (by omega)
        simp [eq, F64.partialCmp_of_number hnumber hnumber]
  | .array vs => eqItems_readBack vs
  | .object kvs => eqMembers_readBack kvs
  | .binary _ | .objectId _ | .dateTime _ => rfl

theorem eqItems_readBack : ∀ vs : List Value,
    eqItems vs (jsonToValues (toPlainItems vs)) = allSurvive vs
  | [] => rfl
  | v :: vs => by
      rw [toPlainItems, jsonToValues, eqItems, allSurvive, eqItems_readBack vs, ← eq_readBack v]
      rfl

theorem eqMembers_readBack : ∀ kvs : List (String × Value),
    eqMembers kvs (jsonToFields (toPlainMembers kvs)) = membersSurvive kvs
  | [] => rfl
  | (k, v) :: kvs => by
      rw [toPlainMembers, jsonToFields, eqMembers, membersSurvive, eqMembers_readBack kvs,
        ← eq_readBack v, beq_self_eq_true, Bool.true_and]
      rfl

end

mutual

theorem readBack_of_survives : ∀ v : Value, v.survives = true → v.readBack = v
  | .null, _ | .bool _, _ | .string _, _ => rfl
  | .int32 i, _ => readBack_int32 i
  | .int64 i, h => by
      rw [readBack_int64, if_neg (of_decide_eq_true h)]
  | .float64 f, h => (readBack_float64 f).trans (if_pos h)
  | .array vs, h => congrArg Value.array (readBackItems_of_survive vs h)
  | .object kvs, h => congrArg Value.object (readBackMembers_of_survive kvs h)
  | .binary _, h | .objectId _, h | .dateTime _, h => by cases h

theorem readBackItems_of_survive : ∀ vs : List Value, allSurvive vs = true →
    jsonToValues (toPlainItems vs) = vs
  | [], _ => rfl
  | v :: vs, h => by
      rw [allSurvive, Bool.and_eq_true] at h
      rw [toPlainItems, jsonToValues, readBackItems_of_survive vs h.2]
      exact congrArg (· :: vs) (readBack_of_survives v h.1)

theorem readBackMembers_of_survive : ∀ kvs : List (String × Value), membersSurvive kvs = true →
    jsonToFields (toPlainMembers kvs) = kvs
  | [], _ => rfl
  | (k, v) :: kvs, h => by
      rw [membersSurvive, Bool.and_eq_true] at h
      rw [toPlainMembers, jsonToFields, readBackMembers_of_survive kvs h.2]
      exact congrArg (fun own => (k, own) :: kvs) (readBack_of_survives v h.1)

end

/-! ## Depth -/

mutual

theorem containers_of_eq : ∀ {a b : Value}, a.eq b = true → a.containers = b.containers
  | .array _, .array _, h => congrArg (· + 2) (containersItems_of_eq h)
  | .object _, .object _, h => congrArg (· + 2) (containersMembers_of_eq h)
  | .null, .null, _ | .bool _, .bool _, _ | .int32 _, .int32 _, _ | .int64 _, .int64 _, _
  | .float64 _, .float64 _, _ | .string _, .string _, _ | .binary _, .binary _, _
  | .objectId _, .objectId _, _ | .dateTime _, .dateTime _, _ => rfl

theorem containersItems_of_eq : ∀ {as bs : List Value}, eqItems as bs = true →
    containersItems as = containersItems bs
  | [], [], _ => rfl
  | a :: as, b :: bs, h => by
      rw [eqItems, Bool.and_eq_true] at h
      rw [containersItems, containersItems, containers_of_eq h.1, containersItems_of_eq h.2]

theorem containersMembers_of_eq : ∀ {as bs : List (String × Value)}, eqMembers as bs = true →
    containersMembers as = containersMembers bs
  | [], [], _ => rfl
  | (k, a) :: as, (l, b) :: bs, h => by
      rw [eqMembers, Bool.and_eq_true, Bool.and_eq_true] at h
      rw [containersMembers, containersMembers, containers_of_eq h.1.2, containersMembers_of_eq h.2]

end

mutual

theorem containers_readBack_le : ∀ v : Value, v.readBack.containers ≤ v.containers
  | .null | .bool _ | .string _ | .dateTime _ => Nat.le_refl 1
  | .binary _ | .objectId _ => Nat.le_succ 1
  | .int32 i => by
      rw [readBack_int32]
  | .int64 i => by
      rw [readBack_int64]
      split
      · exact Nat.le_refl 1
      · exact Nat.le_refl 1
  | .float64 f => by
      rw [readBack_float64]
      split
      · exact Nat.le_refl 1
      · exact Nat.le_refl 1
  | .array vs => Nat.add_le_add_right (containersItems_readBack_le vs) 2
  | .object kvs => Nat.add_le_add_right (containersMembers_readBack_le kvs) 2

theorem containersItems_readBack_le : ∀ vs : List Value,
    containersItems (jsonToValues (toPlainItems vs)) ≤ containersItems vs
  | [] => Nat.le_refl 0
  | v :: vs => max_le_max (containers_readBack_le v) (containersItems_readBack_le vs)

theorem containersMembers_readBack_le : ∀ kvs : List (String × Value),
    containersMembers (jsonToFields (toPlainMembers kvs)) ≤ containersMembers kvs
  | [] => Nat.le_refl 0
  | (_, v) :: kvs => max_le_max (containers_readBack_le v) (containersMembers_readBack_le kvs)

end

theorem containers_le_of_mem {vs : List Value} {v : Value} (h : v ∈ vs) :
    v.containers ≤ containersItems vs := by
  induction vs with
  | nil => cases h
  | cons own vs ih =>
    rcases List.mem_cons.mp h with rfl | h
    · exact Nat.le_max_left _ _
    · exact (ih h).trans (Nat.le_max_right _ _)

theorem containers_le_of_mem_members {members : List (String × JsonValue)} {k : String}
    {v : JsonValue} (h : (k, v) ∈ members) :
    (jsonToValue v).containers ≤ containersMembers (jsonToFields members) := by
  induction members with
  | nil => cases h
  | cons own members ih =>
    rcases List.mem_cons.mp h with rfl | h
    · exact Nat.le_max_left _ _
    · exact (ih h).trans (Nat.le_max_right _ _)

/-- A value is not equal to one that lies inside of it. -/
theorem eq_eq_false_of_lt {a b : Value} (h : a.containers ≠ b.containers) : a.eq b = false := by
  rw [Bool.eq_false_iff]
  exact fun heq => h (containers_of_eq heq)

end Value

end VedDb
