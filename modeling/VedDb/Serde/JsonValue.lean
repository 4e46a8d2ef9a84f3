import VedDb.Serde.Document
import VedDb.Storage.Catalogue

/-!
# Any JSON value

How `serde_json::Value` is written and read.  A number without a fraction is read as unsigned, as
signed, or, where it has too many digits for both, as a double.
-/

namespace VedDb

/-! ## Serialisation -/

/-- `Serialize for Number`. -/
def encodeNumber : JsonNumber → Json F64
  | .posInt n => .integer n.toNat
  | .negInt i => .integer i.toInt
  | .float f => encodeF64 f

mutual

/-- `Serialize for serde_json::Value`. -/
def encodeJsonValue : JsonValue → Json F64
  | .null => .null
  | .bool b => .bool b
  | .number n => encodeNumber n
  | .string s => .string s
  | .array items => .array (encodeJsonItems items)
  | .object members => .object (encodeJsonMembers members)

def encodeJsonItems : List JsonValue → List (Json F64)
  | [] => []
  | item :: items => encodeJsonValue item :: encodeJsonItems items

def encodeJsonMembers : List (String × JsonValue) → List (String × Json F64)
  | [] => []
  | (name, value) :: members => (name, encodeJsonValue value) :: encodeJsonMembers members

end

/-! ## Deserialisation -/

/-- A number without a fraction. -/
def decodeInteger (n : Int) : JsonNumber :=
  if 0 ≤ n ∧ n < 2 ^ 64 then .posInt (UInt64.ofNat n.toNat)
  else if -2 ^ 63 ≤ n ∧ n < 0 then .negInt (Int64.ofInt n)
  else .float (F64.ofInt n)

mutual

/-- `Deserialize for serde_json::Value`. -/
def decodeJsonValue : Json F64 → JsonValue
  | .null => .null
  | .bool b => .bool b
  | .integer n => .number (decodeInteger n)
  | .real r => .number (.float r)
  | .string s => .string s
  | .array items => .array (decodeJsonItems items)
  | .object members => .object (Json.lastMembers (decodeJsonMembers members)).toList

def decodeJsonItems : List (Json F64) → List JsonValue
  | [] => []
  | item :: items => decodeJsonValue item :: decodeJsonItems items

def decodeJsonMembers : List (String × Json F64) → List (String × JsonValue)
  | [] => []
  | (name, value) :: members => (name, decodeJsonValue value) :: decodeJsonMembers members

end

/-! ## The values there are -/

/-- A signed number is negative, and a double is finite. -/
def JsonNumber.Valid : JsonNumber → Prop
  | .posInt _ => True
  | .negInt i => i.toInt < 0
  | .float f => f.isFinite = true

mutual

/-- The values that the type can hold.  An object lists its members as a `BTreeMap` does. -/
def JsonValue.Valid : JsonValue → Prop
  | .number n => n.Valid
  | .array items => JsonValue.ValidItems items
  | .object members =>
    (members.Pairwise fun a b => compare a.1 b.1 = .lt) ∧ JsonValue.ValidMembers members
  | _ => True

def JsonValue.ValidItems : List JsonValue → Prop
  | [] => True
  | item :: items => item.Valid ∧ JsonValue.ValidItems items

def JsonValue.ValidMembers : List (String × JsonValue) → Prop
  | [] => True
  | (_, value) :: members => value.Valid ∧ JsonValue.ValidMembers members

end

theorem decodeJsonValue_encodeNumber {n : JsonNumber} (h : n.Valid) :
    decodeJsonValue (encodeNumber n) = .number n := by
  cases n with
  | posInt n =>
    have hn : n.toNat < 2 ^ 64 := n.toNat_lt
    rw [encodeNumber, decodeJsonValue, decodeInteger, if_pos (by omega), Int.toNat_natCast,
      UInt64.ofNat_toNat]
  | negInt i =>
    have hi : i.toInt < 0 := h
    have hle : -2 ^ 63 ≤ i.toInt := i.le_toInt
    rw [encodeNumber, decodeJsonValue, decodeInteger, if_neg (by omega), if_pos ⟨hle, hi⟩,
      Int64.ofInt_toInt]
  | float f =>
    have hf : f.isFinite = true := h
    rw [encodeNumber, encodeF64, hf, if_pos rfl, decodeJsonValue]

mutual

theorem decodeJsonValue_encodeJsonValue : ∀ value : JsonValue, value.Valid →
    decodeJsonValue (encodeJsonValue value) = value
  | .null, _ => rfl
  | .bool _, _ => rfl
  | .number n, h => decodeJsonValue_encodeNumber h
  | .string _, _ => rfl
  | .array items, h => by
      rw [encodeJsonValue, decodeJsonValue, decodeJsonItems_encodeJsonItems items h]
  | .object members, h => by
      rw [encodeJsonValue, decodeJsonValue, decodeJsonMembers_encodeJsonMembers members h.2,
        Json.toList_lastMembers h.1]

theorem decodeJsonItems_encodeJsonItems : ∀ items : List JsonValue, JsonValue.ValidItems items →
    decodeJsonItems (encodeJsonItems items) = items
  | [], _ => rfl
  | item :: items, h => by
      rw [encodeJsonItems, decodeJsonItems, decodeJsonValue_encodeJsonValue item h.1,
        decodeJsonItems_encodeJsonItems items h.2]

theorem decodeJsonMembers_encodeJsonMembers : ∀ members : List (String × JsonValue),
    JsonValue.ValidMembers members → decodeJsonMembers (encodeJsonMembers members) = members
  | [], _ => rfl
  | (name, value) :: members, h => by
      rw [encodeJsonMembers, decodeJsonMembers, decodeJsonValue_encodeJsonValue value h.1,
        decodeJsonMembers_encodeJsonMembers members h.2]

end

theorem names_encodeJsonMembers (members : List (String × JsonValue)) :
    (encodeJsonMembers members).map Prod.fst = members.map Prod.fst := by
  induction members with
  | nil => rfl
  | cons member members ih => rw [encodeJsonMembers, List.map_cons, List.map_cons, ih]

/-! ## How deep values lie -/

mutual

/-- The containers around the value that lies deepest. -/
def JsonValue.containers : JsonValue → Nat
  | .array items => JsonValue.containersItems items + 1
  | .object members => JsonValue.containersMembers members + 1
  | _ => 0

def JsonValue.containersItems : List JsonValue → Nat
  | [] => 0
  | item :: items => max item.containers (JsonValue.containersItems items)

def JsonValue.containersMembers : List (String × JsonValue) → Nat
  | [] => 0
  | (_, value) :: members => max value.containers (JsonValue.containersMembers members)

end

theorem depth_encodeNumber (n : JsonNumber) : (encodeNumber n).depth = 0 := by
  cases n with
  | float f => exact depth_encodeF64 f
  | _ => rfl

mutual

theorem depth_encodeJsonValue : ∀ value : JsonValue,
    (encodeJsonValue value).depth = value.containers
  | .null => rfl
  | .bool _ => rfl
  | .number n => depth_encodeNumber n
  | .string _ => rfl
  | .array items => by
      rw [encodeJsonValue, Json.depth, JsonValue.containers, depth_encodeJsonItems items]
  | .object members => by
      rw [encodeJsonValue, Json.depth, JsonValue.containers, depth_encodeJsonMembers members]

theorem depth_encodeJsonItems : ∀ items : List JsonValue,
    Json.depthItems (encodeJsonItems items) = JsonValue.containersItems items
  | [] => rfl
  | item :: items => by
      rw [encodeJsonItems, Json.depthItems, JsonValue.containersItems, depth_encodeJsonValue item,
        depth_encodeJsonItems items]

theorem depth_encodeJsonMembers : ∀ members : List (String × JsonValue),
    Json.depthMembers (encodeJsonMembers members) = JsonValue.containersMembers members
  | [] => rfl
  | (_, value) :: members => by
      rw [encodeJsonMembers, Json.depthMembers, JsonValue.containersMembers,
        depth_encodeJsonValue value, depth_encodeJsonMembers members]

end

end VedDb
