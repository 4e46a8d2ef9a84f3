import VedDb.Floats
import VedDb.Lib.Json

/-!
# Values in JSON

The JSON form that `serde` derives for `Value`, tagged by its `type` with the payload under `value`.
JSON has no number for a double that is not finite: it is written as `null`, which is no double.
-/

namespace VedDb

open LittleEndian (Bytes)

/-! ## Variants -/

/-- The variants of `Value`. -/
inductive ValueType where
  | null
  | bool
  | int32
  | int64
  | float64
  | string
  | binary
  | array
  | object
  | objectId
  | dateTime
  deriving DecidableEq

namespace ValueType

def name : ValueType → String
  | .null => "Null"
  | .bool => "Bool"
  | .int32 => "Int32"
  | .int64 => "Int64"
  | .float64 => "Float64"
  | .string => "String"
  | .binary => "Binary"
  | .array => "Array"
  | .object => "Object"
  | .objectId => "ObjectId"
  | .dateTime => "DateTime"

def all : List ValueType :=
  [.null, .bool, .int32, .int64, .float64, .string, .binary, .array, .object, .objectId, .dateTime]

def ofName (name : String) : Option ValueType := all.find? fun type => type.name = name

theorem ofName_name (type : ValueType) : ofName type.name = some type := by
  cases type
  all_goals rfl

end ValueType

/-! ## What the derived code calls -/

/-- The errors of the derived deserialisation. -/
inductive SerdeError where
  | missingField (name : String)
  | duplicateField (name : String)
  | unknownVariant (name : String)
  | invalidType (expected : String)
  | invalidValue (expected : String)
  | invalidLength (length : Nat)

/-- The text of JSON, and how the derived errors are printed with their place in it; the forms of
UUIDs and of instants. -/
structure SerdeEnv where
  text : Json.Text F64
  describe : Bytes → SerdeError → String
  parseUuid : String → Option DocumentId
  formatDateTime : DateTime → String
  parseDateTime : String → Option DateTime

variable (env : SerdeEnv)

/-! ## Serialisation -/

/-- A variant with a payload. -/
def tagged (type : ValueType) (content : Json F64) : Json F64 :=
  .object [("type", .string type.name), ("value", content)]

def encodeBytes (bytes : Bytes) : Json F64 := .array (bytes.map fun b => .integer b.toNat)

/-- `serialize_f64`. -/
def encodeF64 (f : F64) : Json F64 := if f.isFinite then .real f else .null

mutual

/-- `Serialize for Value`. -/
def encodeValue : Value → Json F64
  | .null => .object [("type", .string ValueType.null.name)]
  | .bool b => tagged .bool (.bool b)
  | .int32 i => tagged .int32 (.integer i.toInt)
  | .int64 i => tagged .int64 (.integer i.toInt)
  | .float64 f => tagged .float64 (encodeF64 f)
  | .string s => tagged .string (.string s)
  | .binary b => tagged .binary (encodeBytes b)
  | .array vs => tagged .array (.array (encodeItems vs))
  | .object kvs => tagged .object (.object (encodeMembers kvs))
  | .objectId o => tagged .objectId (encodeBytes o.bytes)
  | .dateTime t => tagged .dateTime (.string (env.formatDateTime t))

def encodeItems : List Value → List (Json F64)
  | [] => []
  | v :: vs => encodeValue v :: encodeItems vs

def encodeMembers : List (String × Value) → List (String × Json F64)
  | [] => []
  | (k, v) :: kvs => (k, encodeValue v) :: encodeMembers kvs

end

/-! ## Deserialisation -/

def readCons {ε α : Type} (item : Except ε α) (items : Except ε (List α)) : Except ε (List α) :=
  match item with
  | .error e => .error e
  | .ok a => items.map (a :: ·)

def decodeBytes : List (Json F64) → Except SerdeError Bytes
  | [] => .ok []
  | .integer n :: items =>
    if 0 ≤ n ∧ n < 256 then (decodeBytes items).map (UInt8.ofNat n.toNat :: ·)
    else .error (.invalidValue "u8")
  | _ :: _ => .error (.invalidType "u8")

/-- The payload of a variant that holds no other values. -/
def decodeScalar (type : ValueType) (content : Json F64) : Except SerdeError Value :=
  match type, content with
  | .null, .null => .ok .null
  | .bool, .bool b => .ok (.bool b)
  | .int32, .integer n =>
    if -2 ^ 31 ≤ n ∧ n < 2 ^ 31 then .ok (.int32 (.ofInt n)) else .error (.invalidValue "i32")
  | .int64, .integer n =>
    if -2 ^ 63 ≤ n ∧ n < 2 ^ 63 then .ok (.int64 (.ofInt n)) else .error (.invalidValue "i64")
  | .float64, .real f => .ok (.float64 f)
  | .float64, .integer n => .ok (.float64 (F64.ofInt n))
  | .string, .string s => .ok (.string s)
  | .binary, .array items => (decodeBytes items).map .binary
  | .objectId, .array items =>
    match decodeBytes items with
    | .error e => .error e
    | .ok bytes =>
      if h : bytes.length = 12 then .ok (.objectId ⟨bytes, h⟩)
      else .error (.invalidLength bytes.length)
  | .dateTime, .string s =>
    match env.parseDateTime s with
    | none => .error (.invalidValue "an RFC 3339 formatted date and time string")
    | some t => .ok (.dateTime t)
  | type, _ => .error (.invalidType type.name)

def decodeTag (members : List (String × Json F64)) : Except SerdeError ValueType :=
  match members.filter fun member => member.1 = "type" with
  | [] => .error (.missingField "type")
  | [(_, .string name)] =>
    match ValueType.ofName name with
    | none => .error (.unknownVariant name)
    | some type => .ok type
  | [_] => .error (.invalidType "variant identifier")
  | _ => .error (.duplicateField "type")

mutual

/-- `Deserialize for Value`.  Members other than the tag and the payload are skipped. -/
def decodeValue : Json F64 → Except SerdeError Value
  | .object members =>
    match decodeTag members with
    | .error e => .error e
    | .ok type => decodePayload type members
  | _ => .error (.invalidType "adjacently tagged enum Value")

/-- The payload among the members.  `Null` needs none. -/
def decodePayload (type : ValueType) : List (String × Json F64) → Except SerdeError Value
  | [] => if type = .null then .ok .null else .error (.missingField "value")
  | (name, content) :: members =>
    if name = "value" then
      if members.any fun member => member.1 = "value" then .error (.duplicateField "value")
      else decodeContent type content
    else decodePayload type members

def decodeContent (type : ValueType) : Json F64 → Except SerdeError Value
  | .array items =>
    if type = .array then (decodeItems items).map .array else decodeScalar env type (.array items)
  | .object members =>
    if type = .object then
      (decodeMembers members).map fun kvs => .object (Json.lastMembers kvs).toList
    else decodeScalar env type (.object members)
  | .null => decodeScalar env type .null
  | .bool b => decodeScalar env type (.bool b)
  | .integer n => decodeScalar env type (.integer n)
  | .real f => decodeScalar env type (.real f)
  | .string s => decodeScalar env type (.string s)

def decodeItems : List (Json F64) → Except SerdeError (List Value)
  | [] => .ok []
  | item :: items => readCons (decodeValue item) (decodeItems items)

def decodeMembers : List (String × Json F64) → Except SerdeError (List (String × Value))
  | [] => .ok []
  | (k, value) :: members =>
    readCons ((decodeValue value).map fun v => (k, v)) (decodeMembers members)

end

/-! ## Which values are read back -/

mutual

/-- Every double in the value is finite. -/
def Value.isFinite : Value → Bool
  | .float64 f => f.isFinite
  | .array vs => Value.areFinite vs
  | .object kvs => Value.membersFinite kvs
  | _ => true

def Value.areFinite : List Value → Bool
  | [] => true
  | v :: vs => v.isFinite && Value.areFinite vs

def Value.membersFinite : List (String × Value) → Bool
  | [] => true
  | (_, v) :: kvs => v.isFinite && Value.membersFinite kvs

end

mutual

/-- Every object in the value lists its entries as a `BTreeMap` does. -/
def Value.Ordered : Value → Prop
  | .array vs => Value.OrderedItems vs
  | .object kvs => (kvs.Pairwise fun a b => compare a.1 b.1 = .lt) ∧ Value.OrderedMembers kvs
  | _ => True

def Value.OrderedItems : List Value → Prop
  | [] => True
  | v :: vs => v.Ordered ∧ Value.OrderedItems vs

def Value.OrderedMembers : List (String × Value) → Prop
  | [] => True
  | (_, v) :: kvs => v.Ordered ∧ Value.OrderedMembers kvs

end

/-- The value is read back, or the reader fails. -/
def ReadsBack {ε α : Type} (readable : Bool) (result : Except ε α) (a : α) : Prop :=
  if readable then result = .ok a else ∃ e, result = .error e

theorem ReadsBack.map {ε α β : Type} {readable : Bool} {result : Except ε α} {a : α}
    (h : ReadsBack readable result a) (f : α → β) : ReadsBack readable (result.map f) (f a) := by
  cases readable with
  | true =>
    have hok : result = .ok a := h
    rw [hok]
    rfl
  | false =>
    obtain ⟨e, he⟩ : ∃ e, result = .error e := h
    rw [he]
    exact ⟨e, rfl⟩

theorem ReadsBack.readCons {ε α : Type} {readable readable' : Bool} {item : Except ε α}
    {items : Except ε (List α)} {a : α} {as : List α} (h : ReadsBack readable item a)
    (h' : ReadsBack readable' items as) :
    ReadsBack (readable && readable') (readCons item items) (a :: as) := by
  cases readable with
  | false =>
    obtain ⟨e, he⟩ : ∃ e, item = .error e := h
    rw [he]
    exact ⟨e, rfl⟩
  | true =>
    have hok : item = .ok a := h
    rw [hok, Bool.true_and]
    exact h'.map _

theorem decodeBytes_encodeBytes (bytes : Bytes) :
    decodeBytes (bytes.map fun b => .integer b.toNat) = .ok bytes := by
  induction bytes with
  | nil => rfl
  | cons b bytes ih =>
    have hb : b.toNat < 256 := b.toNat_lt
    rw [List.map_cons, decodeBytes, if_pos (by omega), ih]
    show Except.ok (UInt8.ofNat (b.toNat : Int).toNat :: bytes) = _
    rw [Int.toNat_natCast, UInt8.ofNat_toNat]

theorem decodeTag_tagged (type : ValueType) (content : Json F64) :
    decodeTag [("type", .string type.name), ("value", content)] = .ok type := by
  simp [decodeTag, ValueType.ofName_name]

-- The payload of a variant is read as the variant says.
theorem decodeValue_tagged (type : ValueType) (content : Json F64) :
    decodeValue env (tagged type content) = decodeContent env type content := by
  rw [tagged, decodeValue, decodeTag_tagged]
  simp [decodePayload]

/-- Instants are read back from the form they are printed in. -/
def SerdeEnv.ReadsDates : Prop := ∀ t, env.parseDateTime (env.formatDateTime t) = some t

variable {env}

mutual

/-- A value whose doubles are finite is read back; any other is refused. -/
theorem decodeValue_encodeValue (hdates : env.ReadsDates) : ∀ v : Value, v.Ordered →
    ReadsBack v.isFinite (decodeValue env (encodeValue env v)) v
  | .null, _ => rfl
  | .bool b, _ => by
      show decodeValue env (tagged .bool (.bool b)) = _
      rw [decodeValue_tagged]
      rfl
  | .int32 i, _ => by
      show decodeValue env (tagged .int32 (.integer i.toInt)) = _
      rw [decodeValue_tagged, decodeContent, decodeScalar,
        if_pos ⟨i.le_toInt, i.toInt_lt⟩, Int32.ofInt_toInt]
  | .int64 i, _ => by
      show decodeValue env (tagged .int64 (.integer i.toInt)) = _
      rw [decodeValue_tagged, decodeContent, decodeScalar,
        if_pos ⟨i.le_toInt, i.toInt_lt⟩, Int64.ofInt_toInt]
  | .float64 f, _ => by
      show ReadsBack f.isFinite (decodeValue env (tagged .float64 (encodeF64 f))) _
      rw [decodeValue_tagged, encodeF64]
      cases f.isFinite with
      | true => rfl
      | false => exact ⟨_, rfl⟩
  | .string s, _ => by
      show decodeValue env (tagged .string (.string s)) = _
      rw [decodeValue_tagged]
      rfl
  | .binary b, _ => by
      show decodeValue env (tagged .binary (encodeBytes b)) = _
      rw [decodeValue_tagged, encodeBytes, decodeContent, if_neg (by decide), decodeScalar,
        decodeBytes_encodeBytes]
      rfl
  | .array vs, h => by
      show ReadsBack (Value.areFinite vs)
        (decodeValue env (tagged .array (.array (encodeItems env vs)))) _
      rw [decodeValue_tagged, decodeContent, if_pos rfl]
      exact (decodeItems_encodeItems hdates vs h).map Value.array
  | .object kvs, h => by
      show ReadsBack (Value.membersFinite kvs)
        (decodeValue env (tagged .object (.object (encodeMembers env kvs)))) _
      rw [decodeValue_tagged, decodeContent, if_pos rfl]
      have hread := (decodeMembers_encodeMembers hdates kvs h.2).map fun kvs =>
        Value.object (Json.lastMembers kvs).toList
      rw [Json.toList_lastMembers h.1] at hread
      exact hread
  | .objectId o, _ => by
      show decodeValue env (tagged .objectId (encodeBytes o.bytes)) = _
      rw [decodeValue_tagged, encodeBytes, decodeContent, if_neg (by decide), decodeScalar,
        decodeBytes_encodeBytes]
      dsimp only
      rw [dif_pos o.length_eq]
  | .dateTime t, _ => by
      show decodeValue env (tagged .dateTime (.string (env.formatDateTime t))) = _
      rw [decodeValue_tagged, decodeContent, decodeScalar, hdates t]

theorem decodeItems_encodeItems (hdates : env.ReadsDates) : ∀ vs : List Value,
    Value.OrderedItems vs →
    ReadsBack (Value.areFinite vs) (decodeItems env (encodeItems env vs)) vs
  | [], _ => rfl
  | v :: vs, h => by
      rw [encodeItems, decodeItems, Value.areFinite]
      exact (decodeValue_encodeValue hdates v h.1).readCons (decodeItems_encodeItems hdates vs h.2)

theorem decodeMembers_encodeMembers (hdates : env.ReadsDates) : ∀ kvs : List (String × Value),
    Value.OrderedMembers kvs →
    ReadsBack (Value.membersFinite kvs) (decodeMembers env (encodeMembers env kvs)) kvs
  | [], _ => rfl
  | (k, v) :: kvs, h => by
      rw [encodeMembers, decodeMembers, Value.membersFinite]
      exact ((decodeValue_encodeValue hdates v h.1).map fun v => (k, v)).readCons
        (decodeMembers_encodeMembers hdates kvs h.2)

end

/-! ## How deep values lie -/

mutual

/-- The containers that the JSON of a value consists of, one inside the other. -/
def Value.containers : Value → Nat
  | .binary _ => 2
  | .objectId _ => 2
  | .array vs => Value.containersItems vs + 2
  | .object kvs => Value.containersMembers kvs + 2
  | _ => 1

def Value.containersItems : List Value → Nat
  | [] => 0
  | v :: vs => max v.containers (Value.containersItems vs)

def Value.containersMembers : List (String × Value) → Nat
  | [] => 0
  | (_, v) :: kvs => max v.containers (Value.containersMembers kvs)

end

@[simp] theorem depth_tagged (type : ValueType) (content : Json F64) :
    (tagged type content).depth = content.depth + 1 := by
  simp [tagged, Json.depth, Json.depthMembers]

@[simp] theorem depth_encodeBytes (bytes : Bytes) : (encodeBytes bytes).depth = 1 := by
  rw [encodeBytes, Json.depth, Json.depthItems_map_integer]

@[simp] theorem depth_encodeF64 (f : F64) : (encodeF64 f).depth = 0 := by
  unfold encodeF64
  split
  · rfl
  · rfl

mutual

theorem depth_encodeValue : ∀ v : Value, (encodeValue env v).depth = v.containers
  | .null => rfl
  | .bool _ => rfl
  | .int32 _ => rfl
  | .int64 _ => rfl
  | .float64 _ => by simp [encodeValue, Value.containers]
  | .string _ => rfl
  | .binary _ => by simp [encodeValue, Value.containers]
  | .array vs => by simp [encodeValue, Value.containers, Json.depth, depth_encodeItems vs]
  | .object kvs => by simp [encodeValue, Value.containers, Json.depth, depth_encodeMembers kvs]
  | .objectId _ => by simp [encodeValue, Value.containers]
  | .dateTime _ => rfl

theorem depth_encodeItems : ∀ vs : List Value,
    Json.depthItems (encodeItems env vs) = Value.containersItems vs
  | [] => rfl
  | v :: vs => by
      rw [encodeItems, Json.depthItems, Value.containersItems, depth_encodeValue v,
        depth_encodeItems vs]

theorem depth_encodeMembers : ∀ kvs : List (String × Value),
    Json.depthMembers (encodeMembers env kvs) = Value.containersMembers kvs
  | [] => rfl
  | (_, v) :: kvs => by
      rw [encodeMembers, Json.depthMembers, Value.containersMembers, depth_encodeValue v,
        depth_encodeMembers kvs]

end

end VedDb
