import VedDb.Query.Filter
import VedDb.Storage.Catalogue

/-!
# Parsing filters

`QueryParser::parse_filter` of `query/parser.rs`, and the conversions between JSON and values around
it in `protocol/connection.rs`.  A filter comes in as a value, is turned into JSON and parsed from
there: what JSON has no kind for becomes `null` on the way.
-/

namespace VedDb

/-! ## Numbers -/

namespace JsonNumber

/-- `Number::from(i64)`. -/
def ofInt64 (i : Int64) : JsonNumber :=
  if 0 ≤ i.toInt then .posInt (UInt64.ofNat i.toInt.toNat) else .negInt i

/-- `Number::from_f64`. -/
def ofFloat (f : F64) : Option JsonNumber := if f.isFinite then some (.float f) else none

/-- `as_i64`. -/
def asInt64 : JsonNumber → Option Int64
  | .posInt n => if n.toNat < 2 ^ 63 then some (Int64.ofNat n.toNat) else none
  | .negInt i => some i
  | .float _ => none

/-- `as_f64`. -/
def asFloat : JsonNumber → F64
  | .posInt n => F64.ofInt n.toNat
  | .negInt i => F64.ofInt i.toInt
  | .float f => f

end JsonNumber

/-! ## Values and JSON -/

mutual

/-- `value_to_plain_json`. -/
def Value.toPlainJson : Value → JsonValue
  | .null => .null
  | .bool b => .bool b
  | .int32 i => .number (.ofInt32 i)
  | .int64 i => .number (.ofInt64 i)
  | .float64 f => match JsonNumber.ofFloat f with
      | some n => .number n
      | none => .null
  | .string s => .string s
  | .array vs => .array (Value.toPlainItems vs)
  | .object kvs => .object (Value.toPlainMembers kvs)
  | .binary _ => .null
  | .objectId _ => .null
  | .dateTime _ => .null

def Value.toPlainItems : List Value → List JsonValue
  | [] => []
  | v :: vs => v.toPlainJson :: Value.toPlainItems vs

def Value.toPlainMembers : List (String × Value) → List (String × JsonValue)
  | [] => []
  | (k, v) :: kvs => (k, v.toPlainJson) :: Value.toPlainMembers kvs

end

mutual

/-- `json_to_value` of the `ListIndexes` command: every whole number is an `Int64`. -/
def JsonValue.toValue : JsonValue → Value
  | .null => .null
  | .bool b => .bool b
  | .number n => match n.asInt64 with
      | some i => .int64 i
      | none => .float64 n.asFloat
  | .string s => .string s
  | .array items => .array (JsonValue.toValues items)
  | .object members => .object (JsonValue.toFields members)

def JsonValue.toValues : List JsonValue → List Value
  | [] => []
  | item :: items => item.toValue :: JsonValue.toValues items

def JsonValue.toFields : List (String × JsonValue) → List (String × Value)
  | [] => []
  | (k, v) :: members => (k, v.toValue) :: JsonValue.toFields members

end

inductive QueryParseError where
  | invalidFormat (message : String)
  | unsupportedOperator (operator : String)
deriving DecidableEq

/-- `Display for QueryParseError`. -/
def QueryParseError.toString : QueryParseError → String
  | .invalidFormat message => "Invalid format: " ++ message
  | .unsupportedOperator operator => "Unsupported operator: " ++ operator

namespace QueryParser

mutual

/-- `json_to_value` of the parser: a whole number is an `Int32` where it fits.  Every number of
`serde_json` is one or the other kind, so none is refused. -/
def jsonToValue : JsonValue → Value
  | .null => .null
  | .bool b => .bool b
  | .number n => match n.asInt64 with
      | some i =>
        if -2 ^ 31 ≤ i.toInt ∧ i.toInt < 2 ^ 31 then .int32 (Int32.ofInt i.toInt) else .int64 i
      | none => .float64 n.asFloat
  | .string s => .string s
  | .array items => .array (jsonToValues items)
  | .object members => .object (jsonToFields members)

def jsonToValues : List JsonValue → List Value
  | [] => []
  | item :: items => jsonToValue item :: jsonToValues items

def jsonToFields : List (String × JsonValue) → List (String × Value)
  | [] => []
  | (k, v) :: members => (k, jsonToValue v) :: jsonToFields members

end

/-! ## Conditions on a field -/

/-- `Filter::Regex` or another condition, by the name of its operator. -/
def parseOperator (field op : String) (val : JsonValue) (obj : List (String × JsonValue)) :
    Except QueryParseError Filter :=
  match op with
  | "$eq" => .ok (.eq field (jsonToValue val))
  | "$ne" => .ok (.ne field (jsonToValue val))
  | "$gt" => .ok (.gt field (jsonToValue val))
  | "$gte" => .ok (.gte field (jsonToValue val))
  | "$lt" => .ok (.lt field (jsonToValue val))
  | "$lte" => .ok (.lte field (jsonToValue val))
  | "$in" => match val with
      | .array items => .ok (.inValues field (jsonToValues items))
      | _ => .error (.invalidFormat "$in must be an array")
  | "$nin" => match val with
      | .array items => .ok (.nin field (jsonToValues items))
      | _ => .error (.invalidFormat "$nin must be an array")
  | "$exists" => match val with
      | .bool present => .ok (.fieldExists field present)
      | _ => .error (.invalidFormat "$exists must be a boolean")
  | "$regex" => match val with
      | .string pattern =>
        .ok (.regex field pattern ((obj.lookup "$options").bind JsonValue.asStr))
      | _ => .error (.invalidFormat "$regex must be a string")
  | _ => .error (.unsupportedOperator op)

/-- The loop over the operators of a condition.  `$options` is an operator to it, and refused. -/
def parseOperators (field : String) (obj : List (String × JsonValue)) :
    List (String × JsonValue) → Except QueryParseError (List Filter)
  | [] => .ok []
  | (op, val) :: members =>
    match parseOperator field op val obj with
    | .error error => .error error
    | .ok filter => (parseOperators field obj members).map (filter :: ·)

/-- One filter stands for itself, several are combined. -/
def combine : List Filter → Filter
  | [filter] => filter
  | filters => .and filters

def parseFieldCondition (field : String) (value : JsonValue) : Except QueryParseError Filter :=
  match value with
  | .object [] => .ok (.eq field (jsonToValue value))
  | .object obj => (parseOperators field obj obj).map combine
  | _ => .ok (.eq field (jsonToValue value))

/-! ## Filters -/

mutual

def parseFilter : JsonValue → Except QueryParseError Filter
  | .object members => if members.isEmpty then .ok .empty else parseConditions members []
  | _ => .error (.invalidFormat "Filter must be an object")

/-- The loop over the members of a filter: a logical operator ends it with its own filter, whatever
was parsed before. -/
def parseConditions : List (String × JsonValue) → List Filter → Except QueryParseError Filter
  | [], filters => .ok (combine filters)
  | (key, val) :: members, filters =>
    if key.toList.head? = some '$' then
      match key with
      | "$and" => match val with
          | .array items => (parseFilters items).map Filter.and
          | _ => .error (.invalidFormat "$and must be an array")
      | "$or" => match val with
          | .array items => (parseFilters items).map Filter.or
          | _ => .error (.invalidFormat "$or must be an array")
      | "$not" => (parseFilter val).map Filter.not
      | _ => .error (.unsupportedOperator key)
    else
      match parseFieldCondition key val with
      | .error error => .error error
      | .ok filter => parseConditions members (filters ++ [filter])

def parseFilters : List JsonValue → Except QueryParseError (List Filter)
  | [] => .ok []
  | item :: items =>
    match parseFilter item with
    | .error error => .error error
    | .ok filter => (parseFilters items).map (filter :: ·)

end

end QueryParser

end VedDb
