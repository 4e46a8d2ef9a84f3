import VedDb.Query.Execution
import VedDb.Query.Parser

/-!
# Parsing queries

`QueryParser::parse_from_value` of `query/parser.rs`: a query is an object whose parts are the
filter, the projection, the sort and two numbers, each of which may be absent.
-/

namespace VedDb

namespace Projection

def new : Projection := { fields := ∅ }

/-- `Projection::include` and `Projection::exclude`. -/
def withField (projection : Projection) (field : String) (type : ProjectionType) : Projection :=
  { fields := projection.fields.insert field type }

end Projection

namespace SortSpecification

def new : SortSpecification := { fields := [] }

def add (sort : SortSpecification) (field : String) (order : SortOrder) : SortSpecification :=
  { fields := sort.fields ++ [(field, order)] }

end SortSpecification

namespace QueryParser

/-! ## Projections -/

/-- Whether a field of a projection is included. -/
def parseInclusion : JsonValue → Except QueryParseError ProjectionType
  | .number n =>
    match n.asInt64 with
    | none => .error (.invalidFormat "Projection value must be 0 or 1")
    | some num =>
      if num = 0 then .ok .exclusion
      else if num = 1 then .ok .inclusion
      else .error (.invalidFormat "Projection value must be 0 or 1")
  | .bool true => .ok .inclusion
  | .bool false => .ok .exclusion
  | _ => .error (.invalidFormat "Projection value must be 0, 1, true, or false")

/-- The loop of `parse_projection`. -/
def parseInclusions : List (String × JsonValue) → Projection → Except QueryParseError Projection
  | [], projection => .ok projection
  | (field, val) :: members, projection =>
    match parseInclusion val with
    | .error error => .error error
    | .ok type => parseInclusions members (projection.withField field type)

def parseProjection : JsonValue → Except QueryParseError Projection
  | .object members => parseInclusions members .new
  | _ => .error (.invalidFormat "Projection must be an object")

/-! ## Sorts -/

def parseOrder : JsonValue → Except QueryParseError SortOrder
  | .number n =>
    match n.asInt64 with
    | none => .error (.invalidFormat "Sort value must be 1 or -1")
    | some num =>
      if num = 1 then .ok .ascending
      else if num = -1 then .ok .descending
      else .error (.invalidFormat "Sort value must be 1 or -1")
  | .string s =>
    match s with
    | "asc" | "ascending" => .ok .ascending
    | "desc" | "descending" => .ok .descending
    | _ => .error (.invalidFormat "Sort value must be 'asc' or 'desc'")
  | _ => .error (.invalidFormat "Sort value must be 1, -1, 'asc', or 'desc'")

/-- The loop of `parse_sort`. -/
def parseOrders : List (String × JsonValue) → SortSpecification →
    Except QueryParseError SortSpecification
  | [], sort => .ok sort
  | (field, val) :: members, sort =>
    match parseOrder val with
    | .error error => .error error
    | .ok order => parseOrders members (sort.add field order)

def parseSort : JsonValue → Except QueryParseError SortSpecification
  | .object members => parseOrders members .new
  | _ => .error (.invalidFormat "Sort must be an object")

/-! ## Queries -/

def parseNumber (message : String) (value : JsonValue) : Except QueryParseError UInt64 :=
  match value.asUInt64 with
  | none => .error (.invalidFormat message)
  | some n => .ok n

def parsePart {α : Type} (obj : List (String × JsonValue)) (key : String)
    (parse : JsonValue → Except QueryParseError α) : Except QueryParseError (Option α) :=
  match obj.lookup key with
  | none => .ok none
  | some value => (parse value).map some

def parseFromValue : JsonValue → Except QueryParseError Query
  | .object obj => do
      let filter ← parsePart obj "filter" parseFilter
      let projection ← parsePart obj "projection" parseProjection
      let sort ← parsePart obj "sort" parseSort
      let skip ← parsePart obj "skip" (parseNumber "skip must be a number")
      let limit ← parsePart obj "limit" (parseNumber "limit must be a number")
      return { filter := filter.getD .empty, projection, sort, skip, limit }
  | _ => .error (.invalidFormat "Query must be an object")

/-- The words for an order are taken beside the numbers. -/
example : parseSort (.object [("age", .string "desc"), ("name", .number (.posInt 1))]) =
    .ok { fields := [("age", .descending), ("name", .ascending)] } := rfl

end QueryParser

end VedDb
