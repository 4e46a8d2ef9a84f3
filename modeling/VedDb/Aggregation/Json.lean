import VedDb.Aggregation.Stages
import VedDb.Lib.Crossings
import VedDb.Serde.JsonValue

/-!
# Pipelines in JSON

The JSON form that `serde` derives for the stages and the operations of `aggregation.rs`, both
tagged by a member `$` of the object of their variant.  A variant that only wraps a value puts the
tag into the object of that value, so that the value has to be one.
-/

namespace VedDb

open Crossings
open LittleEndian (Bytes)

/-- The orders in which the hash map of a stage is iterated. -/
structure StageOrders where
  fields : MapOrder Int32
  accumulators : MapOrder AggregateOp

/-! ## Serialisation -/

def badType (variant unsupported : String) : String :=
  s!"cannot serialize tagged newtype variant AggregateOp::{variant} containing {unsupported}"

/-- `serialize_tagged_newtype` for an operation. -/
def encodeTaggedNewtype (variant name : String) : JsonValue → Except String (Json F64)
  | .null => .ok (.object [("$", .string name)])
  | .bool _ => .error (badType variant "a boolean")
  | .number (.float _) => .error (badType variant "a float")
  | .number _ => .error (badType variant "an integer")
  | .string _ => .error (badType variant "a string")
  | .array _ => .error (badType variant "a sequence")
  | .object members => .ok (.object (("$", .string name) :: encodeJsonMembers members))

/-- `Serialize for AggregateOp`. -/
def encodeOp : AggregateOp → Except String (Json F64)
  | .sum fieldRef => encodeTaggedNewtype "Sum" "sum" fieldRef
  | .count => .ok (.object [("$", .string "count")])
  | .avg field => encodeTaggedNewtype "Avg" "avg" (.string field)
  | .min field => encodeTaggedNewtype "Min" "min" (.string field)
  | .max field => encodeTaggedNewtype "Max" "max" (.string field)

def encodeInt32 (i : Int32) : Except String (Json F64) := .ok (.integer i.toInt)

def encodeUsize (n : UInt64) : Json F64 := .integer n.toNat

def encodeMap {α : Type} (order : MapOrder α) (encode : α → Except String (Json F64))
    (map : HashMap α) : Except String (Json F64) :=
  ((order.arrange map.toList).mapM (keyed encode)).map .object

/-- A variant with the fields. -/
def taggedStruct (name : String) (fields : List (String × Json F64)) : Json F64 :=
  .object (("$", .string name) :: fields)

/-- `Serialize for PipelineStage`. -/
def encodeStage (orders : StageOrders) : PipelineStage → Except String (Json F64)
  | .matching filter => .ok (taggedStruct "match" [("filter", encodeJsonValue filter)])
  | .project fields =>
    (encodeMap orders.fields encodeInt32 fields).map fun fields =>
      taggedStruct "project" [("fields", fields)]
  | .sort fields =>
    (encodeMap orders.fields encodeInt32 fields).map fun fields =>
      taggedStruct "sort" [("fields", fields)]
  | .limit count => .ok (taggedStruct "limit" [("count", encodeUsize count)])
  | .skip count => .ok (taggedStruct "skip" [("count", encodeUsize count)])
  | .group groupBy fields =>
    (encodeMap orders.accumulators encodeOp fields).map fun fields =>
      taggedStruct "group" [("_id", encodeJsonValue groupBy), ("fields", fields)]

def withOrders (orders : Nat → StageOrders) (stages : List PipelineStage) :
    List (PipelineStage × StageOrders) :=
  stages.mapIdx fun i stage => (stage, orders i)

def encodeStages (orders : Nat → StageOrders) (stages : List PipelineStage) :
    Except String (Json F64) :=
  ((withOrders orders stages).mapM fun stage => encodeStage stage.2 stage.1).map .array

/-- `Serialize for Pipeline`. -/
def encodePipeline (orders : Nat → StageOrders) (pipeline : Pipeline) :
    Except String (Json F64) :=
  (encodeStages orders pipeline.stages).map fun stages => .object [("stages", stages)]

/-- `Serialize for AggregateRequest`. -/
def encodeAggregate (orders : Nat → StageOrders) (collection : String)
    (stages : List PipelineStage) : Except String (Json F64) :=
  (encodeStages orders stages).map fun stages =>
    .object [("collection", .string collection), ("pipeline", stages)]

/-! ## Deserialisation -/

/-- `TaggedContentVisitor`: the variant, and what stands beside the tag. -/
def decodeTagged {T : Type} (ofName : String → Option T) (expected : String) :
    Json F64 → Except SerdeError (T × Json F64)
  | .object members =>
    match members.filter fun member => member.1 = "$" with
    | [] => .error (.missingField "$")
    | (_, .string name) :: others =>
      match ofName name with
      | none => .error (.unknownVariant name)
      | some type =>
        if others.isEmpty then
          .ok (type, .object (members.filter fun member => member.1 ≠ "$"))
        else .error (.duplicateField "$")
    | _ => .error (.invalidType "variant identifier")
  | .array [] => .error (.missingField "$")
  | .array (.string name :: items) =>
    match ofName name with
    | none => .error (.unknownVariant name)
    | some type => .ok (type, .array items)
  | .array _ => .error (.invalidType "variant identifier")
  | _ => .error (.invalidType expected)

def decodeField {α : Type} (name : String) (decode : Json F64 → Except SerdeError α) :
    Json F64 → Except SerdeError α
  | .object members =>
    match members.filter fun member => member.1 = name with
    | [] => .error (.missingField name)
    | (_, value) :: others =>
      match decode value with
      | .error e => .error e
      | .ok a => if others.isEmpty then .ok a else .error (.duplicateField name)
  | .array [] => .error (.invalidLength 0)
  | .array (value :: items) =>
    match decode value with
    | .error e => .error e
    | .ok a => if items.isEmpty then .ok a else .error (.invalidLength (items.length + 1))
  | _ => .error (.invalidType "struct")

/-- The loop over the members of a struct with two fields. -/
def decodeMembersOf {α β : Type} (name name' : String) (decode : Json F64 → Except SerdeError α)
    (decode' : Json F64 → Except SerdeError β) :
    List (String × Json F64) → Option α → Option β → Except SerdeError (α × β)
  | [], none, _ => .error (.missingField name)
  | [], some _, none => .error (.missingField name')
  | [], some a, some b => .ok (a, b)
  | (own, value) :: members, a, b =>
    if own = name then
      if a.isSome then .error (.duplicateField name)
      else
        match decode value with
        | .error e => .error e
        | .ok a => decodeMembersOf name name' decode decode' members (some a) b
    else if own = name' then
      if b.isSome then .error (.duplicateField name')
      else
        match decode' value with
        | .error e => .error e
        | .ok b => decodeMembersOf name name' decode decode' members a (some b)
    else decodeMembersOf name name' decode decode' members a b

def decodeFields {α β : Type} (name name' : String) (decode : Json F64 → Except SerdeError α)
    (decode' : Json F64 → Except SerdeError β) : Json F64 → Except SerdeError (α × β)
  | .object members => decodeMembersOf name name' decode decode' members none none
  | .array [] => .error (.invalidLength 0)
  | .array (value :: items) =>
    match decode value with
    | .error e => .error e
    | .ok a =>
      match items with
      | [] => .error (.invalidLength 1)
      | value' :: others =>
        match decode' value' with
        | .error e => .error e
        | .ok b =>
          if others.isEmpty then .ok (a, b)
          else .error (.invalidLength (others.length + 2))
  | _ => .error (.invalidType "struct")

def decodeInt32 : Json F64 → Except SerdeError Int32
  | .integer n =>
    if -2 ^ 31 ≤ n ∧ n < 2 ^ 31 then .ok (.ofInt n) else .error (.invalidValue "i32")
  | _ => .error (.invalidType "i32")

def decodeUsize : Json F64 → Except SerdeError UInt64
  | .integer n =>
    if 0 ≤ n ∧ n < 2 ^ 64 then .ok (.ofNat n.toNat) else .error (.invalidValue "usize")
  | _ => .error (.invalidType "usize")

def decodeString : Json F64 → Except SerdeError String
  | .string s => .ok s
  | _ => .error (.invalidType "a string")

def decodeMap {α : Type} (decode : Json F64 → Except SerdeError α) :
    Json F64 → Except SerdeError (HashMap α)
  | .object members => (members.mapM (keyed decode)).map (Std.ExtTreeMap.ofList · compare)
  | _ => .error (.invalidType "a map")

/-- The variants of `AggregateOp`. -/
inductive OpType where
  | sum
  | count
  | avg
  | min
  | max
deriving DecidableEq

def OpType.ofName : String → Option OpType
  | "sum" => some .sum
  | "count" => some .count
  | "avg" => some .avg
  | "min" => some .min
  | "max" => some .max
  | _ => none

/-- A variant of `AggregateOp` from what stands beside its tag. -/
def decodeOpContent (content : Json F64) : OpType → Except SerdeError AggregateOp
  | .sum => .ok (.sum (decodeJsonValue content))
  | .count =>
    match content with
    | .array (_ :: items) => .error (.invalidLength (items.length + 1))
    | _ => .ok .count
  | .avg => (decodeString content).map .avg
  | .min => (decodeString content).map .min
  | .max => (decodeString content).map .max

/-- `Deserialize for AggregateOp`. -/
def decodeOp (json : Json F64) : Except SerdeError AggregateOp :=
  match decodeTagged OpType.ofName "internally tagged enum AggregateOp" json with
  | .error e => .error e
  | .ok (type, content) => decodeOpContent content type

/-- The variants of `PipelineStage`. -/
inductive StageType where
  | matching
  | project
  | sort
  | limit
  | skip
  | group
deriving DecidableEq

def StageType.ofName : String → Option StageType
  | "match" => some .matching
  | "project" => some .project
  | "sort" => some .sort
  | "limit" => some .limit
  | "skip" => some .skip
  | "group" => some .group
  | _ => none

def decodeStageContent (content : Json F64) : StageType → Except SerdeError PipelineStage
  | .matching =>
    (decodeField "filter" (fun value => .ok (decodeJsonValue value)) content).map .matching
  | .project => (decodeField "fields" (decodeMap decodeInt32) content).map .project
  | .sort => (decodeField "fields" (decodeMap decodeInt32) content).map .sort
  | .limit => (decodeField "count" decodeUsize content).map .limit
  | .skip => (decodeField "count" decodeUsize content).map .skip
  | .group =>
    (decodeFields "_id" "fields" (fun value => .ok (decodeJsonValue value)) (decodeMap decodeOp)
      content).map fun group => .group group.1 group.2

/-- `Deserialize for PipelineStage`. -/
def decodeStage (json : Json F64) : Except SerdeError PipelineStage :=
  match decodeTagged StageType.ofName "internally tagged enum PipelineStage" json with
  | .error e => .error e
  | .ok (type, content) => decodeStageContent content type

def decodeStages : Json F64 → Except SerdeError (List PipelineStage)
  | .array items => items.mapM decodeStage
  | _ => .error (.invalidType "a sequence")

/-- `Deserialize for Pipeline`. -/
def decodePipeline (json : Json F64) : Except SerdeError Pipeline :=
  (decodeField "stages" decodeStages json).map Pipeline.mk

/-- `Deserialize for AggregateRequest`. -/
def decodeAggregate (json : Json F64) : Except SerdeError (String × List PipelineStage) :=
  decodeFields "collection" "pipeline" decodeString decodeStages json

/-! ## The wire -/

/-- `serde_json::to_vec` of what is written. -/
def SerdeEnv.toVec (env : SerdeEnv) (json : Except String (Json F64)) : Except String Bytes :=
  json.map env.text.write

def SerdeEnv.fromSlice {α : Type} (env : SerdeEnv) (decode : Json F64 → Except SerdeError α)
    (bytes : Bytes) : Except String α :=
  match env.text.read bytes with
  | .error e => .error e
  | .ok json =>
    match decode json with
    | .error e => .error (env.describe bytes e)
    | .ok a => .ok a

end VedDb
