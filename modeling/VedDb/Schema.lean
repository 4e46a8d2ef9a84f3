import VedDb.Document

/-!
# Collection schemas and index definitions

The declarations of `schema.rs` that a logged operation carries: field types, validators, index
definitions and the cache settings of a collection.
-/

namespace VedDb

inductive Validator where
  | min (bound : F64)
  | max (bound : F64)
  | minLength (bound : Nat)
  | maxLength (bound : Nat)
  | regex (pattern : String)
  | enum (allowed : List Value)
  | custom (funcName : String)

mutual

/-- `FieldType`.  The fields of an object type are the sorted entries of its `BTreeMap`. -/
inductive FieldType where
  | string (maxLength : Option Nat)
  | int32
  | int64
  | float64
  | boolean
  | date
  | binary
  | objectId
  | array (itemType : FieldType)
  | object (fields : List (String × FieldDefinition))
  | reference (collection : String)
  | any

inductive FieldDefinition where
  | mk (fieldType : FieldType) (required : Bool) (default : Option Value) (unique indexed : Bool)
      (validators : List Validator) (encrypted : Bool) (encryptionKeyId : Option String)

end

inductive IndexType where
  | single (field : String)
  | compound (fields : List String)
  | text (field : String)
  | geospatial (field : String)
  deriving DecidableEq

structure IndexDefinition where
  name : String
  indexType : IndexType
  unique : Bool
  sparse : Bool
  deriving DecidableEq

inductive CacheStrategy where
  | none
  | writeThrough
  | writeBehind (delayMs : Nat)
  | readThrough
  deriving DecidableEq

inductive CacheWarmingStrategy where
  | none
  | preloadOnStartup (limit : Nat)
  | lazyLoad
  | scheduledRefresh (intervalSeconds : Nat)
  deriving DecidableEq

structure CollectionCacheConfig where
  strategy : CacheStrategy
  ttl : Option Nat
  fields : Option (List String)
  warming : CacheWarmingStrategy
  deriving DecidableEq

structure Schema where
  version : Nat
  fields : Std.ExtTreeMap String FieldDefinition
  indexes : List IndexDefinition
  cacheConfig : CollectionCacheConfig
  validation : Option String

end VedDb
