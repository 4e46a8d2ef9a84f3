import VedDb.Document

/-!
# Cached values

The values of the cache and the record kept of each, from `cache/data_structures.rs`.
-/

namespace VedDb

inductive CacheData where
  | string (value : Value)
  | list (items : List Value)
  | set (items : List String)
  | sortedSet (items : List (String × F64))
  | hash (fields : Fields)

def CacheData.sizeBytes : CacheData → Nat
  | .string value => value.sizeBytes
  | .list items => Value.sizeBytesArray items + 16
  | .set items => (items.map fun item => item.utf8ByteSize).sum + 16
  | .sortedSet items => (items.map fun item => item.1.utf8ByteSize + 8).sum + 16
  | .hash fields => Value.sizeBytesObject fields.toList + 16

structure CachedValue where
  value : CacheData
  expiresAt : Option DateTime
  lastAccessed : DateTime
  accessCount : UInt64
  sizeBytes : UInt64

/-- A number of seconds as the `i64` a `u64` is cast to. -/
def ttlSeconds (ttl : Nat) : Int := (Int64.ofNat ttl).toInt

namespace CachedValue

def new (now : DateTime) (value : CacheData) : CachedValue :=
  { value := value, expiresAt := none, lastAccessed := now, accessCount := 0,
    sizeBytes := UInt64.ofNat value.sizeBytes }

/-- The instant a TTL ends.  A TTL outside the range of `chrono` would panic. -/
def expiry (now : DateTime) (ttl : Nat) : DateTime := now + ttlSeconds ttl * 1000000000

def withTtl (now : DateTime) (value : CacheData) (ttl : Nat) : CachedValue :=
  { new now value with expiresAt := some (expiry now ttl) }

/-- `is_expired`: strictly after the instant. -/
def isExpired (now : DateTime) (cached : CachedValue) : Bool :=
  match cached.expiresAt with
  | some expiresAt => expiresAt < now
  | none => false

def markAccessed (now : DateTime) (cached : CachedValue) : CachedValue :=
  { cached with lastAccessed := now, accessCount := cached.accessCount + 1 }

def updateTtl (now : DateTime) (cached : CachedValue) (ttl : Nat) : CachedValue :=
  { cached with expiresAt := some (expiry now ttl) }

def persist (cached : CachedValue) : CachedValue := { cached with expiresAt := none }

end CachedValue

end VedDb
