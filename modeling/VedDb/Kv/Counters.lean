import VedDb.Kv.Commands

/-!
# The counters of the key-value store

`KvShard` and `KvStore` with their counters.  The table has a counter of its own, the shard counts
its entries and their bytes, and the store counts its keys, each on what the call below returns.
-/

namespace VedDb

open LittleEndian (Bytes)
open SharedArena (Header)

/-- `KvShard`, whose lock is held for the whole of an operation. -/
structure KvShard (capacityBits : Fin 64) where
  hashTable : HashTable capacityBits
  operationCount : UInt64
  entryCount : UInt64
  memoryUsed : UInt64

namespace KvShard

variable {capacityBits : Fin 64}

def init : KvShard capacityBits :=
  { hashTable := .init capacityBits, operationCount := 0, entryCount := 0, memoryUsed := 0 }

def counted (shard : KvShard capacityBits) (hashTable : HashTable capacityBits) :
    KvShard capacityBits :=
  { shard with hashTable := hashTable, operationCount := shard.operationCount + 1 }

def set (shard : KvShard capacityBits) (arena : ArenaState Header) (key value : Bytes) :
    Option (Except KvError Unit × KvShard capacityBits × ArenaState Header) := do
  let (result, hashTable, arena) ←
    shard.hashTable.insert SharedArena.arena fnv1a arena key value
  let shard := shard.counted hashTable
  match result with
  | .error e => return (.error e, shard, arena)
  | .ok wasNew =>
    let shard := if wasNew then { shard with entryCount := shard.entryCount + 1 } else shard
    let added := UInt64.ofNat (key.length + value.length)
    return (.ok (), { shard with memoryUsed := shard.memoryUsed + added }, arena)

def get (shard : KvShard capacityBits) (arena : ArenaState Header) (key : Bytes) :
    Option (Option Bytes × KvShard capacityBits) := do
  let value ← shard.hashTable.get fnv1a arena key
  return (value, shard.counted shard.hashTable)

def delete (shard : KvShard capacityBits) (arena : ArenaState Header) (key : Bytes) :
    Option (Bool × KvShard capacityBits × ArenaState Header) := do
  let (removed, hashTable, arena) ← shard.hashTable.remove SharedArena.arena fnv1a arena key
  let shard := shard.counted hashTable
  match removed with
  | none => return (false, shard, arena)
  | some oldSize =>
    let shard :=
      { shard with
        entryCount := shard.entryCount - 1
        memoryUsed := shard.memoryUsed - UInt64.ofNat oldSize }
    return (true, shard, arena)

def cas (shard : KvShard capacityBits) (arena : ArenaState Header) (key : Bytes)
    (expectedVersion : UInt64) (newValue : Bytes) :
    Option (Except KvError UInt64 × KvShard capacityBits × ArenaState Header) := do
  let (result, hashTable, arena) ←
    shard.hashTable.cas SharedArena.arena fnv1a arena key expectedVersion newValue
  return (result, shard.counted hashTable, arena)

end KvShard

/-- `KvStore` with its counters. -/
structure CountedStore (shardBits capacityBits : Fin 64) where
  shards : Fin (2 ^ shardBits.val) → KvShard capacityBits
  totalOperations : UInt64
  totalKeys : UInt64

/-- `KvStats`, without the number of shards. -/
structure KvStats where
  totalOperations : UInt64
  totalKeys : UInt64
  totalEntries : UInt64
  totalMemoryUsed : UInt64

namespace CountedStore

variable {shardBits capacityBits : Fin 64}

def init (shardBits capacityBits : Fin 64) : CountedStore shardBits capacityBits :=
  { shards := fun _ => .init, totalOperations := 0, totalKeys := 0 }

def getShard (store : CountedStore shardBits capacityBits) (key : Bytes) : KvShard capacityBits :=
  store.shards (KvStore.shardIndex shardBits key)

def setShard (store : CountedStore shardBits capacityBits) (key : Bytes)
    (shard : KvShard capacityBits) : CountedStore shardBits capacityBits :=
  { store with
    shards := Function.update store.shards (KvStore.shardIndex shardBits key) shard
    totalOperations := store.totalOperations + 1 }

def set (store : CountedStore shardBits capacityBits) (arena : ArenaState Header)
    (key value : Bytes) :
    Option (Except KvError Unit × CountedStore shardBits capacityBits × ArenaState Header) := do
  let (result, shard, arena) ← (store.getShard key).set arena key value
  let store := store.setShard key shard
  match result with
  | .ok () => return (result, { store with totalKeys := store.totalKeys + 1 }, arena)
  | .error _ => return (result, store, arena)

def get (store : CountedStore shardBits capacityBits) (arena : ArenaState Header) (key : Bytes) :
    Option (Option Bytes × CountedStore shardBits capacityBits) := do
  let (value, shard) ← (store.getShard key).get arena key
  return (value, store.setShard key shard)

def delete (store : CountedStore shardBits capacityBits) (arena : ArenaState Header) (key : Bytes) :
    Option (Bool × CountedStore shardBits capacityBits × ArenaState Header) := do
  let (deleted, shard, arena) ← (store.getShard key).delete arena key
  let store := store.setShard key shard
  if deleted then return (deleted, { store with totalKeys := store.totalKeys - 1 }, arena)
  else return (deleted, store, arena)

def cas (store : CountedStore shardBits capacityBits) (arena : ArenaState Header) (key : Bytes)
    (expectedVersion : UInt64) (newValue : Bytes) :
    Option (Except KvError UInt64 × CountedStore shardBits capacityBits × ArenaState Header) := do
  let (result, shard, arena) ← (store.getShard key).cas arena key expectedVersion newValue
  return (result, store.setShard key shard, arena)

def stats (store : CountedStore shardBits capacityBits) : KvStats :=
  let shards := List.ofFn store.shards
  { totalOperations := store.totalOperations
    totalKeys := store.totalKeys
    totalEntries := (shards.map KvShard.entryCount).foldl (· + ·) 0
    totalMemoryUsed := (shards.map KvShard.memoryUsed).foldl (· + ·) 0 }

def tables (store : CountedStore shardBits capacityBits) : KvStore shardBits capacityBits :=
  { shards := fun i => (store.shards i).hashTable }

theorem tables_setShard (store : CountedStore shardBits capacityBits) (key : Bytes)
    (shard : KvShard capacityBits) :
    (store.setShard key shard).tables = store.tables.setShard key shard.hashTable := by
  apply congrArg KvStore.mk
  funext i
  show (Function.update store.shards (KvStore.shardIndex shardBits key) shard i).hashTable =
    Function.update store.tables.shards (KvStore.shardIndex shardBits key) shard.hashTable i
  rw [Function.update_apply, Function.update_apply]
  split
  · rfl
  · rfl

end CountedStore

/-! ## Calls -/

/-- The operations of a store, from any number of clients. -/
inductive KvOperation where
  | set (key value : Bytes)
  | get (key : Bytes)
  | delete (key : Bytes)
  | cas (key : Bytes) (expectedVersion : UInt64) (newValue : Bytes)

namespace KvOperation

def key : KvOperation → Bytes
  | .set key _ | .get key | .delete key | .cas key _ _ => key

def call : KvOperation → HashTable.Call
  | .set key value => .insert key value
  | .get key => .get key
  | .delete key => .remove key
  | .cas key expectedVersion newValue => .cas key expectedVersion newValue

end KvOperation

structure CountedKv (shardBits capacityBits : Fin 64) where
  kvStore : CountedStore shardBits capacityBits
  arena : ArenaState Header

namespace CountedKv

variable {shardBits capacityBits : Fin 64}

/-- `VedDb::create`, with this many bytes for the arena. -/
def create (shardBits capacityBits : Fin 64) (arenaSize : UInt64) :
    CountedKv shardBits capacityBits :=
  { kvStore := .init shardBits capacityBits, arena := SharedArena.init arenaSize }

/-- The state after an operation.  One that never returns leaves tables and counters as they are,
but for the counts of operations. -/
def after (s : CountedKv shardBits capacityBits) : KvOperation → CountedKv shardBits capacityBits
  | .set key value =>
    match s.kvStore.set s.arena key value with
    | none => s
    | some (_, store, arena) => { kvStore := store, arena := arena }
  | .get key =>
    match s.kvStore.get s.arena key with
    | none => s
    | some (_, store) => { s with kvStore := store }
  | .delete key =>
    match s.kvStore.delete s.arena key with
    | none => s
    | some (_, store, arena) => { kvStore := store, arena := arena }
  | .cas key expectedVersion newValue =>
    match s.kvStore.cas s.arena key expectedVersion newValue with
    | none => s
    | some (_, store, arena) => { kvStore := store, arena := arena }

def shared (s : CountedKv shardBits capacityBits) : SharedKv shardBits capacityBits :=
  { kvStore := s.kvStore.tables, arena := s.arena }

theorem shared_after (s : CountedKv shardBits capacityBits) (op : KvOperation) :
    (s.after op).shared =
      match (s.kvStore.getShard op.key).hashTable.step SharedArena.arena fnv1a s.arena op.call with
      | none => s.shared
      | some (_, hashTable, arena) =>
        { kvStore := s.kvStore.tables.setShard op.key hashTable, arena := arena } := by
  cases op with
  | set key value =>
    simp only [after, CountedStore.set, KvShard.set, HashTable.step, KvOperation.call,
      KvOperation.key]
    cases (s.kvStore.getShard key).hashTable.insert SharedArena.arena fnv1a s.arena key value with
    | none => rfl
    | some next =>
      obtain ⟨result, hashTable, arena⟩ := next
      cases result with
      | error e =>
        exact congrArg (SharedKv.mk · arena) (CountedStore.tables_setShard _ _ _)
      | ok wasNew =>
        cases wasNew with
        | true => exact congrArg (SharedKv.mk · arena) (CountedStore.tables_setShard _ _ _)
        | false => exact congrArg (SharedKv.mk · arena) (CountedStore.tables_setShard _ _ _)
  | get key =>
    simp only [after, CountedStore.get, KvShard.get, HashTable.step, KvOperation.call,
      KvOperation.key]
    cases (s.kvStore.getShard key).hashTable.get fnv1a s.arena key with
    | none => rfl
    | some value => exact congrArg (SharedKv.mk · s.arena) (CountedStore.tables_setShard _ _ _)
  | delete key =>
    simp only [after, CountedStore.delete, KvShard.delete, HashTable.step, KvOperation.call,
      KvOperation.key]
    cases (s.kvStore.getShard key).hashTable.remove SharedArena.arena fnv1a s.arena key with
    | none => rfl
    | some next =>
      obtain ⟨result, hashTable, arena⟩ := next
      cases result with
      | none => exact congrArg (SharedKv.mk · arena) (CountedStore.tables_setShard _ _ _)
      | some oldSize =>
        exact congrArg (SharedKv.mk · arena) (CountedStore.tables_setShard _ _ _)
  | cas key expectedVersion newValue =>
    simp only [after, CountedStore.cas, KvShard.cas, HashTable.step, KvOperation.call,
      KvOperation.key]
    cases (s.kvStore.getShard key).hashTable.cas SharedArena.arena fnv1a s.arena key
      expectedVersion newValue with
    | none => rfl
    | some next =>
      obtain ⟨result, hashTable, arena⟩ := next
      exact congrArg (SharedKv.mk · arena) (CountedStore.tables_setShard _ _ _)

end CountedKv

end VedDb
