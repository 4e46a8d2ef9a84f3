import Mathlib.Logic.Function.Basic
import VedDb.Document
import VedDb.Lib.Blocks
import VedDb.Lib.Masks

/-!
# The hash table of the key-value store

`kv/hash_table.rs`: open addressing with linear probing, keys and values in an arena.  The arena is
a parameter here: what it does to its own bookkeeping and to the memory.  The loop of `find_entry`
has no bound in the source; here it gives up after it has looked at every entry once, and `none`
stands for a call that never returns.
-/

namespace VedDb

open LittleEndian (Bytes)

/-! ## Arenas -/

/-- The memory of an arena and its header, which no block overlaps. -/
structure ArenaState (β : Type) where
  header : β
  memory : Memory UInt8

/-- `Arena::allocate(size, align)`, 0 for a failure, and `Arena::free(offset, size)`. -/
structure Arena (β : Type) where
  allocate : ArenaState β → Nat → Nat → UInt64 × ArenaState β
  free : ArenaState β → UInt64 → Nat → ArenaState β

/-- The two copies of `insert` and `cas`: the key, and the value right after it. -/
def ArenaState.copy {β : Type} (arena : ArenaState β) (offset : UInt64) (key value : Bytes) :
    ArenaState β :=
  { arena with
    memory := (arena.memory.write offset.toNat key).write (offset.toNat + key.length) value }

/-! ## Entries -/

inductive KvError where
  | keyTooLarge
  | valueTooLarge
  | outOfMemory
  | versionMismatch
  | notFound
deriving DecidableEq

structure Entry where
  hash : UInt64
  version : UInt64
  keyLen : UInt32
  valLen : UInt32
  dataOffset : UInt64
deriving DecidableEq

namespace Entry

def emptyHash : UInt64 := 0

def tombstoneHash : UInt64 := 1

def new : Entry := { hash := emptyHash, version := 0, keyLen := 0, valLen := 0, dataOffset := 0 }

def isTombstone (entry : Entry) : Bool := entry.hash = tombstoneHash

/-- The entry that `remove` leaves. -/
def markTombstone (entry : Entry) : Entry :=
  { entry with hash := tombstoneHash, keyLen := 0, valLen := 0, dataOffset := 0 }

/-- `entry.key_len as usize + entry.val_len as usize`. -/
def dataSize (entry : Entry) : Nat := entry.keyLen.toNat + entry.valLen.toNat

def keyBlock (entry : Entry) : Block :=
  { offset := entry.dataOffset.toNat, length := entry.keyLen.toNat }

def valueBlock (entry : Entry) : Block :=
  { offset := entry.dataOffset.toNat + entry.keyLen.toNat, length := entry.valLen.toNat }

/-- The key and the value of an entry lie next to each other. -/
def block (entry : Entry) : Block :=
  { offset := entry.dataOffset.toNat, length := entry.dataSize }

def keysEqual (memory : Memory UInt8) (entry : Entry) (key : Bytes) : Bool :=
  entry.keyLen.toNat = key.length && memory.read entry.keyBlock = key

/-- The value half of `get_key_value`. -/
def valueOf (memory : Memory UInt8) (entry : Entry) : Bytes := memory.read entry.valueBlock

end Entry

/-! ## The table -/

/-- A table of `2 ^ bits` entries. -/
structure HashTable (bits : Fin 64) where
  entries : Fin (2 ^ bits.val) → Entry
  size : UInt64

/-- The loop of `hash_key`, in the table and in the store that picks the shard: FNV-1a. -/
def fnv1a (key : Bytes) : UInt64 :=
  key.foldl (fun hash byte => (hash ^^^ byte.toUInt64) * 0x100000001b3) 0xcbf29ce484222325

/-- `hash_key` over any digest: the hashes 0 and 1 are reserved. -/
def hashKey (digest : Bytes → UInt64) (key : Bytes) : UInt64 :=
  if digest key ≤ Entry.tombstoneHash then 2 else digest key

namespace HashTable

variable {bits : Fin 64} {β : Type} (A : Arena β) (digest : Bytes → UInt64)

def init (bits : Fin 64) : HashTable bits := { entries := fun _ => .new, size := 0 }

/-! ### Probing -/

def mask (bits : Fin 64) : UInt64 := UInt64.ofNat (2 ^ bits.val - 1)

theorem toNat_and_mask (bits : Fin 64) (hash : UInt64) :
    (hash &&& mask bits).toNat = hash.toNat % 2 ^ bits.val := toNat_and_low_bits bits hash

/-- `hash & self.mask`. -/
def position (bits : Fin 64) (hash : UInt64) : Fin (2 ^ bits.val) :=
  ⟨(hash &&& mask bits).toNat, by
    rw [toNat_and_mask]
    exact Nat.mod_lt _ (Nat.two_pow_pos _)⟩

/-- `(index + 1) & self.mask`. -/
def nextPosition (index : Fin (2 ^ bits.val)) : Fin (2 ^ bits.val) :=
  position bits (UInt64.ofNat index.val + 1)

/-- The loop of `find_entry`. -/
def findEntryFrom (table : HashTable bits) (memory : Memory UInt8) (key : Bytes) (hash : UInt64) :
    Nat → Fin (2 ^ bits.val) → Option (Fin (2 ^ bits.val) × Bool)
  | 0, _ => none
  | fuel + 1, index =>
    let entry := table.entries index
    if entry.hash = Entry.emptyHash then some (index, false)
    else if entry.hash = hash && entry.keysEqual memory key then some (index, true)
    else findEntryFrom table memory key hash fuel (nextPosition index)

def findEntry (table : HashTable bits) (memory : Memory UInt8) (key : Bytes) (hash : UInt64) :
    Option (Fin (2 ^ bits.val) × Bool) :=
  table.findEntryFrom memory key hash (2 ^ bits.val) (position bits hash)

/-! ### The operations -/

def setEntry (table : HashTable bits) (index : Fin (2 ^ bits.val)) (entry : Entry) :
    HashTable bits :=
  { table with entries := Function.update table.entries index entry }

/-- Where `insert` and `cas` put data of the new size: in the entry's old block when it is large
enough, else in a block allocated after the old one is freed. -/
def resize (arena : ArenaState β) (entry : Entry) (newSize : Nat) :
    Option UInt64 × ArenaState β :=
  if entry.dataSize < newSize then
    let (offset, arena) := A.allocate (A.free arena entry.dataOffset entry.dataSize) newSize 8
    (if offset = 0 then none else some offset, arena)
  else (some entry.dataOffset, arena)

def insert (table : HashTable bits) (arena : ArenaState β) (key value : Bytes) :
    Option (Except KvError Bool × HashTable bits × ArenaState β) :=
  if 2 ^ 32 ≤ key.length ∨ 2 ^ 32 ≤ value.length then some (.error .keyTooLarge, table, arena)
  else
    let hash := hashKey digest key
    match table.findEntry arena.memory key hash with
    | none => none
    | some (index, true) =>
      let entry := table.entries index
      match resize A arena entry (key.length + value.length) with
      | (none, arena) => some (.error .outOfMemory, table, arena)
      | (some offset, arena) =>
        let entry :=
          { entry with
            dataOffset := offset
            keyLen := UInt32.ofNat key.length
            valLen := UInt32.ofNat value.length }
        some (.ok false, table.setEntry index entry, arena.copy offset key value)
    | some (index, false) =>
      let (offset, arena) := A.allocate arena (key.length + value.length) 8
      if offset = 0 then some (.error .outOfMemory, table, arena)
      else
        let entry :=
          { hash := hash
            version := 1
            keyLen := UInt32.ofNat key.length
            valLen := UInt32.ofNat value.length
            dataOffset := offset }
        let table := { table.setEntry index entry with size := table.size + 1 }
        some (.ok true, table, arena.copy offset key value)

def get (table : HashTable bits) (arena : ArenaState β) (key : Bytes) : Option (Option Bytes) :=
  match table.findEntry arena.memory key (hashKey digest key) with
  | none => none
  | some (index, true) => some (some ((table.entries index).valueOf arena.memory))
  | some (_, false) => some none

/-- `remove`: the size of the data it removed. -/
def remove (table : HashTable bits) (arena : ArenaState β) (key : Bytes) :
    Option (Option Nat × HashTable bits × ArenaState β) :=
  match table.findEntry arena.memory key (hashKey digest key) with
  | none => none
  | some (index, true) =>
    let entry := table.entries index
    if entry.isTombstone then some (none, table, arena)
    else
      let size := (entry.keyLen + entry.valLen).toNat
      let table := { table.setEntry index entry.markTombstone with size := table.size - 1 }
      some (some size, table, A.free arena entry.dataOffset size)
  | some (_, false) => some (none, table, arena)

/-- `cas`: the new version. -/
def cas (table : HashTable bits) (arena : ArenaState β) (key : Bytes) (expectedVersion : UInt64)
    (newValue : Bytes) : Option (Except KvError UInt64 × HashTable bits × ArenaState β) :=
  match table.findEntry arena.memory key (hashKey digest key) with
  | none => none
  | some (_, false) => some (.error .notFound, table, arena)
  | some (index, true) =>
    let entry := table.entries index
    if entry.version ≠ expectedVersion then some (.error .versionMismatch, table, arena)
    else
      match resize A arena entry (entry.keyLen.toNat + newValue.length) with
      | (none, arena) => some (.error .outOfMemory, table, arena)
      | (some offset, arena) =>
        let entry :=
          { entry with
            dataOffset := offset
            valLen := UInt32.ofNat newValue.length
            version := entry.version + 1 }
        -- the source copies `key_len` bytes of the key it was given
        let arena := arena.copy offset (key.take entry.keyLen.toNat) newValue
        some (.ok entry.version, table.setEntry index entry, arena)

/-! ### What the operations do once the search has ended -/

section

variable {A digest} {table : HashTable bits} {arena arena' : ArenaState β} {key value : Bytes}
  {index : Fin (2 ^ bits.val)} {offset : UInt64} {expectedVersion : UInt64}

theorem insert_of_none (hshort : key.length + value.length < 2 ^ 32)
    (hfind : table.findEntry arena.memory key (hashKey digest key) = none) :
    table.insert A digest arena key value = none := by
  rw [insert, if_neg (by omega)]
  simp only [hfind]

theorem insert_of_match (hshort : key.length + value.length < 2 ^ 32)
    (hfind : table.findEntry arena.memory key (hashKey digest key) = some (index, true))
    (hresize : resize A arena (table.entries index) (key.length + value.length) =
      (some offset, arena')) :
    table.insert A digest arena key value =
      some (.ok false,
        table.setEntry index
          { table.entries index with
            dataOffset := offset
            keyLen := UInt32.ofNat key.length
            valLen := UInt32.ofNat value.length },
        arena'.copy offset key value) := by
  rw [insert, if_neg (by omega)]
  simp only [hfind, hresize]

theorem insert_of_vacant (hshort : key.length + value.length < 2 ^ 32)
    (hfind : table.findEntry arena.memory key (hashKey digest key) = some (index, false))
    (hoffset : (A.allocate arena (key.length + value.length) 8).1 ≠ 0) :
    table.insert A digest arena key value =
      some (.ok true,
        { table.setEntry index
            { hash := hashKey digest key
              version := 1
              keyLen := UInt32.ofNat key.length
              valLen := UInt32.ofNat value.length
              dataOffset := (A.allocate arena (key.length + value.length) 8).1 } with
          size := table.size + 1 },
        (A.allocate arena (key.length + value.length) 8).2.copy
          (A.allocate arena (key.length + value.length) 8).1 key value) := by
  rw [insert, if_neg (by omega)]
  simp only [hfind, if_neg hoffset]

theorem remove_of_match
    (hfind : table.findEntry arena.memory key (hashKey digest key) = some (index, true))
    (hlive : (table.entries index).hash ≠ Entry.tombstoneHash) :
    table.remove A digest arena key =
      some (some ((table.entries index).keyLen + (table.entries index).valLen).toNat,
        { table.setEntry index (table.entries index).markTombstone with size := table.size - 1 },
        A.free arena (table.entries index).dataOffset
          ((table.entries index).keyLen + (table.entries index).valLen).toNat) := by
  have htombstone : ¬(table.entries index).isTombstone := by
    simpa [Entry.isTombstone] using hlive
  rw [remove, hfind]
  simp only [if_neg htombstone]

theorem remove_of_vacant
    (hfind : table.findEntry arena.memory key (hashKey digest key) = some (index, false)) :
    table.remove A digest arena key = some (none, table, arena) := by
  rw [remove, hfind]

theorem cas_of_vacant
    (hfind : table.findEntry arena.memory key (hashKey digest key) = some (index, false)) :
    table.cas A digest arena key expectedVersion value =
      some (.error .notFound, table, arena) := by
  rw [cas, hfind]

theorem cas_of_ne
    (hfind : table.findEntry arena.memory key (hashKey digest key) = some (index, true))
    (hne : (table.entries index).version ≠ expectedVersion) :
    table.cas A digest arena key expectedVersion value =
      some (.error .versionMismatch, table, arena) := by
  rw [cas, hfind]
  exact if_pos hne

theorem cas_of_eq
    (hfind : table.findEntry arena.memory key (hashKey digest key) = some (index, true))
    (heq : (table.entries index).version = expectedVersion)
    (hresize : resize A arena (table.entries index)
      ((table.entries index).keyLen.toNat + value.length) = (some offset, arena')) :
    table.cas A digest arena key expectedVersion value =
      some (.ok ((table.entries index).version + 1),
        table.setEntry index
          { table.entries index with
            dataOffset := offset
            valLen := UInt32.ofNat value.length
            version := (table.entries index).version + 1 },
        arena'.copy offset (key.take (table.entries index).keyLen.toNat) value) := by
  rw [cas, hfind]
  simp only [hresize, if_neg (not_not.mpr heq)]

end

/-! ### Runs -/

inductive Call where
  | insert (key value : Bytes)
  | get (key : Bytes)
  | remove (key : Bytes)
  | cas (key : Bytes) (expectedVersion : UInt64) (newValue : Bytes)

inductive Reply where
  | inserted (result : Except KvError Bool)
  | got (value : Option Bytes)
  | removed (size : Option Nat)
  | swapped (result : Except KvError UInt64)

def step (table : HashTable bits) (arena : ArenaState β) :
    Call → Option (Reply × HashTable bits × ArenaState β)
  | .insert key value => do
      let (result, next) ← table.insert A digest arena key value
      return (.inserted result, next)
  | .get key => do
      let value ← table.get digest arena key
      return (.got value, table, arena)
  | .remove key => do
      let (size, next) ← table.remove A digest arena key
      return (.removed size, next)
  | .cas key expectedVersion newValue => do
      let (result, next) ← table.cas A digest arena key expectedVersion newValue
      return (.swapped result, next)

def run (table : HashTable bits) (arena : ArenaState β) :
    List Call → Option (List Reply × HashTable bits × ArenaState β)
  | [] => some ([], table, arena)
  | call :: calls => do
      let (reply, table, arena) ← table.step A digest arena call
      let (replies, last) ← run table arena calls
      return (reply :: replies, last)

end HashTable

end VedDb
