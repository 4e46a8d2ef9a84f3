import VedDb.Kv.ArenaBlocks
import VedDb.Kv.Refinement
import VedDb.Kv.Termination
import VedDb.Lib.Runs
import VedDb.Protocol.Command

/-!
# The sharded store and its commands

`kv/mod.rs`, `kv/shard.rs` and the key-value handlers of `core.rs`, over the arena that all shards
share.  A shard is its hash table: the lock is held for the whole of an operation, and no command
reads the counters.  `shard_ptr` looks for the X
-/

namespace VedDb

open LittleEndian (Bytes leBytes ofLeBytes)
open SharedArena (Header)

structure KvStore (shardBits capacityBits : Fin 64) where
  shards : Fin (2 ^ shardBits.val) → HashTable capacityBits

namespace KvStore

variable {shardBits capacityBits : Fin 64}

def init (shardBits capacityBits : Fin 64) : KvStore shardBits capacityBits :=
  { shards := fun _ => .init capacityBits }

/-- The index of `get_shard`: `hash & self.shard_mask`. -/
def shardIndex (shardBits : Fin 64) (key : Bytes) : Fin (2 ^ shardBits.val) :=
  HashTable.position shardBits (fnv1a key)

def getShard (store : KvStore shardBits capacityBits) (key : Bytes) : HashTable capacityBits :=
  store.shards (shardIndex shardBits key)

def setShard (store : KvStore shardBits capacityBits) (key : Bytes)
    (table : HashTable capacityBits) : KvStore shardBits capacityBits :=
  { shards := Function.update store.shards (shardIndex shardBits key) table }

theorem setShard_getShard (store : KvStore shardBits capacityBits) (key : Bytes) :
    store.setShard key (store.getShard key) = store := by
  rw [setShard, getShard, Function.update_eq_self]

/-- `set`: whether the key was new is not told. -/
def set (store : KvStore shardBits capacityBits) (arena : ArenaState Header) (key value : Bytes) :
    Option (Except KvError Unit × KvStore shardBits capacityBits × ArenaState Header) := do
  let (result, table, arena) ← (store.getShard key).insert SharedArena.arena fnv1a arena key value
  return (result.map fun _ => (), store.setShard key table, arena)

def get (store : KvStore shardBits capacityBits) (arena : ArenaState Header) (key : Bytes) :
    Option (Option Bytes) := (store.getShard key).get fnv1a arena key

def delete (store : KvStore shardBits capacityBits) (arena : ArenaState Header) (key : Bytes) :
    Option (Bool × KvStore shardBits capacityBits × ArenaState Header) := do
  let (size, table, arena) ← (store.getShard key).remove SharedArena.arena fnv1a arena key
  return (size.isSome, store.setShard key table, arena)

def cas (store : KvStore shardBits capacityBits) (arena : ArenaState Header) (key : Bytes)
    (expectedVersion : UInt64) (newValue : Bytes) :
    Option (Except KvError UInt64 × KvStore shardBits capacityBits × ArenaState Header) := do
  let (result, table, arena) ←
    (store.getShard key).cas SharedArena.arena fnv1a arena key expectedVersion newValue
  return (result, store.setShard key table, arena)

end KvStore

/-! ## Commands -/

/-- What the key-value commands read and write of a `VedDb`. -/
structure SharedKv (shardBits capacityBits : Fin 64) where
  kvStore : KvStore shardBits capacityBits
  arena : ArenaState Header

namespace SharedKv

variable {shardBits capacityBits : Fin 64}

/-- `VedDb::create`, with this many bytes for the arena. -/
def create (shardBits capacityBits : Fin 64) (arenaSize : UInt64) :
    SharedKv shardBits capacityBits :=
  { kvStore := .init shardBits capacityBits, arena := SharedArena.init arenaSize }

def handleSet (db : SharedKv shardBits capacityBits) (command : Command) (seq : UInt32) :
    Option (Response × SharedKv shardBits capacityBits) := do
  let (result, store, arena) ← db.kvStore.set db.arena command.key command.value
  let response :=
    match result with
    | .ok () => Response.ok seq []
    | .error _ => Response.error seq
  return (response, { kvStore := store, arena := arena })

def handleGet (db : SharedKv shardBits capacityBits) (command : Command) (seq : UInt32) :
    Option (Response × SharedKv shardBits capacityBits) := do
  let value ← db.kvStore.get db.arena command.key
  let response :=
    match value with
    | some value => Response.ok seq value
    | none => Response.notFound seq
  return (response, db)

def handleDelete (db : SharedKv shardBits capacityBits) (command : Command) (seq : UInt32) :
    Option (Response × SharedKv shardBits capacityBits) := do
  let (deleted, store, arena) ← db.kvStore.delete db.arena command.key
  let response := if deleted then Response.ok seq [] else Response.notFound seq
  return (response, { kvStore := store, arena := arena })

/-- The version `handle_cas` expects: the first eight bytes of the value it is to store. -/
def payloadVersion (value : Bytes) : UInt64 :=
  if 8 ≤ value.length then UInt64.ofNat (ofLeBytes (value.take 8)) else 0

def handleCas (db : SharedKv shardBits capacityBits) (command : Command) (seq : UInt32) :
    Option (Response × SharedKv shardBits capacityBits) := do
  let (result, store, arena) ←
    db.kvStore.cas db.arena command.key (payloadVersion command.value) command.value
  let response :=
    match result with
    | .ok newVersion => Response.ok seq (leBytes 8 newVersion.toNat)
    | .error .notFound => Response.notFound seq
    | .error .versionMismatch => Response.new .versionMismatch seq []
    | .error _ => Response.error seq
  return (response, { kvStore := store, arena := arena })

/-- `process_command`, and `none` for a command that never returns.  The handlers that do not touch
the store (ping, publish and subscribe, info) are given as one. -/
def processCommand (other : OpCode → Command → Response) (db : SharedKv shardBits capacityBits)
    (command : Command) : Option (Response × SharedKv shardBits capacityBits) :=
  let seq := command.header.seq
  match command.header.opcode with
  | some .set => db.handleSet command seq
  | some .get => db.handleGet command seq
  | some .del => db.handleDelete command seq
  | some .cas => db.handleCas command seq
  | some .ping => some (other .ping command, db)
  | some .subscribe => some (other .subscribe command, db)
  | some .unsubscribe => some (other .unsubscribe command, db)
  | some .publish => some (other .publish command, db)
  | some .info => some (other .info command, db)
  | _ => some (Response.error seq, db)

/-! ## The commands of a client -/

/-- The arguments of `Command::set`, `get`, `del` and `cas`. -/
inductive Request where
  | set (seq : UInt32) (key value : Bytes)
  | get (seq : UInt32) (key : Bytes)
  | del (seq : UInt32) (key : Bytes)
  | cas (seq : UInt32) (key value : Bytes) (expectedVersion : UInt64)
deriving DecidableEq

namespace Request

def command : Request → Command
  | .set seq key value => Command.set seq key value
  | .get seq key => Command.get seq key
  | .del seq key => Command.del seq key
  | .cas seq key value expectedVersion => Command.cas seq key value expectedVersion

def seq : Request → UInt32
  | .set seq _ _ | .get seq _ | .del seq _ | .cas seq _ _ _ => seq

/-- The call of the hash table that a command comes to. -/
def call : Request → HashTable.Call
  | .set _ key value => .insert key value
  | .get _ key => .get key
  | .del _ key => .remove key
  | .cas _ key value _ => .cas key (payloadVersion value) value

end Request

def respond (seq : UInt32) : HashTable.Reply → Response
  | .inserted (.ok _) => .ok seq []
  | .inserted (.error _) => .error seq
  | .got (some value) => .ok seq value
  | .got none => .notFound seq
  | .removed (some _) => .ok seq []
  | .removed none => .notFound seq
  | .swapped (.ok newVersion) => .ok seq (leBytes 8 newVersion.toNat)
  | .swapped (.error .notFound) => .notFound seq
  | .swapped (.error .versionMismatch) => .new .versionMismatch seq []
  | .swapped (.error _) => .error seq

theorem processCommand_command (other : OpCode → Command → Response)
    (db : SharedKv shardBits capacityBits) (request : Request) :
    db.processCommand other request.command =
      ((db.kvStore.getShard request.call.key).step SharedArena.arena fnv1a db.arena
        request.call).map fun (reply, table, arena) =>
          (respond request.seq reply,
            { kvStore := db.kvStore.setShard request.call.key table, arena := arena }) := by
  cases request with
  | set seq key value =>
    show db.handleSet (Command.set seq key value) seq = _
    have hcommand : (Command.set seq key value).key = key := rfl
    have hvalue : (Command.set seq key value).value = value := rfl
    simp only [handleSet, KvStore.set, HashTable.step, Request.call, HashTable.Call.key, hcommand,
      hvalue]
    cases (db.kvStore.getShard key).insert SharedArena.arena fnv1a db.arena key value with
    | none => rfl
    | some next =>
      obtain ⟨result, _, _⟩ := next
      cases result <;> rfl
  | get seq key =>
    show db.handleGet (Command.get seq key) seq = _
    have hcommand : (Command.get seq key).key = key := rfl
    simp only [handleGet, KvStore.get, HashTable.step, Request.call, HashTable.Call.key, hcommand]
    cases (db.kvStore.getShard key).get fnv1a db.arena key with
    | none => rfl
    | some value =>
      have hself : db.kvStore.setShard key (db.kvStore.getShard key) = db.kvStore :=
        KvStore.setShard_getShard db.kvStore key
      simp only [Option.pure_def, Option.bind_eq_bind, Option.bind_some, Option.map_some, hself]
      cases value <;> rfl
  | del seq key =>
    show db.handleDelete (Command.del seq key) seq = _
    have hcommand : (Command.del seq key).key = key := rfl
    simp only [handleDelete, KvStore.delete, HashTable.step, Request.call, HashTable.Call.key,
      hcommand]
    cases (db.kvStore.getShard key).remove SharedArena.arena fnv1a db.arena key with
    | none => rfl
    | some next =>
      obtain ⟨size, _, _⟩ := next
      cases size <;> rfl
  | cas seq key value expectedVersion =>
    show db.handleCas (Command.cas seq key value expectedVersion) seq = _
    have hcommand : (Command.cas seq key value expectedVersion).key = key := rfl
    have hvalue : (Command.cas seq key value expectedVersion).value = value := rfl
    simp only [handleCas, KvStore.cas, HashTable.step, Request.call, HashTable.Call.key, hcommand,
      hvalue]
    cases (db.kvStore.getShard key).cas SharedArena.arena fnv1a db.arena key
      (payloadVersion value) value with
    | none => rfl
    | some next =>
      obtain ⟨result, _, _⟩ := next
      cases result with
      | ok newVersion => rfl
      | error error => cases error <;> rfl

end SharedKv

/-!
## The key-value commands and a versioned map

The handlers give the responses of a versioned map as long as a compare-and-swap is for a value
whose first eight bytes decide it as the version that the client expects would: those bytes are what
`handle_cas` takes for the expected version, and `Command::cas` does not put it there.
-/

namespace SharedKv

variable {shardBits capacityBits : Fin 64}

/-! ## The map's side -/

namespace Request

/-- The response to a compare-and-swap of the map. -/
def respondCas (seq : UInt32) : Except CasError UInt64 → Response
  | .ok newVersion => .ok seq (leBytes 8 newVersion.toNat)
  | .error .notFound => .notFound seq
  | .error .versionMismatch => .new .versionMismatch seq []

def onMap (map : VersionedMap Bytes Bytes) : Request → Response × VersionedMap Bytes Bytes
  | .set seq key value => (.ok seq [], map.put key value)
  | .get seq key =>
    match map.get key with
    | some value => (.ok seq value, map)
    | none => (.notFound seq, map)
  | .del seq key => (if map.contains key then .ok seq [] else .notFound seq, map.erase key)
  | .cas seq key value expectedVersion =>
    (respondCas seq (map.cas key expectedVersion value).1, (map.cas key expectedVersion value).2)

end Request

def runOnMap (map : VersionedMap Bytes Bytes) :
    List Request → List Response × VersionedMap Bytes Bytes
  | [] => ([], map)
  | request :: requests =>
    let (response, map) := request.onMap map
    let (responses, last) := runOnMap map requests
    (response :: responses, last)

/-! ## Runs -/

variable (other : OpCode → Command → Response)

def run (db : SharedKv shardBits capacityBits) :
    List Request → Option (List Response × SharedKv shardBits capacityBits)
  | [] => some ([], db)
  | request :: requests => do
      let (response, db) ← db.processCommand other request.command
      let (responses, last) ← run db requests
      return (response :: responses, last)

/-- The database after a command. -/
def after (db : SharedKv shardBits capacityBits) (request : Request) :
    SharedKv shardBits capacityBits :=
  ((db.processCommand other request.command).map Prod.snd).getD db

def versionOf (db : SharedKv shardBits capacityBits) (key : Bytes) : Option UInt64 :=
  match (db.kvStore.getShard key).findEntry db.arena.memory key (hashKey fnv1a key) with
  | some (index, true) => some ((db.kvStore.getShard key).entries index).version
  | _ => none

/-- The version in the payload decides a compare-and-swap as the expected version would. -/
def Decides (db : SharedKv shardBits capacityBits) : Request → Prop
  | .cas _ key value expectedVersion =>
    ∀ version ∈ db.versionOf key, payloadVersion value = version ↔ expectedVersion = version
  | _ => True

instance (db : SharedKv shardBits capacityBits) :
    (request : Request) → Decidable (db.Decides request)
  | .set .. => .isTrue trivial
  | .get .. => .isTrue trivial
  | .del .. => .isTrue trivial
  | .cas _ key value expectedVersion =>
    match h : db.versionOf key with
    | none => .isTrue (by simp [Decides, h])
    | some version =>
      decidable_of_iff (payloadVersion value = version ↔ expectedVersion = version)
        (by simp [Decides, h])

/-- The shard of the key has an empty entry or one of the key, the data of the command is short
enough for an entry, the arena serves it, and its payload decides it rightly. -/
structure Meets (db : SharedKv shardBits capacityBits) (request : Request) : Prop where
  stops : ∃ index, (db.kvStore.getShard request.call.key).Vacant index ∨
    (db.kvStore.getShard request.call.key).Matches db.arena.memory
      (hashKey fnv1a request.call.key) request.call.key index
  short : request.call.Short
  serves : HashTable.Serves SharedArena.arena fnv1a (KvStore.shardIndex shardBits)
    db.kvStore.shards db.arena request.call
  decides : db.Decides request

instance (db : SharedKv shardBits capacityBits) (request : Request) :
    Decidable (db.Meets request) :=
  decidable_of_iff
    ((∃ index, (db.kvStore.getShard request.call.key).Vacant index ∨
        (db.kvStore.getShard request.call.key).Matches db.arena.memory
          (hashKey fnv1a request.call.key) request.call.key index) ∧ request.call.Short ∧
      HashTable.Serves SharedArena.arena fnv1a (KvStore.shardIndex shardBits) db.kvStore.shards
        db.arena request.call ∧ db.Decides request)
    ⟨fun ⟨stops, short, serves, decides⟩ => ⟨stops, short, serves, decides⟩,
      fun ⟨stops, short, serves, decides⟩ => ⟨stops, short, serves, decides⟩⟩

abbrev Represents (db : SharedKv shardBits capacityBits) (map : VersionedMap Bytes Bytes) : Prop :=
  HashTable.TablesHold fnv1a (KvStore.shardIndex shardBits) db.kvStore.shards db.arena.memory map

variable {other} {db : SharedKv shardBits capacityBits} {map : VersionedMap Bytes Bytes}
  {request : Request}

theorem versionOf_eq (h : db.Represents map) {key : Bytes}
    (hfind : ((db.kvStore.getShard key).findEntry db.arena.memory key
      (hashKey fnv1a key)).isSome) :
    db.versionOf key = map[key]?.map Versioned.version := by
  rw [versionOf]
  split
  · rename_i index hmatch
    rw [(HashTable.lookup_of_match h hmatch).2]
    rfl
  · rename_i hmatch
    have ⟨⟨index, isMatch⟩, hsome⟩ := Option.isSome_iff_exists.mp hfind
    cases isMatch with
    | true => exact absurd hsome (hmatch index)
    | false =>
      rw [HashTable.lookup_of_vacant h hsome]
      rfl

/-- The map answers the client's compare-and-swap and the one of the payload alike. -/
theorem cas_eq_of_decides {key value : Bytes} {seq : UInt32} {expectedVersion : UInt64}
    (hversion : db.versionOf key = map[key]?.map Versioned.version)
    (h : db.Decides (.cas seq key value expectedVersion)) :
    map.cas key (payloadVersion value) value = map.cas key expectedVersion value := by
  cases hlookup : map[key]? with
  | none => rw [VersionedMap.cas_of_none hlookup, VersionedMap.cas_of_none hlookup]
  | some current =>
    rw [hlookup] at hversion
    have hiff := h current.version hversion
    by_cases hexpected : current.version = expectedVersion
    · have hpayload := hiff.mpr hexpected.symm
      rw [VersionedMap.cas_of_eq hlookup hexpected,
        VersionedMap.cas_of_eq hlookup hpayload.symm]
    · have hpayload : current.version ≠ payloadVersion value :=
        fun heq => hexpected (hiff.mp heq.symm).symm
      rw [VersionedMap.cas_of_ne hlookup hexpected, VersionedMap.cas_of_ne hlookup hpayload]

theorem respond_onMap (hcas : ∀ seq key value expectedVersion,
      request = .cas seq key value expectedVersion →
        map.cas key (payloadVersion value) value = map.cas key expectedVersion value) :
    (respond request.seq (request.call.onMap map).1, (request.call.onMap map).2) =
      request.onMap map := by
  cases request with
  | set seq key value => rfl
  | get seq key =>
    show (respond seq (.got (map.get key)), map) = Request.onMap map (.get seq key)
    rw [Request.onMap]
    cases map.get key <;> rfl
  | del seq key =>
    show (respond seq (.removed (map[key]?.map _)), map.erase key) = (ite _ _ _, map.erase key)
    rw [Std.ExtTreeMap.contains_eq_isSome_getElem?]
    cases map[key]? <;> rfl
  | cas seq key value expectedVersion =>
    show (respond seq (.swapped ((map.cas key (payloadVersion value) value).1.mapError _)),
      (map.cas key (payloadVersion value) value).2) = (Request.respondCas seq _, _)
    rw [hcas seq key value expectedVersion rfl]
    cases (map.cas key expectedVersion value).1 with
    | ok newVersion => rfl
    | error error => cases error <;> rfl

variable (other) in
theorem Meets.returns (hmeets : db.Meets request) :
    (db.processCommand other request.command).isSome := by
  rw [processCommand_command, Option.isSome_map]
  apply HashTable.step_isSome
  exact Option.isSome_iff_ne_none.mp (HashTable.findEntry_isSome_iff.mpr hmeets.stops)

variable (other) in
/-- A command that meets the conditions is answered as by the map, and keeps the two together. -/
theorem step_refines (h : db.Represents map) (hmeets : db.Meets request) :
    ∃ db', db.processCommand other request.command = some ((request.onMap map).1, db') ∧
      db'.Represents (request.onMap map).2 := by
  have ⟨⟨response, db'⟩, hprocess⟩ := Option.isSome_iff_exists.mp (hmeets.returns other)
  have hstep := hprocess
  rw [processCommand_command, Option.map_eq_some_iff] at hstep
  have ⟨⟨reply, table, arena⟩, hstep, hresult⟩ := hstep
  have ⟨hreply, hholds⟩ := HashTable.step_spec h hmeets.short hmeets.serves hstep
  have hresponds : (respond request.seq (request.call.onMap map).1, (request.call.onMap map).2) =
      request.onMap map := respond_onMap fun seq key value expectedVersion heq => by
    subst heq
    exact cas_eq_of_decides (versionOf_eq h (HashTable.findEntry_isSome_iff.mpr hmeets.stops))
      hmeets.decides
  rw [Prod.ext_iff] at hresponds
  cases hresult
  rw [← hresponds.1, ← hresponds.2, ← hreply]
  exact ⟨_, hprocess, hholds⟩

theorem run_represents {requests : List Request} (h : db.Represents map)
    (hmeets : MeetsAlong (after other) Meets db requests) :
    ∃ db', db.run other requests = some ((runOnMap map requests).1, db') ∧
      db'.Represents (runOnMap map requests).2 := by
  induction requests generalizing db map with
  | nil => exact ⟨db, rfl, h⟩
  | cons request requests ih =>
    have ⟨hmeet, hrest⟩ := hmeets
    have ⟨next, hprocess, hnext⟩ := step_refines other h hmeet
    have hafter : db.after other request = next := by
      rw [after, hprocess]
      rfl
    rw [hafter] at hrest
    have ⟨last, hrun, hlast⟩ := ih hnext hrest
    refine ⟨last, ?_, hlast⟩
    rw [run, hprocess]
    show (do
      let (responses, last) ← next.run other requests
      return (_ :: responses, last)) = _
    rw [hrun]
    rfl

/-- A handler for the other opcodes. -/
def pong (_ : OpCode) (command : Command) : Response := .ok command.header.seq []

/-- A key that is set, swapped, not swapped and deleted, with the expected versions in the payloads.
-/
def session : List Request :=
  [.set 1 [107] [118], .get 2 [107], .cas 3 [107] [1, 0, 0, 0, 0, 0, 0, 0, 42] 1, .get 4 [107],
    .cas 5 [107] [1, 0, 0, 0, 0, 0, 0, 0] 1, .del 6 [107], .get 7 [107]]

/-- The first swap expects the version there is, the second another. -/
def swaps : List Request :=
  [.set 1 [107] [118], .cas 2 [107] [119] 1, .get 3 [107],
    .cas 4 [107] [1, 0, 0, 0, 0, 0, 0, 0] 9, .get 5 [107]]

/-- The first swap fails, the second stores. -/
def swapResponses : List Response :=
  [.ok 1 [], .new .versionMismatch 2 [], .ok 3 [118], .ok 4 [2, 0, 0, 0, 0, 0, 0, 0],
    .ok 5 [1, 0, 0, 0, 0, 0, 0, 0]]

end SharedKv

end VedDb
