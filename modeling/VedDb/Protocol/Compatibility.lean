import VedDb.Protocol.Requests

/-!
# Version 1 commands

`CompatibilityHandler` of `protocol/compatibility.rs`: key-value commands become commands on the
documents of one collection, and the answer of a query is turned back into that of a `GET`.
-/

namespace VedDb

open LittleEndian (Bytes)

/-- `LEGACY_KV_COLLECTION`. -/
def legacyKvCollection : String := "_legacy_kv"

/-- `Debug for OpCode`. -/
def OpCode.debug : OpCode → String
  | .ping => "Ping" | .set => "Set" | .get => "Get" | .del => "Del" | .cas => "Cas"
  | .subscribe => "Subscribe" | .unsubscribe => "Unsubscribe" | .publish => "Publish"
  | .fetch => "Fetch" | .info => "Info" | .auth => "Auth" | .authResponse => "AuthResponse"
  | .query => "Query" | .insertDoc => "InsertDoc" | .updateDoc => "UpdateDoc"
  | .deleteDoc => "DeleteDoc" | .createCollection => "CreateCollection"
  | .dropCollection => "DropCollection" | .listCollections => "ListCollections"
  | .createIndex => "CreateIndex" | .dropIndex => "DropIndex" | .listIndexes => "ListIndexes"
  | .lPush => "LPush" | .rPush => "RPush" | .lPop => "LPop" | .rPop => "RPop"
  | .lRange => "LRange" | .lLen => "LLen" | .sAdd => "SAdd" | .sRem => "SRem"
  | .sMembers => "SMembers" | .sIsMember => "SIsMember" | .sCard => "SCard"
  | .sUnion => "SUnion" | .sInter => "SInter" | .sDiff => "SDiff" | .zAdd => "ZAdd"
  | .zRem => "ZRem" | .zRange => "ZRange" | .zRangeByScore => "ZRangeByScore"
  | .zCard => "ZCard" | .zScore => "ZScore" | .hSet => "HSet" | .hGet => "HGet"
  | .hDel => "HDel" | .hGetAll => "HGetAll" | .hKeys => "HKeys" | .hVals => "HVals"
  | .hLen => "HLen" | .listUsers => "ListUsers" | .createUser => "CreateUser"
  | .deleteUser => "DeleteUser" | .updateUserRole => "UpdateUserRole"
  | .aggregate => "Aggregate" | .createBackup => "CreateBackup"
  | .listBackups => "ListBackups" | .restoreBackup => "RestoreBackup"
  | .deleteBackup => "DeleteBackup" | .pointInTimeRecover => "PointInTimeRecover"
  | .getReplicationStatus => "GetReplicationStatus" | .addSlave => "AddSlave"
  | .removeSlave => "RemoveSlave" | .listSlaves => "ListSlaves" | .forceSync => "ForceSync"
  | .createKey => "CreateKey" | .listKeys => "ListKeys" | .rotateKey => "RotateKey"
  | .exportKey => "ExportKey" | .importKey => "ImportKey"
  | .getKeyMetadata => "GetKeyMetadata" | .getKeysExpiring => "GetKeysExpiring"

namespace CompatibilityHandler

/-! ## Requests -/

def keyFilter (key : String) : Value := .object [("key", .string key)]

/-- The document of a `SET`, under the identifier that is drawn for it. -/
def setDocument (now : DateTime) (id : DocumentId) (key : String) (value : Bytes) : Document :=
  { id := id
    fields := (Std.ExtTreeMap.empty.insert "key" (.string key)).insert "value" (.binary value)
    metadata := .default now }

/-- The version in the first eight bytes of a payload. -/
def expectedVersion (value : Bytes) : Int64 :=
  if 8 ≤ value.length then Int64.ofNat (LittleEndian.ofLeBytes (value.take 8)) else 0

/-- The request of a `SET`. -/
def setRequest (now : DateTime) (id : DocumentId) (key : String) (value : Bytes) : LegacyRequest :=
  .insertDoc { collection := legacyKvCollection, document := setDocument now id key value }

/-- The request of a `GET`. -/
def getRequest (key : String) : LegacyRequest :=
  .query
    { collection := legacyKvCollection, filter := some (keyFilter key), projection := none,
      sort := none, skip := none, limit := some 1 }

/-- The request of a `DEL`. -/
def delRequest (key : String) : LegacyRequest :=
  .deleteDoc { collection := legacyKvCollection, filter := keyFilter key }

/-- The request of a `CAS`.  The fields of the update are the operators `$inc` and `$set`. -/
def casRequest (key : String) (value : Bytes) : LegacyRequest :=
  .updateDoc
    { collection := legacyKvCollection
      filter := .object [("key", .string key), ("version", .int64 (expectedVersion value))]
      update :=
        .object
          [("$inc", .object [("version", .int64 1)]), ("$set", .object [("value", .binary value)])]
      upsert := false }

/-- The request of a `FETCH`. -/
def fetchRequest : LegacyRequest :=
  .query
    { collection := legacyKvCollection, filter := none, projection := none, sort := none,
      skip := none, limit := some 1000 }

/-- `String::from_utf8` of a key. -/
def keyText (key : Bytes) : Except String String :=
  match String.fromUTF8? ⟨⟨key⟩⟩ with
  | none => .error "Invalid UTF-8 in key"
  | some key => .ok key

variable (wire : Wire)

def rewritten (cmd : Command) (op : OpCode) (request : LegacyRequest) : Except String Command :=
  match wire.legacyRequest request with
  | .error error => .error ("Serialization error: " ++ error)
  | .ok payload =>
    .ok
      { header :=
          { cmd.header.withKeyVal 0 (UInt32.ofNat payload.length) with op := op.code }
        key := []
        value := payload }

def translateCommand (now : DateTime) (id : DocumentId) (cmd : Command) : Except String Command :=
  if cmd.header.version ≠ protocolV1 then .ok cmd
  else
    let cmd := { cmd with header := { cmd.header with version := protocolV2 } }
    match cmd.header.opcode with
    | none => .error "Invalid opcode"
    | some .ping | some .subscribe | some .unsubscribe | some .publish | some .info => .ok cmd
    | some .set => do
        let key ← keyText cmd.key
        rewritten wire cmd .insertDoc (setRequest now id key cmd.value)
    | some .get => do
        let key ← keyText cmd.key
        rewritten wire cmd .query (getRequest key)
    | some .del => do
        let key ← keyText cmd.key
        rewritten wire cmd .deleteDoc (delRequest key)
    | some .cas => do
        let key ← keyText cmd.key
        rewritten wire cmd .updateDoc (casRequest key cmd.value)
    | some .fetch => rewritten wire cmd .query fetchRequest
    | some op => .error ("Unsupported v0.1.x command: Ok(" ++ op.debug ++ ")")

/-! ## Responses -/

/-- The value in the first of the documents of a query. -/
def firstValue : Option Value → Option Bytes
  | some (.array (.object fields :: _)) =>
    match fields.lookup "value" with
    | some (.binary value) => some value
    | _ => none
  | _ => none

def translateQueryResponseToGet (response : Response) : Except String Response :=
  if response.header.status ≠ .ok then .ok response
  else
    match wire.operationResponse response.payload with
    | .error error => .error ("Failed to parse response: " ++ error)
    | .ok operation =>
      if operation.success = false then .ok (Response.error response.header.seq)
      else
        match firstValue operation.data with
        | some value => .ok (Response.ok response.header.seq value)
        | none => .ok (Response.notFound response.header.seq)

def keyValue : Value → Option (String × Bytes)
  | .object fields =>
    match fields.lookup "key", fields.lookup "value" with
    | some (.string key), some (.binary value) => some (key, value)
    | _, _ => none
  | _ => none

def translateQueryResponseToFetch (response : Response) : Except String Response :=
  if response.header.status ≠ .ok then .ok response
  else
    match wire.operationResponse response.payload with
    | .error error => .error ("Failed to parse response: " ++ error)
    | .ok operation =>
      if operation.success = false then .ok (Response.error response.header.seq)
      else
        let pairs := match operation.data with
          | some (.array docs) => docs.filterMap keyValue
          | _ => []
        match wire.keyValues pairs with
        | .error error => .error ("Serialization error: " ++ error)
        | .ok payload => .ok (Response.ok response.header.seq payload)

def translateResponse (response : Response) : OpCode → Except String Response
  | .get => translateQueryResponseToGet wire response
  | .fetch => translateQueryResponseToFetch wire response
  | _ => .ok response

end CompatibilityHandler

end VedDb
