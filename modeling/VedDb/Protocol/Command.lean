import VedDb.Document

/-!
# Commands and responses

The binary protocol of `protocol.rs`: opcodes, headers, commands with their constructors, responses.
-/

namespace VedDb

open LittleEndian (Bytes)

/-! ## Opcodes -/

inductive OpCode where
  -- Legacy v0.1.x
  | ping | set | get | del | cas | subscribe | unsubscribe | publish | fetch | info
  -- Documents, collections and indexes
  | auth | authResponse | query | insertDoc | updateDoc | deleteDoc | createCollection
  | dropCollection | listCollections | createIndex | dropIndex | listIndexes
  -- Lists, sets, sorted sets and hashes
  | lPush | rPush | lPop | rPop | lRange | lLen | sAdd | sRem | sMembers | sIsMember | sCard
  | sUnion | sInter | sDiff | zAdd | zRem | zRange | zRangeByScore | zCard | zScore | hSet | hGet
  | hDel | hGetAll | hKeys | hVals | hLen
  -- Users and aggregation
  | listUsers | createUser | deleteUser | updateUserRole | aggregate
  -- Backup and recovery
  | createBackup | listBackups | restoreBackup | deleteBackup | pointInTimeRecover
  -- Replication
  | getReplicationStatus | addSlave | removeSlave | listSlaves | forceSync
  -- Keys
  | createKey | listKeys | rotateKey | exportKey | importKey | getKeyMetadata | getKeysExpiring
deriving DecidableEq

/-- The byte of an opcode on the wire. -/
def OpCode.code : OpCode → UInt8
  | .ping => 0x01
  | .set => 0x02
  | .get => 0x03
  | .del => 0x04
  | .cas => 0x05
  | .subscribe => 0x06
  | .unsubscribe => 0x07
  | .publish => 0x08
  | .fetch => 0x09
  | .info => 0x0A
  | .auth => 0x10
  | .authResponse => 0x11
  | .query => 0x12
  | .insertDoc => 0x13
  | .updateDoc => 0x14
  | .deleteDoc => 0x15
  | .createCollection => 0x16
  | .dropCollection => 0x17
  | .listCollections => 0x18
  | .createIndex => 0x19
  | .dropIndex => 0x1A
  | .listIndexes => 0x1B
  | .lPush => 0x20
  | .rPush => 0x21
  | .lPop => 0x22
  | .rPop => 0x23
  | .lRange => 0x24
  | .lLen => 0x25
  | .sAdd => 0x26
  | .sRem => 0x27
  | .sMembers => 0x28
  | .sIsMember => 0x29
  | .sCard => 0x2A
  | .sUnion => 0x2B
  | .sInter => 0x2C
  | .sDiff => 0x2D
  | .zAdd => 0x2E
  | .zRem => 0x2F
  | .zRange => 0x30
  | .zRangeByScore => 0x31
  | .zCard => 0x32
  | .zScore => 0x33
  | .hSet => 0x34
  | .hGet => 0x35
  | .hDel => 0x36
  | .hGetAll => 0x37
  | .hKeys => 0x38
  | .hVals => 0x39
  | .hLen => 0x3A
  | .listUsers => 0x3B
  | .createUser => 0x3C
  | .deleteUser => 0x3D
  | .updateUserRole => 0x3E
  | .aggregate => 0x3F
  | .createBackup => 0x40
  | .listBackups => 0x41
  | .restoreBackup => 0x42
  | .deleteBackup => 0x43
  | .pointInTimeRecover => 0x44
  | .getReplicationStatus => 0x50
  | .addSlave => 0x51
  | .removeSlave => 0x52
  | .listSlaves => 0x53
  | .forceSync => 0x54
  | .createKey => 0x60
  | .listKeys => 0x61
  | .rotateKey => 0x62
  | .exportKey => 0x63
  | .importKey => 0x64
  | .getKeyMetadata => 0x65
  | .getKeysExpiring => 0x66

def OpCode.tryFrom (value : UInt8) : Option OpCode :=
  match value.toNat with
  | 0x01 => some .ping
  | 0x02 => some .set
  | 0x03 => some .get
  | 0x04 => some .del
  | 0x05 => some .cas
  | 0x06 => some .subscribe
  | 0x07 => some .unsubscribe
  | 0x08 => some .publish
  | 0x09 => some .fetch
  | 0x0A => some .info
  | 0x10 => some .auth
  | 0x11 => some .authResponse
  | 0x12 => some .query
  | 0x13 => some .insertDoc
  | 0x14 => some .updateDoc
  | 0x15 => some .deleteDoc
  | 0x16 => some .createCollection
  | 0x17 => some .dropCollection
  | 0x18 => some .listCollections
  | 0x19 => some .createIndex
  | 0x1A => some .dropIndex
  | 0x1B => some .listIndexes
  | 0x20 => some .lPush
  | 0x21 => some .rPush
  | 0x22 => some .lPop
  | 0x23 => some .rPop
  | 0x24 => some .lRange
  | 0x25 => some .lLen
  | 0x26 => some .sAdd
  | 0x27 => some .sRem
  | 0x28 => some .sMembers
  | 0x29 => some .sIsMember
  | 0x2A => some .sCard
  | 0x2B => some .sUnion
  | 0x2C => some .sInter
  | 0x2D => some .sDiff
  | 0x2E => some .zAdd
  | 0x2F => some .zRem
  | 0x30 => some .zRange
  | 0x31 => some .zRangeByScore
  | 0x32 => some .zCard
  | 0x33 => some .zScore
  | 0x34 => some .hSet
  | 0x35 => some .hGet
  | 0x36 => some .hDel
  | 0x37 => some .hGetAll
  | 0x38 => some .hKeys
  | 0x39 => some .hVals
  | 0x3A => some .hLen
  | 0x3B => some .listUsers
  | 0x3C => some .createUser
  | 0x3D => some .deleteUser
  | 0x3E => some .updateUserRole
  | 0x40 => some .createBackup
  | 0x41 => some .listBackups
  | 0x42 => some .restoreBackup
  | 0x43 => some .deleteBackup
  | 0x44 => some .pointInTimeRecover
  | 0x50 => some .getReplicationStatus
  | 0x51 => some .addSlave
  | 0x52 => some .removeSlave
  | 0x53 => some .listSlaves
  | 0x54 => some .forceSync
  | 0x60 => some .createKey
  | 0x61 => some .listKeys
  | 0x62 => some .rotateKey
  | 0x63 => some .exportKey
  | 0x64 => some .importKey
  | 0x65 => some .getKeyMetadata
  | 0x66 => some .getKeysExpiring
  | 0x3F => some .aggregate
  | _ => none

theorem OpCode.tryFrom_code (op : OpCode) : tryFrom op.code = some op := by
  cases op <;> rfl

/-! ## Commands -/

def protocolV1 : UInt8 := 0x01

def protocolV2 : UInt8 := 0x02

/-- `flags::CAS_VERSION`. -/
def casVersionFlag : UInt8 := 0x08

structure CmdHeader where
  op : UInt8
  flags : UInt8
  version : UInt8
  reserved : UInt8
  seq : UInt32
  keyLen : UInt32
  valLen : UInt32
  extra : UInt64
deriving DecidableEq

namespace CmdHeader

def new (op : OpCode) (seq : UInt32) : CmdHeader :=
  { op := op.code, flags := 0, version := protocolV2, reserved := 0, seq := seq, keyLen := 0,
    valLen := 0, extra := 0 }

def withKeyVal (header : CmdHeader) (keyLen valLen : UInt32) : CmdHeader :=
  { header with keyLen := keyLen, valLen := valLen }

def opcode (header : CmdHeader) : Option OpCode := OpCode.tryFrom header.op

end CmdHeader

structure Command where
  header : CmdHeader
  key : Bytes
  value : Bytes
deriving DecidableEq

namespace Command

def new (op : OpCode) (seq : UInt32) (key value : Bytes) : Command :=
  { header :=
      (CmdHeader.new op seq).withKeyVal (UInt32.ofNat key.length) (UInt32.ofNat value.length)
    key := key
    value := value }

def get (seq : UInt32) (key : Bytes) : Command := new .get seq key []

def set (seq : UInt32) (key value : Bytes) : Command := new .set seq key value

def del (seq : UInt32) (key : Bytes) : Command := new .del seq key []

/-- The expected version goes nowhere: the source only sets a flag for it. -/
def cas (seq : UInt32) (key value : Bytes) (_expectedVersion : UInt64) : Command :=
  let command := new .cas seq key value
  { command with
    header := { command.header with flags := command.header.flags ||| casVersionFlag } }

@[simp] theorem opcode_new (op : OpCode) (seq : UInt32) (key value : Bytes) :
    (new op seq key value).header.opcode = some op := OpCode.tryFrom_code op

end Command

/-! ## Responses -/

inductive Status where
  | ok | error | notFound | full | timeout | versionMismatch | authRequired | authFailed
  | permissionDenied | invalidQuery | collectionExists | collectionNotFound | indexExists
  | indexNotFound
deriving DecidableEq

structure RespHeader where
  status : Status
  flags : UInt8
  reserved : UInt16
  seq : UInt32
  payloadLen : UInt32
  padding : UInt32
deriving DecidableEq

def RespHeader.new (status : Status) (seq : UInt32) : RespHeader :=
  { status := status, flags := 0, reserved := 0, seq := seq, payloadLen := 0, padding := 0 }

structure Response where
  header : RespHeader
  payload : Bytes
deriving DecidableEq

namespace Response

def new (status : Status) (seq : UInt32) (payload : Bytes) : Response :=
  { header := { RespHeader.new status seq with payloadLen := UInt32.ofNat payload.length }
    payload := payload }

def ok (seq : UInt32) (payload : Bytes) : Response := new .ok seq payload

def error (seq : UInt32) : Response := new .error seq []

def notFound (seq : UInt32) : Response := new .notFound seq []

end Response

end VedDb
