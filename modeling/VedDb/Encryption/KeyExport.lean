import VedDb.Encryption.Engine
import VedDb.Storage.Catalogue

/-!
# Exporting and importing keys

The parts of `encryption/key_manager.rs` that the key commands use beside creating and rotating
keys.  An exported key is JSON under the master key, in hexadecimal.
-/

namespace VedDb

open LittleEndian (Bytes)

/-- What the export of keys rests on: the derivation of the master key, hexadecimal, JSON and its
dates, and four fifths of a rotation interval, which the source takes in single precision. -/
structure KeyExportEnv where
  deriveMasterKey : String → Bytes
  hexEncode : Bytes → String
  hexDecode : String → Except String Bytes
  toVec : JsonValue → Except String Bytes
  fromSlice : Bytes → Except String JsonValue
  dateTime : DateTime → JsonValue
  parseDateTime : JsonValue → Except String DateTime
  warnDays : UInt32 → Int

def JsonValue.asBool : JsonValue → Option Bool
  | .bool b => some b
  | _ => none

def EncryptionError.keyMessage : EncryptionError → String
  | .keyNotFound keyId => "Key not found: " ++ keyId
  | .keyAlreadyExists keyId => "Key already exists: " ++ keyId
  | _ => "failed to write the key file"

namespace KeyManager

def getKeyMetadata (manager : KeyManager) (keyId : String) : Except EncryptionError EncryptionKey :=
  match manager.keys[keyId]? with
  | none => .error (.keyNotFound keyId)
  | some key => .ok key

def listKeys (manager : KeyManager) : List EncryptionKey := manager.keys.values

/-- `num_days` of the time since the last rotation. -/
def keyAgeDays (now : DateTime) (key : EncryptionKey) : Int :=
  (now - key.lastRotated).tdiv (24 * 3600 * 1000000000)

variable (env : KeyExportEnv)

/-- `get_keys_with_expiry_warnings`: the keys near their rotation, with the days that are left. -/
def getKeysWithExpiryWarnings (now : DateTime) (manager : KeyManager) (rotationDays : UInt32) :
    List (EncryptionKey × Int) :=
  (manager.keys.values.filter EncryptionKey.active).filterMap fun key =>
    let age := keyAgeDays now key
    if env.warnDays rotationDays ≤ age ∧ age < rotationDays.toNat then
      some (key, rotationDays.toNat - age)
    else none

/-- The payload of an export. -/
def exportData (key : EncryptionKey) : JsonValue :=
  .object
    [("active", .bool key.active),
      ("created_at", env.dateTime key.createdAt),
      ("export_version", .number (.posInt 1)),
      ("key_bytes", .string (env.hexEncode key.key)),
      ("key_id", .string key.id),
      ("last_rotated", env.dateTime key.lastRotated),
      ("version", .number (.posInt (UInt64.ofNat key.version.toNat)))]

/-- `export_key`, under the nonce that is drawn for it. -/
def exportKey (aead : Aead) (nonce : Bytes) (manager : KeyManager) (masterKey : Option String)
    (keyId : String) : Except String String :=
  match masterKey with
  | none =>
    .error "Master key required for key export. Initialize KeyManager with a master key."
  | some masterKey =>
    match manager.getKeyMetadata keyId with
    | .error error => .error error.keyMessage
    | .ok key =>
      match env.toVec (exportData env key) with
      | .error error => .error error
      | .ok plaintext =>
        match DocumentEncryption.encrypt aead nonce plaintext
            (env.deriveMasterKey masterKey) with
        | .error _ => .error "Encryption failed"
        | .ok encrypted => .ok (env.hexEncode encrypted)

def importedKey (exported : JsonValue) (keyId : String) (bytes : Bytes) :
    Except String EncryptionKey :=
  match env.parseDateTime ((exported.get "created_at").getD .null) with
  | .error error => .error ("Invalid created_at timestamp: " ++ error)
  | .ok createdAt =>
    match env.parseDateTime ((exported.get "last_rotated").getD .null) with
    | .error error => .error ("Invalid last_rotated timestamp: " ++ error)
    | .ok lastRotated =>
      .ok
        { id := keyId
          key := bytes
          createdAt := createdAt
          lastRotated := lastRotated
          active := ((exported.get "active").bind JsonValue.asBool).getD true
          version :=
            UInt32.ofNat
              (((exported.get "version").bind JsonValue.asUInt64).getD 1).toNat }

/-- The checks of `import_key`, up to the key that it stores.  What a cipher error adds to its
message is left out. -/
def readExport (aead : Aead) (manager : KeyManager) (masterKey : Option String)
    (encryptedData : String) : Except String EncryptionKey := do
  let some masterKey := masterKey
    | throw "Master key required for key import. Initialize KeyManager with a master key."
  let encrypted ← match env.hexDecode encryptedData with
    | .error error => throw ("Invalid hex in exported key: " ++ error)
    | .ok encrypted => pure encrypted
  let plaintext ← match DocumentEncryption.decrypt aead encrypted
      (env.deriveMasterKey masterKey) with
    | .error _ => throw "Failed to decrypt key (wrong master key?)"
    | .ok plaintext => pure plaintext
  let exported ← match env.fromSlice plaintext with
    | .error error => throw ("Invalid export data format: " ++ error)
    | .ok exported => pure exported
  let some keyId := (exported.get "key_id").bind JsonValue.asStr
    | throw "Missing key_id in export data"
  let some hex := (exported.get "key_bytes").bind JsonValue.asStr
    | throw "Missing key_bytes in export data"
  let bytes ← match env.hexDecode hex with
    | .error error => throw ("Invalid key bytes encoding: " ++ error)
    | .ok bytes => pure bytes
  if bytes.length ≠ 32 then
    throw ("Invalid key length: expected 32 bytes (AES-256), got " ++ toString bytes.length)
  if manager.keys.contains keyId then
    throw ("Key '" ++ keyId ++
      "' already exists. Remove existing key first or use a different key ID.")
  importedKey env exported keyId bytes

end KeyManager

/-- `import_key`, on the engine and its key file. -/
def EncryptionEngine.importKey {σ : Type} (env : KeyExportEnv) (aead : Aead)
    (engine : EncryptionEngine σ) (encryptedData : String) :
    Except String String × EncryptionEngine σ :=
  let manager := engine.world.keyManager
  match manager.readExport env aead engine.config.masterKey encryptedData with
  | .error error => (.error error, engine)
  | .ok key =>
    let keys := manager.keys.insert key.id key
    (.ok key.id,
      { engine with
        world :=
          { engine.world with
            keyManager := { manager with keys := keys }
            keyFile := some ⟨keys, manager.masterKeyHash⟩ } })

end VedDb
