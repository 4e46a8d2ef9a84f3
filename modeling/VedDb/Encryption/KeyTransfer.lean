import VedDb.Encryption.KeyFile
import VedDb.Lib.Rfc3339
import VedDb.Serde.Document
import VedDb.Serde.JsonValue

/-!
# Keys that move between managers

What `import_key` makes of a string.  An export carries every field of a key.  The reader is more
generous than the writer: the flag and the version may be missing, and members that an export does
not have are ignored.
-/

namespace VedDb

open LittleEndian (Bytes)

/-! ## What an import reads -/

/-- Hexadecimal is read back, and so are the payload of the key and its dates. -/
structure KeyExportEnv.Carries (env : KeyExportEnv) (key : EncryptionKey) : Prop where
  hex : ∀ bytes, env.hexDecode (env.hexEncode bytes) = .ok bytes
  payload : ∀ text, env.toVec (KeyManager.exportData env key) = .ok text →
    env.fromSlice text = .ok (KeyManager.exportData env key)
  createdAt : env.parseDateTime (env.dateTime key.createdAt) = .ok key.createdAt
  lastRotated : env.parseDateTime (env.dateTime key.lastRotated) = .ok key.lastRotated

def KeyExportEnv.Opens (env : KeyExportEnv) (aead : Aead) (masterKey given : String)
    (exported : JsonValue) : Prop :=
  ∃ encrypted plaintext, env.hexDecode given = .ok encrypted ∧
    DocumentEncryption.decrypt aead encrypted (env.deriveMasterKey masterKey) = .ok plaintext ∧
    env.fromSlice plaintext = .ok exported

/-- The JSON gives the fields of a key.  A missing flag stands for an active key, a missing version
for the first; of a version that does not fit 32 bits nothing is said. -/
structure KeyExportEnv.Describes (env : KeyExportEnv) (exported : JsonValue)
    (key : EncryptionKey) : Prop where
  id : (exported.get "key_id").bind JsonValue.asStr = some key.id
  bytes : ∃ hex, (exported.get "key_bytes").bind JsonValue.asStr = some hex ∧
    env.hexDecode hex = .ok key.key
  length : key.key.length = 32
  createdAt : env.parseDateTime ((exported.get "created_at").getD .null) = .ok key.createdAt
  lastRotated : env.parseDateTime ((exported.get "last_rotated").getD .null) = .ok key.lastRotated
  active : key.active = ((exported.get "active").bind JsonValue.asBool).getD true
  version : ∀ n, ((exported.get "version").bind JsonValue.asUInt64).getD 1 = n →
    n.toNat < 2 ^ 32 → key.version.toNat = n.toNat

theorem KeyExportEnv.Opens.unique {env : KeyExportEnv} {aead : Aead} {masterKey given : String}
    {a b : JsonValue} (ha : env.Opens aead masterKey given a)
    (hb : env.Opens aead masterKey given b) : a = b := by
  obtain ⟨encrypted, plaintext, hhex, hopen, hparse⟩ := ha
  obtain ⟨encrypted', plaintext', hhex', hopen', hparse'⟩ := hb
  obtain rfl := Except.ok.inj (hhex.symm.trans hhex')
  obtain rfl := Except.ok.inj (hopen.symm.trans hopen')
  exact Except.ok.inj (hparse.symm.trans hparse')

namespace KeyManager

variable {env : KeyExportEnv} {aead : Aead} {manager : KeyManager}

theorem importedKey_eq_ok {exported : JsonValue} {keyId : String} {bytes : Bytes}
    {key : EncryptionKey} (h : importedKey env exported keyId bytes = .ok key) :
    key.id = keyId ∧ key.key = bytes ∧
      env.parseDateTime ((exported.get "created_at").getD .null) = .ok key.createdAt ∧
      env.parseDateTime ((exported.get "last_rotated").getD .null) = .ok key.lastRotated ∧
      key.active = ((exported.get "active").bind JsonValue.asBool).getD true ∧
      key.version = UInt32.ofNat
        (((exported.get "version").bind JsonValue.asUInt64).getD 1).toNat := by
  unfold importedKey at h
  cases hcreated : env.parseDateTime ((exported.get "created_at").getD .null) with
  | error e => simp [hcreated] at h
  | ok createdAt =>
    cases hrotated : env.parseDateTime ((exported.get "last_rotated").getD .null) with
    | error e => simp [hcreated, hrotated] at h
    | ok lastRotated =>
      simp only [hcreated, hrotated, Except.ok.injEq] at h
      rw [← h]
      exact ⟨rfl, rfl, rfl, rfl, rfl, rfl⟩

/-- The checks of `import_key`, one after the other. -/
theorem readExport_some (master given : String) :
    manager.readExport env aead (some master) given =
      match env.hexDecode given with
      | .error error => .error ("Invalid hex in exported key: " ++ error)
      | .ok encrypted =>
      match DocumentEncryption.decrypt aead encrypted (env.deriveMasterKey master) with
      | .error _ => .error "Failed to decrypt key (wrong master key?)"
      | .ok plaintext =>
      match env.fromSlice plaintext with
      | .error error => .error ("Invalid export data format: " ++ error)
      | .ok exported =>
      match (exported.get "key_id").bind JsonValue.asStr with
      | none => .error "Missing key_id in export data"
      | some keyId =>
      match (exported.get "key_bytes").bind JsonValue.asStr with
      | none => .error "Missing key_bytes in export data"
      | some hex =>
      match env.hexDecode hex with
      | .error error => .error ("Invalid key bytes encoding: " ++ error)
      | .ok bytes =>
        if bytes.length ≠ 32 then
          .error ("Invalid key length: expected 32 bytes (AES-256), got " ++
            toString bytes.length)
        else if manager.keys.contains keyId then
          .error ("Key '" ++ keyId ++
            "' already exists. Remove existing key first or use a different key ID.")
        else importedKey env exported keyId bytes := by
  unfold readExport
  dsimp only [pure, Except.pure, bind, Except.bind]
  cases env.hexDecode given with
  | error e => rfl
  | ok encrypted =>
  dsimp only
  cases DocumentEncryption.decrypt aead encrypted (env.deriveMasterKey master) with
  | error e => rfl
  | ok plaintext =>
  dsimp only
  cases env.fromSlice plaintext with
  | error e => rfl
  | ok exported =>
  dsimp only
  cases (exported.get "key_id").bind JsonValue.asStr with
  | none => rfl
  | some keyId =>
  cases (exported.get "key_bytes").bind JsonValue.asStr with
  | none => rfl
  | some hex =>
  dsimp only
  cases env.hexDecode hex with
  | error e => rfl
  | ok bytes =>
  dsimp only
  split_ifs <;> rfl

/-- What an import that succeeds has gone through. -/
theorem readExport_eq_ok {master given : String} {key : EncryptionKey}
    (h : manager.readExport env aead (some master) given = .ok key) :
    ∃ exported, env.Opens aead master given exported ∧ env.Describes exported key ∧
      manager.keys[key.id]? = none := by
  rw [readExport_some] at h
  split at h
  · cases h
  next encrypted hhex =>
  split at h
  · cases h
  next plaintext hopen =>
  split at h
  · cases h
  next exported hparse =>
  split at h
  · cases h
  next keyId hid =>
  split at h
  · cases h
  next hex hbytes =>
  split at h
  · cases h
  next bytes hdecode =>
  split_ifs at h with hlength hexists
  obtain ⟨hkeyId, hkey, hcreated, hrotated, hactive, hversion⟩ := importedKey_eq_ok h
  refine ⟨exported, ⟨encrypted, plaintext, hhex, hopen, hparse⟩,
    ⟨?_, ⟨hex, hbytes, ?_⟩, ?_, hcreated, hrotated, hactive, ?_⟩, ?_⟩
  · rw [hkeyId]
    exact hid
  · rw [hkey]
    exact hdecode
  · rw [hkey]
    exact not_not.mp hlength
  · rintro n rfl hn
    rw [hversion]
    exact UInt32.toNat_ofNat_of_lt' hn
  · rw [hkeyId]
    rw [Std.ExtTreeMap.contains_eq_isSome_getElem?] at hexists
    exact Option.not_isSome_iff_eq_none.mp hexists

theorem readExport_of_describes {master given : String} {exported : JsonValue}
    {key : EncryptionKey} (hopens : env.Opens aead master given exported)
    (hkey : env.Describes exported key) (hnew : manager.keys[key.id]? = none) :
    manager.readExport env aead (some master) given =
      importedKey env exported key.id key.key := by
  obtain ⟨encrypted, plaintext, hhex, hopen, hparse⟩ := hopens
  obtain ⟨hex, hbytes, hdecode⟩ := hkey.bytes
  have hlacks : manager.keys.contains key.id = false := by
    rw [Std.ExtTreeMap.contains_eq_isSome_getElem?, hnew]
    rfl
  simp only [readExport_some, hhex, hopen, hparse, hkey.id, hbytes, hdecode]
  rw [if_neg (not_not.mpr hkey.length), hlacks]
  exact if_neg Bool.false_ne_true

theorem importedKey_of_describes {exported : JsonValue} {key : EncryptionKey}
    (h : env.Describes exported key) :
    ∃ imported, importedKey env exported key.id key.key = .ok imported := by
  unfold importedKey
  rw [h.createdAt, h.lastRotated]
  exact ⟨_, rfl⟩

/-! ## What an export carries -/

theorem describes_exportData {key : EncryptionKey} (hcarries : env.Carries key)
    (hlength : key.key.length = 32) : env.Describes (exportData env key) key where
  id := rfl
  bytes := ⟨env.hexEncode key.key, rfl, hcarries.hex key.key⟩
  length := hlength
  createdAt := hcarries.createdAt
  lastRotated := hcarries.lastRotated
  active := rfl
  version := by
    rintro n rfl -
    show key.version.toNat = (UInt64.ofNat key.version.toNat).toNat
    rw [UInt64.toNat_ofNat_of_lt' (Nat.lt_trans key.version.toNat_lt (by decide))]

theorem importedKey_exportData {key : EncryptionKey} (hcarries : env.Carries key) :
    importedKey env (exportData env key) key.id key.key = .ok key := by
  have hversion : UInt32.ofNat (UInt64.ofNat key.version.toNat).toNat = key.version := by
    rw [UInt64.toNat_ofNat_of_lt' (Nat.lt_trans key.version.toNat_lt (by decide)),
      UInt32.ofNat_toNat]
  have hactive : (((exportData env key).get "active").bind JsonValue.asBool).getD true =
      key.active := rfl
  have hnumber : (((exportData env key).get "version").bind JsonValue.asUInt64).getD 1 =
      UInt64.ofNat key.version.toNat := rfl
  have hcreated : ((exportData env key).get "created_at").getD .null =
      env.dateTime key.createdAt := rfl
  have hrotated : ((exportData env key).get "last_rotated").getD .null =
      env.dateTime key.lastRotated := rfl
  unfold importedKey
  rw [hcreated, hrotated, hcarries.createdAt, hcarries.lastRotated, hactive, hnumber, hversion]

/-- What an export that succeeds has written. -/
theorem exportKey_eq_ok {nonce : Bytes} {master keyId exported : String}
    (h : manager.exportKey env aead nonce (some master) keyId = .ok exported) :
    ∃ key plaintext encrypted, manager.keys[keyId]? = some key ∧
      env.toVec (exportData env key) = .ok plaintext ∧
      DocumentEncryption.encrypt aead nonce plaintext (env.deriveMasterKey master) =
        .ok encrypted ∧ exported = env.hexEncode encrypted := by
  unfold exportKey getKeyMetadata at h
  cases hkey : manager.keys[keyId]? with
  | none => simp [hkey] at h
  | some key =>
    cases htext : env.toVec (exportData env key) with
    | error e => simp [hkey, htext] at h
    | ok plaintext =>
      cases hencrypt : DocumentEncryption.encrypt aead nonce plaintext
          (env.deriveMasterKey master) with
      | error e => simp [hkey, htext, hencrypt] at h
      | ok encrypted =>
        simp only [hkey, htext, hencrypt, Except.ok.injEq] at h
        exact ⟨key, plaintext, encrypted, rfl, htext, hencrypt, h.symm⟩

theorem opens_exportKey (haead : aead.Lawful) {nonce : Bytes} (hnonce : nonce.length = 12)
    {master keyId exported : String} {key : EncryptionKey} (hcarries : env.Carries key)
    (hkey : manager.keys[keyId]? = some key)
    (h : manager.exportKey env aead nonce (some master) keyId = .ok exported) :
    env.Opens aead master exported (exportData env key) := by
  obtain ⟨own, plaintext, encrypted, hown, htext, hencrypt, rfl⟩ := exportKey_eq_ok h
  obtain rfl := Option.some.inj (hkey.symm.trans hown)
  exact ⟨encrypted, plaintext, hcarries.hex encrypted,
    DocumentEncryption.decrypt_encrypt haead hnonce hencrypt, hcarries.payload plaintext htext⟩

end KeyManager

/-! ## Imports -/

namespace EncryptionEngine

variable {σ : Type} (env : KeyExportEnv) (aead : Aead) (target : EncryptionEngine σ)

/-- The string opens to the description of the key, which the engine does not have yet. -/
def Offers (master given : String) (key : EncryptionKey) : Prop :=
  (∃ exported, env.Opens aead master given exported ∧ env.Describes exported key) ∧
    target.world.keyManager.keys[key.id]? = none

/-- A key is imported: its identifier is returned, and it is all that is added to the keys. -/
def Imports (given : String) (key : EncryptionKey) : Prop :=
  (target.importKey env aead given).1 = .ok key.id ∧
    (target.importKey env aead given).2.world.keyManager.keys =
      target.world.keyManager.keys.insert key.id key

/-- An import is refused: it returns an error and changes nothing. -/
def Refuses (given : String) : Prop :=
  ∃ error, target.importKey env aead given = (.error error, target)

variable {env aead target}

theorem imports_of_readExport {given : String} {key : EncryptionKey}
    (h : target.world.keyManager.readExport env aead target.config.masterKey given = .ok key) :
    target.Imports env aead given key := by
  unfold Imports importKey
  dsimp only
  rw [h]
  exact ⟨rfl, rfl⟩

theorem refuses_of_readExport {given error : String}
    (h : target.world.keyManager.readExport env aead target.config.masterKey given =
      .error error) : target.Refuses env aead given := by
  unfold Refuses importKey
  dsimp only
  rw [h]
  exact ⟨error, rfl⟩

/-- Between two managers with the same master key, an export carries a key of 32 bytes, and a string
is imported exactly when it opens to the description of a new key. -/
theorem keys_transfer (haead : aead.Lawful) (source : KeyManager) (target : EncryptionEngine σ)
    (master : String) (hmaster : target.config.masterKey = some master) :
    (∀ nonce keyId key exported, nonce.length = 12 → env.Carries key →
      source.keys[keyId]? = some key →
      source.exportKey env aead nonce (some master) keyId = .ok exported →
      target.world.keyManager.keys[key.id]? = none →
        (target.Imports env aead exported key ↔ key.key.length = 32)) ∧
      ∀ given : String,
        (∃ key, target.Offers env aead master given key ∧ target.Imports env aead given key) ∨
          (¬∃ key, target.Offers env aead master given key) ∧ target.Refuses env aead given := by
  refine ⟨?_, ?_⟩
  · intro nonce keyId key exported hnonce hcarries hkey hexport hnew
    have hopens := KeyManager.opens_exportKey haead hnonce hcarries hkey hexport
    constructor
    · intro himports
      cases hread : target.world.keyManager.readExport env aead target.config.masterKey
          exported with
      | error error =>
        obtain ⟨e, hrefused⟩ := refuses_of_readExport hread
        have hok := himports.1
        rw [hrefused] at hok
        cases hok
      | ok imported =>
        rw [hmaster] at hread
        obtain ⟨payload, hopens', hdescribes, -⟩ := KeyManager.readExport_eq_ok hread
        obtain rfl := hopens.unique hopens'
        obtain ⟨hex, hhex, hbytes⟩ := hdescribes.bytes
        obtain rfl : env.hexEncode key.key = hex := Option.some.inj hhex
        obtain hsame : key.key = imported.key :=
          Except.ok.inj ((hcarries.hex key.key).symm.trans hbytes)
        rw [hsame]
        exact hdescribes.length
    · intro hlength
      apply imports_of_readExport
      rw [hmaster, KeyManager.readExport_of_describes hopens
        (KeyManager.describes_exportData hcarries hlength) hnew]
      exact KeyManager.importedKey_exportData hcarries
  · intro given
    cases hread : target.world.keyManager.readExport env aead target.config.masterKey given with
    | error error =>
      right
      refine ⟨?_, refuses_of_readExport hread⟩
      rintro ⟨key, ⟨exported, hopens, hdescribes⟩, hnew⟩
      obtain ⟨imported, himported⟩ := KeyManager.importedKey_of_describes hdescribes
      rw [hmaster, KeyManager.readExport_of_describes hopens hdescribes hnew,
        himported] at hread
      cases hread
    | ok key =>
      left
      have himports := imports_of_readExport hread
      rw [hmaster] at hread
      obtain ⟨exported, hopens, hdescribes, hnew⟩ := KeyManager.readExport_eq_ok hread
      exact ⟨key, ⟨⟨exported, hopens, hdescribes⟩, hnew⟩, himports⟩

/-! ## A concrete export -/

/-- The value of a hexadecimal digit, of either case. -/
def hexDigitValue (c : Char) : Option Nat :=
  if '0' ≤ c ∧ c ≤ '9' then some (c.toNat - 48)
  else if 'a' ≤ c ∧ c ≤ 'f' then some (c.toNat - 87)
  else if 'A' ≤ c ∧ c ≤ 'F' then some (c.toNat - 55)
  else none

/-- `hex::decode`. -/
def readHexDigits : List Char → Except String Bytes
  | [] => .ok []
  | [_] => .error "Odd number of digits"
  | a :: b :: rest =>
    match hexDigitValue a, hexDigitValue b with
    | some x, some y => (readHexDigits rest).map (UInt8.ofNat (16 * x + y) :: ·)
    | _, _ => .error "Invalid character"

theorem hexDigitValue_digitChar : ∀ n < 16, hexDigitValue (Nat.digitChar n) = some n := by
  decide

theorem readHexDigits_hexDigits (bytes : Bytes) :
    readHexDigits (hexDigits bytes).toList = .ok bytes := by
  rw [hexDigits, String.toList_ofList]
  induction bytes with
  | nil => rfl
  | cons b bytes ih =>
    have hb := b.toNat_lt
    have hhigh := hexDigitValue_digitChar (b.toNat / 16) (by omega)
    have hlow := hexDigitValue_digitChar (b.toNat % 16) (by omega)
    have hvalue : UInt8.ofNat (16 * (b.toNat / 16) + b.toNat % 16) = b := by
      rw [Nat.div_add_mod, UInt8.ofNat_toNat]
    simp only [List.flatMap_cons, List.cons_append, List.nil_append, readHexDigits, hhigh, hlow,
      ih, Except.map, hvalue]

/-- The date of the closed runs, as `chrono` prints it. -/
def epochText : String := "1970-01-01T00:00:00Z"

/-- The payload of an export of the key `users` without its flag. -/
def partialPayload : JsonValue :=
  .object
    [("created_at", .string epochText),
      ("export_version", .number (.posInt 1)),
      ("key_bytes", .string (hexDigits (List.replicate 32 0))),
      ("key_id", .string "users"),
      ("last_rotated", .string epochText),
      ("version", .number (.posInt 1))]

def usersPayload : JsonValue :=
  .object
    [("active", .bool true),
      ("created_at", .string epochText),
      ("export_version", .number (.posInt 1)),
      ("key_bytes", .string (hexDigits (List.replicate 32 0))),
      ("key_id", .string "users"),
      ("last_rotated", .string epochText),
      ("version", .number (.posInt 1))]

def payloadText (payload : JsonValue) : Bytes := JsonText.write (encodeJsonValue payload)

/-- `derive_master_key`, hexadecimal, and the JSON of the two payloads. -/
def transferEnv : KeyExportEnv where
  deriveMasterKey masterKey := Sha256.hash (utf8 masterKey ++ utf8 "veddb_master_key_salt")
  hexEncode := hexDigits
  hexDecode text := readHexDigits text.toList
  toVec payload := .ok (payloadText payload)
  fromSlice text :=
    if text = payloadText usersPayload then .ok usersPayload
    else if text = payloadText partialPayload then .ok partialPayload
    else .error "expected value"
  dateTime now := .string (String.ofList (asciiChars (Rfc3339.text now)))
  parseDateTime value :=
    if value.asStr = some epochText then .ok epoch else .error "input contains invalid characters"
  warnDays days := days.toNat * 4 / 5

/-- The container of a text under the master key of the closed runs. -/
def sealedText (text : Bytes) : Bytes :=
  (EncryptedData.new (List.replicate 12 0)
    (transferEnv.deriveMasterKey KeyDirectory.usersMasterKey ++ text)).toBytes

theorem encrypt_text {text : Bytes} (h : text.length + 32 < 2 ^ 36) :
    DocumentEncryption.encrypt prefixCipher (List.replicate 12 0) text
      (transferEnv.deriveMasterKey KeyDirectory.usersMasterKey) = .ok (sealedText text) := by
  have hkey : (transferEnv.deriveMasterKey KeyDirectory.usersMasterKey).length = 32 :=
    Sha256.length_hash _
  unfold DocumentEncryption.encrypt
  rw [if_neg (not_not.mpr hkey)]
  simp only [prefixCipher, hkey, h, and_self, if_true]
  rfl

def emptyEngine : EncryptionEngine Unit where
  config := { enabled := true, masterKey := some KeyDirectory.usersMasterKey
              collectionEncryption := ∅ }
  keyRotationScheduler := none
  world := { keyManager := ⟨∅, none⟩, keyFile := none, stateFiles := fun _ => none, storage := ()
             drawn := 0 }

theorem exportData_usersKey :
    KeyManager.exportData transferEnv KeyDirectory.usersKey = usersPayload := by rfl

theorem transferEnv_hexDecode (text : String) :
    transferEnv.hexDecode text = readHexDigits text.toList := rfl

theorem transferEnv_fromSlice (text : Bytes) :
    transferEnv.fromSlice text =
      if text = payloadText usersPayload then .ok usersPayload
      else if text = payloadText partialPayload then .ok partialPayload
      else .error "expected value" := rfl

theorem carries_usersKey : transferEnv.Carries KeyDirectory.usersKey where
  hex bytes := readHexDigits_hexDigits bytes
  payload text htext := by
    rw [exportData_usersKey] at htext ⊢
    rw [← Except.ok.inj htext, transferEnv_fromSlice, if_pos rfl]
  createdAt := by rfl
  lastRotated := by rfl

theorem usersPayload_short : (payloadText usersPayload).length + 32 < 2 ^ 36 := by
  decide +kernel

theorem partialPayload_short : (payloadText partialPayload).length + 32 < 2 ^ 36 := by
  decide +kernel

def usersExport : String := hexDigits (sealedText (payloadText usersPayload))

def partialExport : String := hexDigits (sealedText (payloadText partialPayload))

theorem exportKey_users : KeyManager.exportKey transferEnv prefixCipher (List.replicate 12 0)
    ⟨KeyDirectory.usersStorage.keys, none⟩ (some KeyDirectory.usersMasterKey) "users" =
      .ok usersExport := by
  have hget : KeyDirectory.usersStorage.keys["users"]? = some KeyDirectory.usersKey := by
    show (Std.ExtTreeMap.insert ∅ "users" KeyDirectory.usersKey)["users"]? = _
    exact Std.ExtTreeMap.getElem?_insert_self
  have htext : transferEnv.toVec usersPayload = .ok (payloadText usersPayload) := by rfl
  unfold KeyManager.exportKey KeyManager.getKeyMetadata
  simp only [hget, exportData_usersKey, htext, encrypt_text usersPayload_short]
  rfl

theorem users_key_transfers : emptyEngine.Imports transferEnv prefixCipher usersExport
    KeyDirectory.usersKey :=
  ((keys_transfer prefixCipher_lawful ⟨KeyDirectory.usersStorage.keys, none⟩ emptyEngine
    KeyDirectory.usersMasterKey rfl).1 (List.replicate 12 0) "users" KeyDirectory.usersKey
    usersExport (by decide) carries_usersKey Std.ExtTreeMap.getElem?_insert_self exportKey_users
    (by simp [emptyEngine])).mpr (by decide)

theorem payloadText_exportData (key : EncryptionKey) :
    (payloadText (KeyManager.exportData transferEnv key)).take 9 = utf8 "\x7b\"active\"" := by
  obtain ⟨value, rest, htext⟩ : ∃ value rest,
      payloadText (KeyManager.exportData transferEnv key) =
        utf8 "\x7b" ++ ((JsonText.quoted "active" ++ utf8 ":" ++ value) ++ utf8 "," ++ rest) ++
          utf8 "\x7d" := ⟨_, _, rfl⟩
  have hbegin : utf8 "\x7b" ++ JsonText.quoted "active" = utf8 "\x7b\"active\"" := by decide
  rw [htext, ← hbegin]
  simp only [List.append_assoc]
  rw [← List.append_assoc]
  exact List.take_left' (by decide)

theorem partialExport_opens : transferEnv.Opens prefixCipher KeyDirectory.usersMasterKey
    partialExport partialPayload := by
  have hhex : transferEnv.hexDecode partialExport =
      .ok (sealedText (payloadText partialPayload)) := by
    rw [transferEnv_hexDecode, partialExport, readHexDigits_hexDigits]
  refine ⟨sealedText (payloadText partialPayload), payloadText partialPayload, hhex, ?_, ?_⟩
  · exact DocumentEncryption.decrypt_encrypt prefixCipher_lawful (by decide)
      (encrypt_text partialPayload_short)
  · have hne : payloadText partialPayload ≠ payloadText usersPayload := by decide +kernel
    rw [transferEnv_fromSlice, if_neg hne, if_pos rfl]

/-- A string that no export is, since it does not say whether the key is active, is imported. -/
theorem export_without_flag_imported :
    (∀ (source : KeyManager) (nonce : Bytes) (keyId : String), nonce.length = 12 →
      source.exportKey transferEnv prefixCipher nonce (some KeyDirectory.usersMasterKey) keyId ≠
        .ok partialExport) ∧
      emptyEngine.Imports transferEnv prefixCipher partialExport KeyDirectory.usersKey := by
  refine ⟨?_, ?_⟩
  · intro source nonce keyId hnonce hexport
    obtain ⟨key, plaintext, encrypted, -, htext, hencrypt, hhex⟩ :=
      KeyManager.exportKey_eq_ok hexport
    have hsame : sealedText (payloadText partialPayload) = encrypted := by
      have hread := readHexDigits_hexDigits encrypted
      have hhex : partialExport = hexDigits encrypted := hhex
      rw [← hhex, partialExport, readHexDigits_hexDigits] at hread
      exact Except.ok.inj hread
    have hopen := DocumentEncryption.decrypt_encrypt prefixCipher_lawful hnonce hencrypt
    have hopen' := DocumentEncryption.decrypt_encrypt prefixCipher_lawful List.length_replicate
      (encrypt_text partialPayload_short)
    rw [hsame, hopen] at hopen'
    have hbegins := payloadText_exportData key
    rw [Except.ok.inj htext, Except.ok.inj hopen'] at hbegins
    exact absurd hbegins (by decide +kernel)
  · apply imports_of_readExport
    show KeyManager.readExport transferEnv prefixCipher _ (some KeyDirectory.usersMasterKey) _ = _
    have hdescribes : transferEnv.Describes partialPayload KeyDirectory.usersKey := by
      refine ⟨rfl, ⟨_, rfl, readHexDigits_hexDigits _⟩, by decide, rfl, rfl, rfl, ?_⟩
      rintro n rfl -
      rfl
    rw [KeyManager.readExport_of_describes partialExport_opens hdescribes
      (by simp [emptyEngine])]
    rfl

end EncryptionEngine

end VedDb
