import VedDb.Document

/-!
# Document encryption

`encryption/document_encryption.rs`: the container a ciphertext is stored in, its `bincode` layout,
and encryption and decryption under a key.  AES-256-GCM is outside the repository and enters as an
`Aead`; keys and nonces come from a random source, which enters as an `Rng`.
-/

namespace VedDb

open LittleEndian

/-- `aes_gcm::Aes256Gcm` under a key, with the nonce given. -/
structure Aead where
  encrypt : (key nonce plaintext : Bytes) → Option Bytes
  decrypt : (key nonce ciphertext : Bytes) → Option Bytes

/-- What the code relies on of AES-256-GCM.  A ciphertext opens to what was sealed, and under one
key only.  Sealing fails for nothing but the length of the plaintext, so what was sealed once can be
sealed again.  A ciphertext is its plaintext's length and a tag. -/
structure Aead.Lawful (aead : Aead) : Prop where
  decrypt_encrypt : ∀ {key nonce plaintext ciphertext},
    aead.encrypt key nonce plaintext = some ciphertext →
      aead.decrypt key nonce ciphertext = some plaintext
  one_key : ∀ {key key' nonce ciphertext plaintext plaintext'},
    aead.decrypt key nonce ciphertext = some plaintext →
      aead.decrypt key' nonce ciphertext = some plaintext' → key = key'
  encrypt_again : ∀ {key nonce ciphertext plaintext},
    aead.decrypt key nonce ciphertext = some plaintext → ∀ {key' nonce' : Bytes},
      key'.length = 32 → nonce'.length = 12 →
        ∃ ciphertext', aead.encrypt key' nonce' plaintext = some ciphertext'
  length_le : ∀ {key nonce plaintext ciphertext},
    aead.decrypt key nonce ciphertext = some plaintext → plaintext.length ≤ ciphertext.length
  length_lt : ∀ {key nonce plaintext ciphertext},
    aead.encrypt key nonce plaintext = some ciphertext → ciphertext.length < 2 ^ 64

/-- The random source: the `n`-th key and the `n`-th nonce drawn from it. -/
structure Rng where
  key : Nat → Bytes
  nonce : Nat → Bytes
  key_length : ∀ n, (key n).length = 32
  nonce_length : ∀ n, (nonce n).length = 12

/-- The failures of `DocumentEncryption`. -/
inductive CipherError where
  | keyLength
  | deserialize
  | unsupportedAlgorithm (algorithm : Bytes)
  | nonceLength (length : Nat)
  | encryptionFailed
  | decryptionFailed
  deriving DecidableEq

/-! ## The container -/

structure EncryptedData where
  nonce : Bytes
  ciphertext : Bytes
  algorithm : Bytes
  version : UInt8
  deriving DecidableEq

def algorithmName : Bytes := utf8 "AES-256-GCM"

namespace EncryptedData

def new (nonce ciphertext : Bytes) : EncryptedData :=
  { nonce := nonce, ciphertext := ciphertext, algorithm := algorithmName, version := 1 }

/-- A `bincode` sequence of bytes: its length in eight bytes, then the bytes. -/
def vec (bs : Bytes) : Bytes := leBytes 8 bs.length ++ bs

/-- `to_bytes`: `bincode::serialize` of the four fields in turn. -/
def toBytes (e : EncryptedData) : Bytes :=
  vec e.nonce ++ (vec e.ciphertext ++ (vec e.algorithm ++ [e.version]))

def readVec (bs : Bytes) : Option (Bytes × Bytes) :=
  match readExact 8 bs with
  | none => none
  | some (len, rest) => readExact (ofLeBytes len) rest

/-- `from_bytes`: `bincode::deserialize`, which ignores what follows the last field. -/
def fromBytes (bs : Bytes) : Option EncryptedData := do
  let (nonce, rest) ← readVec bs
  let (ciphertext, rest) ← readVec rest
  let (algorithm, rest) ← readVec rest
  let (version, _) ← readExact 1 rest
  -- one byte was read
  let version ← version.head?
  return { nonce := nonce, ciphertext := ciphertext, algorithm := algorithm, version := version }

theorem readVec_vec_append {bs : Bytes} (h : bs.length < 2 ^ 64) (rest : Bytes) :
    readVec (vec bs ++ rest) = some (bs, rest) := by
  have hlen : readExact 8 (vec bs ++ rest) = some (leBytes 8 bs.length, bs ++ rest) := by
    have hread := readExact_append (leBytes 8 bs.length) (bs ++ rest)
    rw [leBytes_length] at hread
    rw [vec, List.append_assoc, hread]
  have hvalue : ofLeBytes (leBytes 8 bs.length) = bs.length :=
    ofLeBytes_leBytes_of_lt (show bs.length < 256 ^ 8 from h)
  simp only [readVec, hlen, hvalue]
  exact readExact_append _ _

theorem length_of_readVec {bs v rest : Bytes} (h : readVec bs = some (v, rest)) :
    bs.length = 8 + v.length + rest.length := by
  have hread : ∀ {n : Nat} {bs a b : Bytes}, readExact n bs = some (a, b) →
      bs.length = a.length + b.length ∧ a.length = n := by
    intro n bs a b h
    unfold readExact at h
    by_cases hn : bs.length < n
    · rw [if_pos hn] at h
      cases h
    · rw [if_neg hn] at h
      cases h
      rw [List.length_take, List.length_drop]
      omega
  unfold readVec at h
  cases hlen : readExact 8 bs with
  | none =>
    rw [hlen] at h
    cases h
  | some p =>
    rw [hlen] at h
    have hfirst := hread hlen
    have hsecond := hread h
    omega

-- A container is longer than the ciphertext in it.
theorem length_ciphertext_lt {bs : Bytes} {e : EncryptedData} (h : fromBytes bs = some e) :
    e.ciphertext.length < bs.length := by
  unfold fromBytes at h
  simp only [Option.bind_eq_bind, Option.bind_eq_some_iff, Option.pure_def] at h
  obtain ⟨⟨nonce, rest⟩, hnonce, ⟨ciphertext, rest'⟩, hciphertext, h⟩ := h
  obtain ⟨⟨algorithm, rest''⟩, -, ⟨version, -⟩, -, version', -, h⟩ := h
  cases h
  have hfirst := length_of_readVec hnonce
  have hsecond := length_of_readVec hciphertext
  show ciphertext.length < bs.length
  dsimp only at hsecond
  omega

-- Deserialising undoes serialising.
theorem fromBytes_toBytes {e : EncryptedData} (hnonce : e.nonce.length < 2 ^ 64)
    (hciphertext : e.ciphertext.length < 2 ^ 64) (halgorithm : e.algorithm.length < 2 ^ 64) :
    fromBytes e.toBytes = some e := by
  have hversion : readExact 1 [e.version] = some ([e.version], []) := rfl
  simp only [fromBytes, toBytes, readVec_vec_append hnonce, readVec_vec_append hciphertext,
    readVec_vec_append halgorithm, hversion, Option.bind_eq_bind, Option.bind_some,
    List.head?_cons, Option.pure_def]

end EncryptedData

/-! ## Encryption and decryption -/

namespace DocumentEncryption

variable (aead : Aead)

/-- `DocumentEncryption::encrypt` with the nonce it drew. -/
def encrypt (nonce plaintext key : Bytes) : Except CipherError Bytes :=
  if key.length ≠ 32 then .error .keyLength
  else
    match aead.encrypt key nonce plaintext with
    | none => .error .encryptionFailed
    | some ciphertext => .ok (EncryptedData.new nonce ciphertext).toBytes

def decrypt (encryptedBytes key : Bytes) : Except CipherError Bytes :=
  if key.length ≠ 32 then .error .keyLength
  else
    match EncryptedData.fromBytes encryptedBytes with
    | none => .error .deserialize
    | some data =>
      if data.algorithm ≠ algorithmName then .error (.unsupportedAlgorithm data.algorithm)
      else if data.nonce.length ≠ 12 then .error (.nonceLength data.nonce.length)
      else
        match aead.decrypt key data.nonce data.ciphertext with
        | none => .error .decryptionFailed
        | some plaintext => .ok plaintext

variable {aead}

-- What a successful decryption has gone through.
theorem decrypt_eq_ok_iff {bytes key plaintext : Bytes} :
    decrypt aead bytes key = .ok plaintext ↔
      key.length = 32 ∧ ∃ data, EncryptedData.fromBytes bytes = some data ∧
        data.algorithm = algorithmName ∧ data.nonce.length = 12 ∧
        aead.decrypt key data.nonce data.ciphertext = some plaintext := by
  unfold decrypt
  by_cases hkey : key.length = 32
  · rw [if_neg (not_not.mpr hkey)]
    cases hdata : EncryptedData.fromBytes bytes with
    | none => simp
    | some data =>
      by_cases halgorithm : data.algorithm = algorithmName
      · by_cases hnonce : data.nonce.length = 12
        · cases hopen : aead.decrypt key data.nonce data.ciphertext with
          | none => simp [halgorithm, hnonce, hopen]
          | some p => simp [halgorithm, hnonce, hopen, hkey]
        · simp [halgorithm, hnonce]
      · simp [halgorithm]
  · simp [hkey]

-- What a successful encryption has written.
theorem encrypt_eq_ok {nonce plaintext key bytes : Bytes}
    (h : encrypt aead nonce plaintext key = .ok bytes) :
    key.length = 32 ∧ ∃ ciphertext, aead.encrypt key nonce plaintext = some ciphertext ∧
      bytes = (EncryptedData.new nonce ciphertext).toBytes := by
  unfold encrypt at h
  by_cases hkey : key.length = 32
  · rw [if_neg (not_not.mpr hkey)] at h
    cases hseal : aead.encrypt key nonce plaintext with
    | none =>
      rw [hseal] at h
      cases h
    | some ciphertext =>
      rw [hseal] at h
      cases h
      exact ⟨hkey, ciphertext, rfl, rfl⟩
  · rw [if_pos hkey] at h
    cases h

-- A document opens to what was encrypted.
theorem decrypt_encrypt (h : aead.Lawful) {nonce plaintext key bytes : Bytes}
    (hnonce : nonce.length = 12) (henc : encrypt aead nonce plaintext key = .ok bytes) :
    decrypt aead bytes key = .ok plaintext := by
  obtain ⟨hkey, ciphertext, hseal, rfl⟩ := encrypt_eq_ok henc
  have hread : EncryptedData.fromBytes (EncryptedData.new nonce ciphertext).toBytes =
      some (EncryptedData.new nonce ciphertext) := by
    apply EncryptedData.fromBytes_toBytes
    · show nonce.length < 2 ^ 64
      omega
    · exact h.length_lt hseal
    · show algorithmName.length < 2 ^ 64
      decide
  rw [decrypt_eq_ok_iff]
  exact ⟨hkey, _, hread, rfl, hnonce, h.decrypt_encrypt hseal⟩

-- A document is longer than what it opens to.
theorem length_lt_of_decrypt (h : aead.Lawful) {bytes key plaintext : Bytes}
    (hopen : decrypt aead bytes key = .ok plaintext) : plaintext.length < bytes.length := by
  obtain ⟨-, data, hdata, -, -, hplain⟩ := decrypt_eq_ok_iff.mp hopen
  have hle := h.length_le hplain
  have hlt := EncryptedData.length_ciphertext_lt hdata
  omega

-- A document opens under one key only.
theorem decrypt_one_key (h : aead.Lawful) {bytes key key' plaintext plaintext' : Bytes}
    (hopen : decrypt aead bytes key = .ok plaintext)
    (hopen' : decrypt aead bytes key' = .ok plaintext') : key = key' := by
  obtain ⟨-, data, hdata, -, -, hplain⟩ := decrypt_eq_ok_iff.mp hopen
  obtain ⟨-, data', hdata', -, -, hplain'⟩ := decrypt_eq_ok_iff.mp hopen'
  rw [hdata] at hdata'
  cases hdata'
  exact h.one_key hplain hplain'

-- What was opened can be encrypted again, under any key of the right length.
theorem encrypt_again (h : aead.Lawful) {bytes key plaintext key' nonce : Bytes}
    (hopen : decrypt aead bytes key = .ok plaintext) (hkey : key'.length = 32)
    (hnonce : nonce.length = 12) : ∃ bytes', encrypt aead nonce plaintext key' = .ok bytes' := by
  obtain ⟨-, data, -, -, -, hplain⟩ := decrypt_eq_ok_iff.mp hopen
  obtain ⟨ciphertext, hseal⟩ := h.encrypt_again hplain hkey hnonce
  unfold encrypt
  rw [if_neg (not_not.mpr hkey), hseal]
  exact ⟨_, rfl⟩

end DocumentEncryption

/-! ## A concrete cipher

It writes the key in front of the plaintext, within the length AES-256-GCM allows.  The closed runs
use it in place of the abstract cipher, and the counting source in place of the random one. -/

def prefixCipher : Aead where
  encrypt key _ plaintext :=
    if key.length = 32 ∧ plaintext.length + 32 < 2 ^ 36 then some (key ++ plaintext) else none
  decrypt key _ ciphertext :=
    if key.length = 32 ∧ ciphertext.take 32 = key ∧ ciphertext.length < 2 ^ 36 then
      some (ciphertext.drop 32)
    else none

theorem prefixCipher_lawful : prefixCipher.Lawful := by
  have hencrypt : ∀ {key nonce plaintext ciphertext : Bytes},
      prefixCipher.encrypt key nonce plaintext = some ciphertext →
        key.length = 32 ∧ plaintext.length + 32 < 2 ^ 36 ∧ ciphertext = key ++ plaintext := by
    intro key nonce plaintext ciphertext h
    simp only [prefixCipher, Option.ite_none_right_eq_some, Option.some.injEq] at h
    exact ⟨h.1.1, h.1.2, h.2.symm⟩
  have hdecrypt : ∀ {key nonce plaintext ciphertext : Bytes},
      prefixCipher.decrypt key nonce ciphertext = some plaintext →
        key.length = 32 ∧ ciphertext.take 32 = key ∧ ciphertext.length < 2 ^ 36 ∧
          plaintext = ciphertext.drop 32 := by
    intro key nonce plaintext ciphertext h
    simp only [prefixCipher, Option.ite_none_right_eq_some, Option.some.injEq] at h
    exact ⟨h.1.1, h.1.2.1, h.1.2.2, h.2.symm⟩
  constructor
  · intro key nonce plaintext ciphertext h
    obtain ⟨hkey, hlen, rfl⟩ := hencrypt h
    have htake : (key ++ plaintext).take 32 = key := List.take_left' hkey
    have hdrop : (key ++ plaintext).drop 32 = plaintext := List.drop_left' hkey
    have hbound : (key ++ plaintext).length < 2 ^ 36 := by
      rw [List.length_append]
      omega
    simp only [prefixCipher, htake, hdrop]
    exact if_pos ⟨hkey, trivial, hbound⟩
  · intro key key' nonce ciphertext plaintext plaintext' h h'
    exact (hdecrypt h).2.1.symm.trans (hdecrypt h').2.1
  · intro key nonce ciphertext plaintext h key' nonce' hkey' _
    obtain ⟨hkey, htake, hlen, rfl⟩ := hdecrypt h
    have hbound : (ciphertext.drop 32).length + 32 < 2 ^ 36 := by
      have hprefixed := congrArg List.length htake
      rw [List.length_take, hkey] at hprefixed
      rw [List.length_drop]
      omega
    exact ⟨_, if_pos ⟨hkey', hbound⟩⟩
  · intro key nonce plaintext ciphertext h
    obtain ⟨-, -, -, rfl⟩ := hdecrypt h
    rw [List.length_drop]
    omega
  · intro key nonce plaintext ciphertext h
    obtain ⟨hkey, hlen, rfl⟩ := hencrypt h
    rw [List.length_append]
    omega

def countingRng : Rng where
  key n := List.replicate 32 (UInt8.ofNat n)
  nonce n := List.replicate 12 (UInt8.ofNat n)
  key_length _ := List.length_replicate
  nonce_length _ := List.length_replicate

end VedDb
