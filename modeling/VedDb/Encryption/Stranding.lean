import VedDb.Encryption.RotationOutcome

/-!
# Documents that no key opens any more

`rotate_key` writes the new key over the old one in the key file before it re-encrypts the first
document, and the old key stays in memory only.  So a rotation that is cut off after the key file
was written, and before its last document, leaves documents behind that no persisted key opens.
-/

namespace VedDb

open LittleEndian (Bytes)
open Durable

variable {σ : Type} {env : RotationEnv σ} {now : DateTime} {collection : String}
  {key : EncryptionKey} {w : RotationWorld σ}

def OpensWith (aead : Aead) (keys : Keys) (doc : EncryptedDocumentRef) : Prop :=
  ∃ (keyId : String) (key : EncryptionKey), keys[keyId]? = some key ∧
    ∃ plaintext, doc.Opens aead key.key plaintext

def Recoverable (env : RotationEnv σ) (w : RotationWorld σ) : Prop :=
  ∀ collection docs, env.store.scanEncryptedCollection w.storage collection = .ok docs →
    ∀ doc ∈ docs, ∃ file, w.keyFile = some file ∧ OpensWith env.aead file.keys doc

/-- Every document is encrypted under the current key of its collection, and the key file holds the
keys that are in memory. -/
structure Settled (env : RotationEnv σ) (w : RotationWorld σ) : Prop where
  keyFile : w.keyFile = some ⟨w.keyManager.keys, w.keyManager.masterKeyHash⟩
  opens : ∀ {collection docs},
    env.store.scanEncryptedCollection w.storage collection = .ok docs → ∀ doc ∈ docs,
      ∃ key, w.keyManager.keys[collectionKeyId collection]? = some key ∧
        ∃ plaintext, doc.Opens env.aead key.key plaintext

/-- The bytes of the old key stay in the key file when the key is replaced: another key has them,
or the same bytes were drawn again. -/
def OldKeyKept (rng : Rng) (w : RotationWorld σ) (keyId : String) (key : EncryptionKey) : Prop :=
  rng.key w.drawn = key.key ∨
    ∃ otherId other, otherId ≠ keyId ∧ w.keyManager.keys[otherId]? = some other ∧
      other.key = key.key

/-- The keys that a rotation writes to the key file. -/
def rotatedKeys (rng : Rng) (now : DateTime) (w : RotationWorld σ) (keyId : String)
    (key : EncryptionKey) : Keys :=
  w.keyManager.keys.insert keyId (KeyManager.rotated now key (rng.key w.drawn))

theorem Settled.recoverable (h : Settled env w) : Recoverable env w := by
  intro collection docs hscan doc hdoc
  obtain ⟨key, hkey, hopens⟩ := h.opens hscan doc hdoc
  exact ⟨_, h.keyFile, _, key, hkey, hopens⟩

-- The documents of a collection open under its key.
theorem Settled.opens_key (h : Settled env w)
    (hkey : w.keyManager.keys[collectionKeyId collection]? = some key)
    {docs : List EncryptedDocumentRef}
    (hscan : env.store.scanEncryptedCollection w.storage collection = .ok docs) :
    ∀ doc ∈ docs, ∃ plaintext, doc.Opens env.aead key.key plaintext := by
  intro doc hdoc
  obtain ⟨key', hkey', hopens⟩ := h.opens hscan doc hdoc
  rw [hkey] at hkey'
  cases hkey'
  exact hopens

theorem collectionKeyId_inj {c c' : String} (h : collectionKeyId c = collectionKeyId c') :
    c = c' := by
  have hlist := congrArg String.toList h
  simp only [collectionKeyId, String.toList_append] at hlist
  exact String.toList_inj.mp (List.append_cancel_left hlist)

-- The documents of the other collections keep their keys.
theorem Settled.opensWith_other (h : Settled env w) {other : String} (hne : other ≠ collection)
    {docs : List EncryptedDocumentRef}
    (hscan : env.store.scanEncryptedCollection w.storage other = .ok docs)
    {doc : EncryptedDocumentRef} (hdoc : doc ∈ docs) :
    OpensWith env.aead (rotatedKeys env.rng now w (collectionKeyId collection) key) doc := by
  obtain ⟨otherKey, hkey, hopens⟩ := h.opens hscan doc hdoc
  refine ⟨collectionKeyId other, otherKey, ?_, hopens⟩
  rw [rotatedKeys, lookup_insert, if_neg, hkey]
  intro hsame
  exact hne (collectionKeyId_inj hsame).symm

-- After the key file was written, recoverability is a matter of the rotated collection.
theorem Settled.recoverable_iff (h : Settled env w)
    {files : (String → Option KeyRotationState) → Prop} {docs : List EncryptedDocumentRef}
    {w' : RotationWorld σ}
    (hholding : Holding env collection (w.rekeyed env.rng now (collectionKeyId collection) key)
      files docs w') :
    Recoverable env w' ↔ ∀ doc ∈ docs,
      OpensWith env.aead (rotatedKeys env.rng now w (collectionKeyId collection) key) doc := by
  constructor
  · intro hrecoverable doc hdoc
    obtain ⟨file, hfile, hopens⟩ := hrecoverable collection docs hholding.scan doc hdoc
    rw [hholding.keyFile] at hfile
    cases hfile
    exact hopens
  · intro hopens other docs' hscan doc hdoc
    refine ⟨_, hholding.keyFile, ?_⟩
    show OpensWith env.aead (rotatedKeys env.rng now w (collectionKeyId collection) key) doc
    by_cases heq : other = collection
    · subst heq
      rw [hholding.scan] at hscan
      cases hscan
      exact hopens doc hdoc
    · rw [hholding.scan_other other heq] at hscan
      exact h.opensWith_other heq hscan hdoc

-- A document that was sealed under the new key opens with it.
theorem opensWith_of_newKey {aead : Aead} {rng : Rng} {keyId : String}
    {doc : EncryptedDocumentRef} {plaintext : Bytes}
    (h : doc.Opens aead (rng.key w.drawn) plaintext) :
    OpensWith aead (rotatedKeys rng now w keyId key) doc :=
  ⟨keyId, KeyManager.rotated now key (rng.key w.drawn), Std.ExtTreeMap.getElem?_insert_self,
    plaintext, h⟩

-- A document under the old key opens with the rotated keys only if the old key is among them.
theorem opensWith_rotatedKeys_iff (haead : env.aead.Lawful) {keyId : String}
    {doc : EncryptedDocumentRef} {plaintext : Bytes}
    (hopen : doc.Opens env.aead key.key plaintext) :
    OpensWith env.aead (rotatedKeys env.rng now w keyId key) doc ↔
      OldKeyKept env.rng w keyId key := by
  constructor
  · rintro ⟨otherId, other, hother, plaintext', hopen'⟩
    have hbytes : other.key = key.key := DocumentEncryption.decrypt_one_key haead hopen' hopen
    rw [rotatedKeys, lookup_insert] at hother
    by_cases hsame : keyId = otherId
    · rw [if_pos hsame] at hother
      cases hother
      exact .inl hbytes
    · rw [if_neg hsame] at hother
      exact .inr ⟨otherId, other, Ne.symm hsame, hother, hbytes⟩
  · rintro (hdrawn | ⟨otherId, other, hne, hother, hbytes⟩)
    · apply opensWith_of_newKey
      rw [hdrawn]
      exact hopen
    · refine ⟨otherId, other, ?_, plaintext, by rw [hbytes]; exact hopen⟩
      rw [rotatedKeys, lookup_insert, if_neg hne.symm, hother]

-- A document the loop has been through, and that opened before, opens with the rotated keys.
theorem Processed.opensWith {aead : Aead} {rng : Rng} {keyId : String}
    {doc doc' : EncryptedDocumentRef}
    (h : Processed aead ⟨key.key, rng.key w.drawn⟩ doc doc')
    (hopens : ∃ plaintext, doc.Opens aead key.key plaintext) :
    OpensWith aead (rotatedKeys rng now w keyId key) doc' := by
  cases h with
  | resealed hold hnew => exact opensWith_of_newKey hnew
  | skipped hnot =>
    obtain ⟨plaintext, hopen⟩ := hopens
    exact absurd hopen (hnot plaintext)

theorem processed_opensWith {aead : Aead} {rng : Rng} {keyId : String}
    {docs docs' : List EncryptedDocumentRef}
    (h : List.Forall₂ (Processed aead ⟨key.key, rng.key w.drawn⟩) docs docs')
    (hopens : ∀ doc ∈ docs, ∃ plaintext, doc.Opens aead key.key plaintext) :
    ∀ doc' ∈ docs', OpensWith aead (rotatedKeys rng now w keyId key) doc' := by
  induction h with
  | nil => exact fun _ hmem => absurd hmem List.not_mem_nil
  | cons hhead _ ih =>
    intro doc' hmem
    rcases List.mem_cons.mp hmem with rfl | hmem
    · exact hhead.opensWith (hopens _ List.mem_cons_self)
    · exact ih (fun d hd => hopens d (List.mem_cons_of_mem _ hd)) doc' hmem

-- Documents that are still under the old key are lost unless the old key is kept.
theorem unprocessed_opensWith_iff (haead : env.aead.Lawful) {keyId : String}
    {docs : List EncryptedDocumentRef}
    (hopens : ∀ doc ∈ docs, ∃ plaintext, doc.Opens env.aead key.key plaintext) :
    (∀ doc ∈ docs, OpensWith env.aead (rotatedKeys env.rng now w keyId key) doc) ↔
      docs = [] ∨ OldKeyKept env.rng w keyId key := by
  have hiff : ∀ doc ∈ docs, (OpensWith env.aead (rotatedKeys env.rng now w keyId key) doc ↔
      OldKeyKept env.rng w keyId key) := by
    intro doc hdoc
    obtain ⟨plaintext, hopen⟩ := hopens doc hdoc
    exact opensWith_rotatedKeys_iff haead hopen
  constructor
  · intro hall
    cases docs with
    | nil => exact .inl rfl
    | cons doc docs =>
      exact .inr ((hiff doc List.mem_cons_self).mp (hall doc List.mem_cons_self))
  · rintro (rfl | hkept)
    · exact fun _ hmem => absurd hmem List.not_mem_nil
    · exact fun doc hdoc => (hiff doc hdoc).mpr hkept

/-- The ways a rotation of the collection can go, with everything persisted at that point still
recoverable: it does not start; it is cut off before it writes the key file; there is nothing under
the old key; the old key stays in the file; or it gets through all documents. -/
def NothingStranded (env : RotationEnv σ) (scheduler : KeyRotationScheduler) (w : RotationWorld σ)
    (collection : String) (key : EncryptionKey) (docs : List EncryptedDocumentRef) (cut : Cut) :
    Prop :=
  (w.loadRotationState scheduler.encryptionPath).canStartRotation = false ∨
    ¬ cut.Allows 1 ∨ docs = [] ∨ OldKeyKept env.rng w (collectionKeyId collection) key ∨
    (key.active = true ∧ scheduler.batchSize ≠ 0 ∧ cut.Allows (docs.length + 2))

section

variable {scheduler : KeyRotationScheduler} {docs : List EncryptedDocumentRef} {cut : Cut}
  {w' : RotationWorld σ}

-- A rotation that got through all documents has stranded none of them.
theorem Settled.recoverable_through (h : Settled env w)
    {files : (String → Option KeyRotationState) → Prop}
    (hopens : ∀ doc ∈ docs, ∃ plaintext, doc.Opens env.aead key.key plaintext)
    (hthrough : Through env scheduler now (collectionKeyId collection) collection key w cut files
      [] docs [] w') :
    Recoverable env w' ∧ NothingStranded env scheduler w collection key docs cut := by
  constructor
  · obtain ⟨docs', hall, hholding⟩ := hthrough.holding
    rw [h.recoverable_iff hholding, List.nil_append, List.append_nil]
    exact processed_opensWith hall hopens
  · have hcount : docs.countP (opensUnder env.aead key.key) = docs.length :=
      List.countP_eq_length.mpr fun doc hdoc => opensUnder_iff.mpr (hopens doc hdoc)
    have hallows := hthrough.allows
    rw [hcount, Nat.add_comm] at hallows
    exact .inr (.inr (.inr (.inr ⟨hthrough.active, hthrough.batchSize_ne, hallows⟩)))

-- A rotation that stopped early has stranded nothing exactly in the ways of `NothingStranded`.
theorem Settled.recoverable_stop (h : Settled env w) (haead : env.aead.Lawful)
    (hstore : env.store.Reliable)
    (hstart : (w.loadRotationState scheduler.encryptionPath).canStartRotation = true)
    (hscan : env.store.scanEncryptedCollection w.storage collection = .ok docs)
    (hopens : ∀ doc ∈ docs, ∃ plaintext, doc.Opens env.aead key.key plaintext)
    (hstop : RotateStop env scheduler now (collectionKeyId collection) collection key w cut
      [] docs [] w') :
    Recoverable env w' ↔ NothingStranded env scheduler w collection key docs cut := by
  -- with the key file written, the collection untouched and the loop not finished
  have huntouched : cut.Allows 1 →
      (key.active = true → scheduler.batchSize ≠ 0 → ¬ cut.Allows (docs.length + 2)) →
      ((docs = [] ∨ OldKeyKept env.rng w (collectionKeyId collection) key) ↔
        NothingStranded env scheduler w collection key docs cut) := by
    intro hone hnot
    constructor
    · rintro (hempty | hkept)
      · exact .inr (.inr (.inl hempty))
      · exact .inr (.inr (.inr (.inl hkept)))
    · rintro (hrefused | hcut | hempty | hkept | ⟨hactive, hbatch, hallows⟩)
      · rw [hstart] at hrefused
        cases hrefused
      · exact absurd hone hcut
      · exact .inl hempty
      · exact .inr hkept
      · exact absurd hallows (hnot hactive hbatch)
  cases hstop with
  | keyUnsaved hcut =>
    constructor
    · exact fun _ => .inr (.inl hcut)
    · exact fun _ => h.recoverable
  | unrecorded hone hcut =>
    have hholding : Holding env collection
        (w.rekeyed env.rng now (collectionKeyId collection) key) (fun _ => True) docs
        (w.rekeyed env.rng now (collectionKeyId collection) key) :=
      ⟨rfl, rfl, trivial, hscan, fun _ _ => rfl⟩
    rw [h.recoverable_iff hholding, unprocessed_opensWith_iff haead hopens]
    exact huntouched hone fun hactive _ hallows =>
      hcut hactive (hallows.mono (Nat.le_add_left 2 docs.length))
  | noBatches htwo hbatch hholding =>
    rw [List.nil_append, List.append_nil] at hholding
    rw [h.recoverable_iff hholding, unprocessed_opensWith_iff haead hopens]
    exact huntouched (htwo.mono (by decide)) fun _ hne => absurd hbatch hne
  | underway htwo hstopped hcut =>
    obtain ⟨done, doc, rest, done', rfl, hall, hholding⟩ := hstopped
    have hdone : ∀ d ∈ done, ∃ plaintext, d.Opens env.aead key.key plaintext :=
      fun d hd => hopens d (List.mem_append_left _ hd)
    have hrest : ∀ d ∈ doc :: rest, ∃ plaintext, d.Opens env.aead key.key plaintext :=
      fun d hd => hopens d (List.mem_append_right _ hd)
    -- what the loop has been through is safe, so all depends on the rest, which is not empty
    rw [h.recoverable_iff hholding, List.nil_append, List.append_nil]
    rw [← huntouched (htwo.mono (by decide)) fun _ _ hallows =>
      hcut hstore (fun d hd => opensUnder_iff.mpr (hopens d hd)) (by
        rw [Nat.add_comm]
        exact hallows)]
    have hiff : (∀ d ∈ doc :: rest, OpensWith env.aead
        (rotatedKeys env.rng now w (collectionKeyId collection) key) d) ↔
        OldKeyKept env.rng w (collectionKeyId collection) key := by
      rw [unprocessed_opensWith_iff haead hrest, or_iff_right (List.cons_ne_nil doc rest)]
    constructor
    · exact fun hkeys => .inr (hiff.mp fun d hd => hkeys d (List.mem_append_right _ hd))
    · rintro (hempty | hkept)
      · exact absurd hempty (List.append_ne_nil_of_right_ne_nil done (List.cons_ne_nil doc rest))
      · intro d hd
        rcases List.mem_append.mp hd with hd | hd
        · exact processed_opensWith hall hdone d hd
        · exact hiff.mpr hkept d hd
  | unfinished hthrough =>
    obtain ⟨hrecoverable, hnothing⟩ := h.recoverable_through hopens hthrough
    exact ⟨fun _ => hnothing, fun _ => hrecoverable⟩

end

/-- Exactly when a rotation, cut off anywhere or not at all, leaves every document of the storage
under some key of the key file. -/
theorem rotateKey_recoverable_iff (haead : env.aead.Lawful) (hstore : env.store.Reliable)
    (hsettled : Settled env w) (hkey : w.keyManager.keys[collectionKeyId collection]? = some key)
    {docs : List EncryptedDocumentRef}
    (hscan : env.store.scanEncryptedCollection w.storage collection = .ok docs)
    (scheduler : KeyRotationScheduler) (cut : Cut) :
    Recoverable env ((scheduler.rotateKey env now (collectionKeyId collection)).final cut w) ↔
      NothingStranded env scheduler w collection key docs cut := by
  have hopens := hsettled.opens_key hkey hscan
  cases hstart : (w.loadRotationState scheduler.encryptionPath).canStartRotation with
  | false =>
    rw [Program.final, rotateKey_refused hstart]
    exact ⟨fun _ => .inl hstart, fun _ => hsettled.recoverable⟩
  | true =>
    have hspec := rotateKey_spec haead hstore.toLawful scheduler now cut [] [] hstart hkey
      (documentsUsing_of_reliable hstore hscan) (hstore.scan_collection hscan)
      (by rw [List.nil_append, List.append_nil, hscan])
    rcases hspec.outcome_cases ⟨rfl, rfl⟩ with ⟨_, _, -, hthrough⟩ | ⟨-, _, hstop⟩
    · obtain ⟨hrecoverable, hnothing⟩ := hsettled.recoverable_through hopens hthrough
      exact ⟨fun _ => hnothing, fun _ => hrecoverable⟩
    · exact hsettled.recoverable_stop haead hstore hstart hscan hopens hstop

/-! ## One document under a key -/

/-- The key of the collection `users`, with the first bytes that were drawn. -/
def usersKey : EncryptionKey where
  id := collectionKeyId "users"
  key := countingRng.key 0
  createdAt := epoch
  lastRotated := epoch
  active := true
  version := 1

/-- A document of `users` that holds one byte. -/
def sealedUser (key : Bytes) : EncryptedDocumentRef where
  collection := "users"
  docId := ⟨0⟩
  encryptedData := (EncryptedData.new (countingRng.nonce 0) (key ++ [7])).toBytes

def usersTable : DocumentTable := ⟨[sealedUser (countingRng.key 0)], by decide⟩

def usersKeys : KeyManager := ⟨Std.ExtTreeMap.empty.insert (collectionKeyId "users") usersKey, none⟩

def usersWorld : RotationWorld DocumentTable where
  keyManager := usersKeys
  keyFile := some ⟨usersKeys.keys, usersKeys.masterKeyHash⟩
  stateFiles := fun _ => none
  storage := usersTable
  drawn := 1

def usersScheduler : KeyRotationScheduler := ⟨100, "./encryption"⟩

theorem usersKeys_users : usersKeys.keys[collectionKeyId "users"]? = some usersKey :=
  Std.ExtTreeMap.getElem?_insert_self

theorem sealedUser_opens :
    (sealedUser (countingRng.key 0)).Opens prefixCipher usersKey.key [7] := by
  decide +kernel

theorem usersWorld_settled : Settled tableEnv usersWorld where
  keyFile := rfl
  opens := by
    intro collection docs hscan doc hdoc
    cases hscan
    have hmem := List.mem_filter.mp hdoc
    rw [decide_eq_true_iff] at hmem
    obtain ⟨hsingle, rfl⟩ := hmem
    rw [List.mem_singleton.mp hsingle]
    exact ⟨usersKey, usersKeys_users, [7], sealedUser_opens⟩

theorem rotateKey_recoverable_iff_users :
    Recoverable tableEnv
      ((usersScheduler.rotateKey tableEnv epoch (collectionKeyId "users")).final none usersWorld) :=
  (rotateKey_recoverable_iff prefixCipher_lawful DocumentTable.storage_reliable usersWorld_settled
    usersKeys_users rfl usersScheduler none).mpr
    (.inr (.inr (.inr (.inr ⟨rfl, by decide, trivial⟩))))

/-- A crash right after the key file was written: the document is under a key that is nowhere. -/
theorem rotateKey_strands_user : Settled tableEnv usersWorld ∧
    ¬ Recoverable tableEnv
      ((usersScheduler.rotateKey tableEnv epoch (collectionKeyId "users")).final
        (some (1, .crash)) usersWorld) := by
  refine ⟨usersWorld_settled, fun h => ?_⟩
  have hfinal : (usersScheduler.rotateKey tableEnv epoch (collectionKeyId "users")).final
      (some (1, .crash)) usersWorld =
        usersWorld.rekeyed countingRng epoch (collectionKeyId "users") usersKey := rfl
  rw [hfinal] at h
  -- the one key of the key file is the new one
  obtain ⟨file, hfile, keyId, key, hkey, plaintext, hopen⟩ :=
    h "users" _ rfl (sealedUser (countingRng.key 0)) (by decide)
  cases hfile
  have hbytes := DocumentEncryption.decrypt_one_key prefixCipher_lawful hopen sealedUser_opens
  have hkeys : (usersWorld.rekeyed countingRng epoch (collectionKeyId "users")
      usersKey).keyManager.keys.toList = [(collectionKeyId "users",
        KeyManager.rotated epoch usersKey (countingRng.key 1))] := by
    decide +kernel
  have hmem : (keyId, key) ∈ (usersWorld.rekeyed countingRng epoch (collectionKeyId "users")
      usersKey).keyManager.keys.toList :=
    Std.ExtTreeMap.mem_toList_iff_getElem?_eq_some.mpr hkey
  rw [hkeys, List.mem_singleton] at hmem
  cases hmem
  exact absurd hbytes (by decide)

end VedDb
