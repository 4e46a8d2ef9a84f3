import VedDb.Encryption.HybridStorage
import VedDb.Encryption.Resume

/-!
# Rotations recorded as completed

The re-encryption loop skips a document that does not open under the old key, and the rotation is
recorded as completed all the same.  So a completed rotation is complete only if every document of
the collection opened under the old key and was among those the loop went through.
-/

namespace VedDb

open LittleEndian (Bytes)
open Durable

variable {σ : Type} {env : RotationEnv σ} {now : DateTime} {collection : String}
  {key : EncryptionKey} {w w' : RotationWorld σ} {scheduler : KeyRotationScheduler} {cut : Cut}

/-- Every document of the collection decrypts, under its key after the call, to what it decrypted to
under its key before the call. -/
def Complete (env : RotationEnv σ) (collection : String) (w w' : RotationWorld σ) : Prop :=
  ∀ key key' docs docs', w.keyManager.keys[collectionKeyId collection]? = some key →
    w'.keyManager.keys[collectionKeyId collection]? = some key' →
    env.store.scanEncryptedCollection w.storage collection = .ok docs →
    env.store.scanEncryptedCollection w'.storage collection = .ok docs' →
      List.Forall₂ (SamePlaintextUnder env.aead key.key key'.key) docs docs'

/-- Every document of the collection opens under the key. -/
def AllOpen (env : RotationEnv σ) (key : EncryptionKey) (docs : List EncryptedDocumentRef) :
    Prop :=
  ∀ doc ∈ docs, ∃ plaintext, doc.Opens env.aead key.key plaintext

theorem allOpen_cons {doc : EncryptedDocumentRef} {docs : List EncryptedDocumentRef} :
    AllOpen env key (doc :: docs) ↔
      (∃ plaintext, doc.Opens env.aead key.key plaintext) ∧ AllOpen env key docs :=
  List.forall_mem_cons

/-! ## What the loop leaves -/

-- A document that is left as it was has its plaintext under the new key only if the new key is
-- the old one.
theorem samePlaintextUnder_self_iff (haead : env.aead.Lawful) {newKey : Bytes}
    {doc : EncryptedDocumentRef} :
    SamePlaintextUnder env.aead key.key newKey doc doc ↔
      (∃ plaintext, doc.Opens env.aead key.key plaintext) ∧ newKey = key.key := by
  constructor
  · rintro ⟨-, plaintext, hopen, hnew⟩
    exact ⟨⟨plaintext, hopen⟩, DocumentEncryption.decrypt_one_key haead hnew hopen⟩
  · rintro ⟨⟨plaintext, hopen⟩, rfl⟩
    exact ⟨rfl, plaintext, hopen, hopen⟩

-- A document the loop went through has its plaintext under the new key exactly if it opened
-- under the old one.
theorem Processed.samePlaintextUnder_iff {newKey : Bytes} {doc doc' : EncryptedDocumentRef}
    (h : Processed env.aead ⟨key.key, newKey⟩ doc doc') :
    SamePlaintextUnder env.aead key.key newKey doc doc' ↔
      ∃ plaintext, doc.Opens env.aead key.key plaintext := by
  constructor
  · rintro ⟨-, plaintext, hopen, -⟩
    exact ⟨plaintext, hopen⟩
  · rintro ⟨plaintext, hopen⟩
    cases h with
    | @resealed data plaintext' hold hnew => exact ⟨rfl, plaintext', hold, hnew⟩
    | skipped hnot => exact absurd hopen (hnot plaintext)

theorem processed_samePlaintextUnder_iff {newKey : Bytes}
    {reached reached' : List EncryptedDocumentRef}
    (hall : List.Forall₂ (Processed env.aead ⟨key.key, newKey⟩) reached reached') :
    List.Forall₂ (SamePlaintextUnder env.aead key.key newKey) reached reached' ↔
      AllOpen env key reached := by
  induction hall with
  | nil => exact ⟨fun _ _ hmem => absurd hmem List.not_mem_nil, fun _ => .nil⟩
  | cons hhead _ ih => rw [List.forall₂_cons, allOpen_cons, hhead.samePlaintextUnder_iff, ih]

-- The loop went through the last documents of the collection and left the ones before alone.
theorem suffix_samePlaintextUnder_iff (haead : env.aead.Lawful) {newKey : Bytes}
    {reached reached' : List EncryptedDocumentRef}
    (hall : List.Forall₂ (Processed env.aead ⟨key.key, newKey⟩) reached reached')
    (before : List EncryptedDocumentRef) :
    List.Forall₂ (SamePlaintextUnder env.aead key.key newKey) (before ++ reached)
        (before ++ reached') ↔
      AllOpen env key (before ++ reached) ∧ (before = [] ∨ newKey = key.key) := by
  induction before with
  | nil => simp only [List.nil_append, processed_samePlaintextUnder_iff hall, true_or, and_true]
  | cons doc before ih =>
    rw [List.cons_append, List.cons_append, List.forall₂_cons, allOpen_cons, ih,
      samePlaintextUnder_self_iff haead]
    constructor
    · rintro ⟨⟨hopen, hsame⟩, hrest, -⟩
      exact ⟨⟨hopen, hrest⟩, .inr hsame⟩
    · rintro ⟨⟨hopen, hrest⟩, hnil | hsame⟩
      · exact absurd hnil (List.cons_ne_nil doc before)
      · exact ⟨⟨hopen, hsame⟩, hrest, .inr hsame⟩

-- What a call has made of the collection, by what was in it before.
theorem complete_iff_of_holding (haead : env.aead.Lawful)
    (hkey : w.keyManager.keys[collectionKeyId collection]? = some key)
    {before reached reached' : List EncryptedDocumentRef}
    (hscan : env.store.scanEncryptedCollection w.storage collection = .ok (before ++ reached))
    (hall : List.Forall₂ (Processed env.aead ⟨key.key, env.rng.key w.drawn⟩) reached reached')
    {files : (String → Option KeyRotationState) → Prop}
    (hholding : Holding env collection (w.rekeyed env.rng now (collectionKeyId collection) key)
      files (before ++ reached') w') :
    Complete env collection w w' ↔ AllOpen env key (before ++ reached) ∧
      (before = [] ∨ env.rng.key w.drawn = key.key) := by
  have hkey' : w'.keyManager.keys[collectionKeyId collection]? =
      some (KeyManager.rotated now key (env.rng.key w.drawn)) := by
    rw [hholding.keyManager]
    exact Std.ExtTreeMap.getElem?_insert_self
  rw [← suffix_samePlaintextUnder_iff haead hall before]
  constructor
  · exact fun hcomplete => hcomplete _ _ _ _ hkey hkey' hscan hholding.scan
  · intro hunder key₁ key₂ docs docs' hkey₁ hkey₂ hdocs hdocs'
    rw [hkey] at hkey₁
    rw [hkey'] at hkey₂
    rw [hscan] at hdocs
    rw [hholding.scan] at hdocs'
    cases hkey₁
    cases hkey₂
    cases hdocs
    cases hdocs'
    exact hunder

/-! ## Calls that return -/

/-- Before the call every document of the collection opens under its key, and all of them are among
those the call will reach, unless the key it draws is the one it replaces. -/
def Reencryptable (env : RotationEnv σ) (collection : String) (key : EncryptionKey)
    (w : RotationWorld σ) (reached : Except String (List EncryptedDocumentRef)) : Prop :=
  ∀ docs, env.store.scanEncryptedCollection w.storage collection = .ok docs →
    AllOpen env key docs ∧ (reached = .ok docs ∨ env.rng.key w.drawn = key.key)

theorem reencryptable_iff {before reached : List EncryptedDocumentRef}
    (hscan : env.store.scanEncryptedCollection w.storage collection = .ok (before ++ reached)) :
    Reencryptable env collection key w (.ok reached) ↔
      AllOpen env key (before ++ reached) ∧ (before = [] ∨ env.rng.key w.drawn = key.key) := by
  have hreached : (Except.ok reached : Except String (List EncryptedDocumentRef)) =
      .ok (before ++ reached) ↔ before = [] := by
    rw [Except.ok.injEq, List.self_eq_append_left]
  constructor
  · intro h
    rw [← hreached]
    exact h _ hscan
  · intro h docs hdocs
    rw [hscan] at hdocs
    cases hdocs
    rw [hreached]
    exact h

-- Nothing is said about a collection that cannot be scanned.
theorem complete_iff_of_unscanned {e : String}
    (hscan : env.store.scanEncryptedCollection w.storage collection = .error e)
    (reached : Except String (List EncryptedDocumentRef)) :
    Complete env collection w w' ↔ Reencryptable env collection key w reached := by
  constructor
  · intro _ docs hdocs
    rw [hscan] at hdocs
    cases hdocs
  · intro _ key₁ key₂ docs docs' _ _ hdocs
    rw [hscan] at hdocs
    cases hdocs

theorem rotateKey_complete_iff (haead : env.aead.Lawful) (hstore : env.store.Lawful)
    (hkey : w.keyManager.keys[collectionKeyId collection]? = some key)
    (hok : (scheduler.rotateKey env now (collectionKeyId collection)).outcome cut w = .ok ⟨⟩) :
    Complete env collection w
        ((scheduler.rotateKey env now (collectionKeyId collection)).final cut w) ↔
      Reencryptable env collection key w
        (env.store.documentsUsing w.storage (collectionKeyId collection)) := by
  obtain ⟨hstart, reached, hdocs⟩ := rotateKey_ok hkey hok
  cases hscan : env.store.scanEncryptedCollection w.storage collection with
  | error e => exact complete_iff_of_unscanned hscan _
  | ok docs =>
    obtain ⟨before, rfl⟩ := documentsUsing_suffix hstore hscan hdocs
    have hspec := rotateKey_spec haead hstore scheduler now cut before [] hstart hkey hdocs
      (fun doc hdoc => hstore.scan_collection hscan doc (List.mem_append_right before hdoc))
      (by rw [List.append_nil]; exact hscan)
    obtain ⟨_, hthrough⟩ := hspec.of_ok ⟨rfl, rfl⟩ hok
    obtain ⟨reached', hall, hholding⟩ := hthrough.holding
    rw [List.append_nil] at hholding
    rw [complete_iff_of_holding haead hkey hscan hall hholding, hdocs, reencryptable_iff hscan]

theorem resumeRotation_complete_iff (haead : env.aead.Lawful) (hstore : env.store.Lawful)
    (hkey : w.keyManager.keys[collectionKeyId collection]? = some key)
    {startedAt : DateTime} {processed total : Nat} {checkpoint : Option (String × String)}
    (hload : w.loadRotationState scheduler.encryptionPath =
      .reEncrypting (collectionKeyId collection) startedAt processed total checkpoint)
    (hok : (scheduler.resumeRotation env now).outcome cut w = .ok ⟨⟩) :
    Complete env collection w ((scheduler.resumeRotation env now).final cut w) ↔
      Reencryptable env collection key w
        ((env.store.documentsUsing w.storage (collectionKeyId collection)).map
          (KeyRotationScheduler.remainingDocuments checkpoint)) := by
  have hstate := (RotationWorld.loadRotationState_eq_iff (by simp)).mp hload
  have hrun : ∀ cut, (scheduler.resumeRotation env now).run cut w =
      (scheduler.resumeFromCheckpoint env now (collectionKeyId collection) checkpoint processed
        total).run cut w :=
    resumeRotation_run_recorded hstate
  have hok' : (scheduler.resumeFromCheckpoint env now (collectionKeyId collection) checkpoint
      processed total).outcome cut w = .ok ⟨⟩ := by
    rw [← hok, Program.outcome, Program.outcome, hrun]
  obtain ⟨found, hdocs⟩ := resumeFromCheckpoint_ok hkey hok'
  cases hscan : env.store.scanEncryptedCollection w.storage collection with
  | error e => exact complete_iff_of_unscanned hscan _
  | ok docs =>
    have hsuffix : KeyRotationScheduler.remainingDocuments checkpoint found <:+ docs :=
      (remainingDocuments_suffix checkpoint found).trans
        (documentsUsing_suffix hstore hscan hdocs)
    obtain ⟨before, rfl⟩ := hsuffix
    have hspec := resumeFromCheckpoint_spec haead hstore scheduler now w cut processed total
      before [] ⟨_, _, _, _, hstate⟩ hkey hdocs rfl
      (fun doc hdoc => hstore.scan_collection hscan doc (List.mem_append_right before hdoc))
      (by rw [List.append_nil]; exact hscan)
    obtain ⟨_, reached', hall, hholding⟩ :=
      (hspec.of_run_eq (fun _ _ hw => hw.2) hrun).of_ok ⟨rfl, rfl⟩ hok
    rw [List.append_nil] at hholding
    rw [complete_iff_of_holding haead hkey hscan hall hholding, hdocs]
    exact (reencryptable_iff hscan).symm

-- A call that finds the rotation completed changes nothing.
theorem resumeRotation_completed_iff
    (hkey : w.keyManager.keys[collectionKeyId collection]? = some key)
    {keyId : String} {completedAt : DateTime} {count : Nat}
    (hload : w.loadRotationState scheduler.encryptionPath = .completed keyId completedAt count) :
    Complete env collection w ((scheduler.resumeRotation env now).final cut w) ↔
      ∀ docs, env.store.scanEncryptedCollection w.storage collection = .ok docs →
        AllOpen env key docs := by
  have hstate := (RotationWorld.loadRotationState_eq_iff (by simp)).mp hload
  rw [Program.final, resumeRotation_run_completed hstate]
  constructor
  · intro hcomplete docs hscan doc hdoc
    have hunder := hcomplete key key docs docs hkey hkey hscan hscan
    obtain ⟨-, plaintext, hopen, -⟩ := List.forall₂_same.mp hunder doc hdoc
    exact ⟨plaintext, hopen⟩
  · intro hopens key₁ key₂ docs docs' hkey₁ hkey₂ hdocs hdocs'
    rw [hkey] at hkey₁ hkey₂
    rw [hdocs] at hdocs'
    cases hkey₁
    cases hkey₂
    cases hdocs'
    rw [List.forall₂_same]
    intro doc hdoc
    obtain ⟨plaintext, hopen⟩ := hopens docs hdocs doc hdoc
    exact ⟨rfl, plaintext, hopen, hopen⟩

/-- Exactly when a rotation that is recorded as completed is complete: for a rotation that returned,
for a resumption that returned, and for a call that found the rotation completed. -/
theorem completed_complete_iff (haead : env.aead.Lawful) (hstore : env.store.Lawful)
    (hkey : w.keyManager.keys[collectionKeyId collection]? = some key)
    (scheduler : KeyRotationScheduler) (now : DateTime) (cut : Cut) :
    ((scheduler.rotateKey env now (collectionKeyId collection)).outcome cut w = .ok ⟨⟩ →
      (Complete env collection w
          ((scheduler.rotateKey env now (collectionKeyId collection)).final cut w) ↔
        Reencryptable env collection key w
          (env.store.documentsUsing w.storage (collectionKeyId collection)))) ∧
    (∀ startedAt processed total checkpoint, w.loadRotationState scheduler.encryptionPath =
        .reEncrypting (collectionKeyId collection) startedAt processed total checkpoint →
      (scheduler.resumeRotation env now).outcome cut w = .ok ⟨⟩ →
      (Complete env collection w ((scheduler.resumeRotation env now).final cut w) ↔
        Reencryptable env collection key w
          ((env.store.documentsUsing w.storage (collectionKeyId collection)).map
            (KeyRotationScheduler.remainingDocuments checkpoint)))) ∧
    (∀ keyId completedAt count,
      w.loadRotationState scheduler.encryptionPath = .completed keyId completedAt count →
      (Complete env collection w ((scheduler.resumeRotation env now).final cut w) ↔
        ∀ docs, env.store.scanEncryptedCollection w.storage collection = .ok docs →
          AllOpen env key docs)) := by
  refine ⟨rotateKey_complete_iff haead hstore hkey, ?_, ?_⟩
  · intro startedAt processed total checkpoint hload hok
    exact resumeRotation_complete_iff haead hstore hkey hload hok
  · intro keyId completedAt count hload
    exact resumeRotation_completed_iff hkey hload

theorem completed_complete_iff_users :
    Complete tableEnv "users" usersWorld
      ((usersScheduler.rotateKey tableEnv epoch (collectionKeyId "users")).final none
        usersWorld) := by
  refine ((completed_complete_iff prefixCipher_lawful DocumentTable.storage_reliable.toLawful
    usersKeys_users usersScheduler epoch none).1 (by decide +kernel)).mpr ?_
  intro docs hscan
  refine ⟨usersWorld_settled.opens_key usersKeys_users hscan, .inl ?_⟩
  cases hscan
  rfl

/-! ## The hybrid storage engine -/

theorem hybrid_complete_iff {env : RotationEnv PersistentLayer} {w : RotationWorld PersistentLayer}
    {json : DocumentJson} {clock : DateTime} (haead : env.aead.Lawful) (hjson : json.Lawful)
    (hstore : env.store = HybridStorageEngine.storage json clock)
    (hkey : w.keyManager.keys[collectionKeyId collection]? = some key)
    (hok : (scheduler.rotateKey env now (collectionKeyId collection)).outcome cut w = .ok ⟨⟩) :
    Complete env collection w
        ((scheduler.rotateKey env now (collectionKeyId collection)).final cut w) ↔
      ∀ docs, env.store.scanEncryptedCollection w.storage collection = .ok docs → docs = [] := by
  have hlawful : env.store.Lawful := by
    rw [hstore]
    exact HybridStorageEngine.storage_lawful hjson
  obtain ⟨-, reached, hreached⟩ := rotateKey_ok hkey hok
  rw [rotateKey_complete_iff haead hlawful hkey hok]
  constructor
  · intro h docs hscan
    apply List.eq_nil_iff_forall_not_mem.mpr
    intro doc hdoc
    obtain ⟨plaintext, hopen⟩ := (h docs hscan).1 doc hdoc
    rw [hstore] at hscan
    exact HybridStorageEngine.scan_not_opens hjson hscan hdoc _ _ hopen
  · intro hempty docs hscan
    have hnil := hempty docs hscan
    subst hnil
    refine ⟨fun _ hmem => absurd hmem List.not_mem_nil, .inl ?_⟩
    rw [hreached, List.suffix_nil.mp (documentsUsing_suffix hlawful hscan hreached)]

def hybridEnv : RotationEnv PersistentLayer :=
  ⟨prefixCipher, countingRng, HybridStorageEngine.storage nullDocuments epoch⟩

/-- One document of `users`, as the engine stores it. -/
def hybridWorld : RotationWorld PersistentLayer where
  keyManager := usersKeys
  keyFile := some ⟨usersKeys.keys, usersKeys.masterKeyHash⟩
  stateFiles := fun _ => none
  storage :=
    { documents := Std.ExtTreeMap.empty.insert (PersistentLayer.makeDocumentKey "users" ⟨0⟩)
        (nullJson ⟨0⟩ false)
      metadata := ∅ }
  drawn := 1

/-- A rotation of the engine's own storage: it returns and is recorded as completed, and the one
document was skipped. -/
theorem rotateKey_skips_document : hybridEnv.store.Lawful ∧
    (usersScheduler.rotateKey hybridEnv epoch (collectionKeyId "users")).outcome none hybridWorld =
      .ok ⟨⟩ ∧
    ((usersScheduler.rotateKey hybridEnv epoch (collectionKeyId "users")).final none
      hybridWorld).stateFiles "./encryption" =
        some (.completed (collectionKeyId "users") epoch 0) ∧
    ¬ Complete hybridEnv "users" hybridWorld
      ((usersScheduler.rotateKey hybridEnv epoch (collectionKeyId "users")).final none
        hybridWorld) := by
  have hok : (usersScheduler.rotateKey hybridEnv epoch (collectionKeyId "users")).outcome none
      hybridWorld = .ok ⟨⟩ := by
    decide +kernel
  refine ⟨HybridStorageEngine.storage_lawful nullDocuments_lawful, hok, by decide +kernel, ?_⟩
  rw [hybrid_complete_iff prefixCipher_lawful nullDocuments_lawful rfl usersKeys_users hok]
  intro hempty
  have hscan : hybridEnv.store.scanEncryptedCollection hybridWorld.storage "users" =
      .ok [⟨"users", ⟨0⟩, nullJson ⟨0⟩ false⟩] := by
    decide +kernel
  exact absurd (hempty _ hscan) (List.cons_ne_nil _ _)

end VedDb
