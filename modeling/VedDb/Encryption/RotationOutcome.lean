import VedDb.Encryption.Reencryption

/-!
# How a rotation can end

`rotate_key` and `resume_rotation` as whole calls, over every cut.  `RotateStop` and `ResumeStop`
say where such a call can stop and what it has persisted by then; a call that returns has
re-encrypted every document it could open.
-/

namespace VedDb

open Durable

variable {σ : Type} {env : RotationEnv σ} {now : DateTime} {collection keyId : String}

/-! ## The documents under a key -/

theorem isCollectionUsingKey_collectionKeyId (other : String) :
    isCollectionUsingKey other (collectionKeyId collection) = decide (other = collection) := by
  have hlist : (collectionKeyId collection).toList = "collection_".toList ++ collection.toList :=
    String.toList_append
  have hstarts : "collection_".toList.isPrefixOf (collectionKeyId collection).toList = true := by
    rw [List.isPrefixOf_iff_prefix, hlist]
    exact List.prefix_append _ _
  have hdrop : (collectionKeyId collection).toList.drop "collection_".length =
      collection.toList := by
    rw [hlist]
    exact List.drop_left' rfl
  unfold isCollectionUsingKey
  rw [if_pos hstarts, hdrop]
  congr 1
  exact propext String.toList_inj

-- Of a listing without repetitions, a collection's key picks that collection.
theorem scanCollections_collectionKeyId {store : EncryptedStorage σ} {s : σ}
    {collections : List String} (hnodup : collections.Nodup) :
    store.scanCollections s (collectionKeyId collection) collections =
      if collection ∈ collections then store.scanEncryptedCollection s collection else .ok [] := by
  induction collections with
  | nil => rfl
  | cons other others ih =>
    rw [List.nodup_cons] at hnodup
    have hrest := ih hnodup.2
    unfold EncryptedStorage.scanCollections
    rw [isCollectionUsingKey_collectionKeyId]
    by_cases heq : other = collection
    · subst heq
      rw [if_neg hnodup.1] at hrest
      rw [hrest, if_pos (decide_eq_true rfl), if_pos List.mem_cons_self]
      cases store.scanEncryptedCollection s other with
      | error e => rfl
      | ok docs => exact congrArg Except.ok (List.append_nil docs)
    · rw [if_neg (by simpa using heq), hrest]
      simp only [List.mem_cons, Ne.symm heq, false_or]

theorem documentsUsing_eq {store : EncryptedStorage σ} (hstore : store.Lawful) {s : σ}
    {collections : List String} (hlist : store.listEncryptedCollections s = .ok collections) :
    store.documentsUsing s (collectionKeyId collection) =
      if collection ∈ collections then store.scanEncryptedCollection s collection else .ok [] := by
  rw [← scanCollections_collectionKeyId (hstore.list_nodup hlist)]
  unfold EncryptedStorage.documentsUsing
  rw [hlist]
  rfl

-- A reliable storage yields all documents of a collection under its key.
theorem documentsUsing_of_reliable {store : EncryptedStorage σ} (hstore : store.Reliable) {s : σ}
    {docs : List EncryptedDocumentRef}
    (hscan : store.scanEncryptedCollection s collection = .ok docs) :
    store.documentsUsing s (collectionKeyId collection) = .ok docs := by
  obtain ⟨collections, hlist, hcomplete⟩ := hstore.list_ok s
  rw [documentsUsing_eq hstore.toLawful hlist]
  by_cases hmem : collection ∈ collections
  · rw [if_pos hmem, hscan]
  · rw [if_neg hmem]
    by_cases hempty : docs = []
    · rw [hempty]
    · exact absurd (hcomplete collection docs hscan hempty) hmem

-- What a rotation finds of a collection is all of it, or nothing when it is not listed.
theorem documentsUsing_suffix {store : EncryptedStorage σ} (hstore : store.Lawful) {s : σ}
    {docs reached : List EncryptedDocumentRef}
    (hscan : store.scanEncryptedCollection s collection = .ok docs)
    (hdocs : store.documentsUsing s (collectionKeyId collection) = .ok reached) :
    reached <:+ docs := by
  cases hlist : store.listEncryptedCollections s with
  | error e =>
    rw [EncryptedStorage.documentsUsing, hlist] at hdocs
    cases hdocs
  | ok collections =>
    rw [documentsUsing_eq hstore hlist] at hdocs
    by_cases hmem : collection ∈ collections
    · rw [if_pos hmem, hscan] at hdocs
      cases hdocs
      exact List.suffix_refl docs
    · rw [if_neg hmem] at hdocs
      cases hdocs
      exact List.nil_suffix

theorem remainingDocuments_suffix (checkpoint : Option (String × String))
    (docs : List EncryptedDocumentRef) :
    KeyRotationScheduler.remainingDocuments checkpoint docs <:+ docs := by
  cases checkpoint with
  | none => exact List.suffix_refl docs
  | some position => exact List.dropWhile_suffix _

/-! ## Replacing the key -/

def RotationWorld.withNewKey (w : RotationWorld σ) (keyId : String) (key : EncryptionKey) :
    RotationWorld σ :=
  { w with
    keyManager := { w.keyManager with keys := w.keyManager.keys.insert keyId key }
    drawn := w.drawn + 1 }

/-- The keys in memory written to the key file. -/
def RotationWorld.withSavedKeys (w : RotationWorld σ) : RotationWorld σ :=
  { w with keyFile := some ⟨w.keyManager.keys, w.keyManager.masterKeyHash⟩ }

/-- The state a rotation re-encrypts from: the replaced key is in memory and in the key file. -/
def RotationWorld.rekeyed (w : RotationWorld σ) (rng : Rng) (now : DateTime) (keyId : String)
    (key : EncryptionKey) : RotationWorld σ :=
  (w.withNewKey keyId (KeyManager.rotated now key (rng.key w.drawn))).withSavedKeys

theorem rotationContext_spec {w₁ : RotationWorld σ} {key : EncryptionKey} {cut₀ : Cut}
    (hkey : w₁.keyManager.keys[keyId]? = some key) :
    Program.Spec (fun cut w => cut₀ = cut ∧ w = w₁) (rotationContext env now keyId)
      (fun context cut w => key.active = true ∧
        context = ⟨key.key, env.rng.key w₁.drawn⟩ ∧ cut₀ = cut.plus 1 ∧
        w = w₁.rekeyed env.rng now keyId key)
      (fun _ w =>
        (¬ cut₀.Allows 1 ∧
          w = w₁.withNewKey keyId (KeyManager.rotated now key (env.rng.key w₁.drawn))) ∨
        (cut₀.Allows 1 ∧ key.active = false ∧ w = w₁.rekeyed env.rng now keyId key)) := by
  have hnew : (w₁.rekeyed env.rng now keyId key).keyManager.keys[keyId]? =
      some (KeyManager.rotated now key (env.rng.key w₁.drawn)) :=
    Std.ExtTreeMap.getElem?_insert_self
  unfold rotationContext KeyManager.rotateKeyWithBackup
  simp only [bind_assoc]
  apply Program.Spec.read_bind_of (fun _ _ h => h.2)
  rw [hkey]
  dsimp only
  simp only [bind_assoc, pure_bind]
  -- the key is replaced in memory, and then the key file is written
  apply Program.Spec.bind (Q := fun _ cut w => cut₀ = cut ∧
    w = w₁.withNewKey keyId (KeyManager.rotated now key (env.rng.key w₁.drawn)))
  · apply Program.Spec.modify
    rintro cut w ⟨hcut, rfl⟩
    exact ⟨hcut, rfl⟩
  intro _
  apply Program.Spec.bind (Q := fun _ cut w => cut₀ = cut.plus 1 ∧
    w = w₁.rekeyed env.rng now keyId key)
  · apply Program.Spec.effect
    · rintro cut w ⟨hcut, rfl⟩
      exact ⟨hcut, rfl⟩
    · rintro cut w ⟨rfl, hw⟩ hallows
      exact .inl ⟨hallows, hw⟩
  intro _
  apply Program.Spec.read_bind_of (fun _ _ h => h.2)
  rw [KeyManager.getKey_eq hnew]
  cases hactive : key.active with
  | true =>
    rw [show (KeyManager.rotated now key (env.rng.key w₁.drawn)).active = true from hactive]
    apply Program.Spec.pure
    rintro cut w ⟨hcut, rfl⟩
    exact ⟨rfl, rfl, hcut, rfl⟩
  | false =>
    rw [show (KeyManager.rotated now key (env.rng.key w₁.drawn)).active = false from hactive]
    apply Program.Spec.fail
    rintro cut w ⟨rfl, rfl⟩
    exact .inr ⟨Cut.allows_plus, rfl, rfl⟩

/-! ## `rotate_key` -/

def savedState (w : RotationWorld σ) (dir : String) (state : KeyRotationState)
    (stateFiles : String → Option KeyRotationState) : Prop :=
  stateFiles = Function.update w.stateFiles dir (some state)

/-- All documents have been through the loop, under the given state files. -/
structure Through (env : RotationEnv σ) (scheduler : KeyRotationScheduler) (now : DateTime)
    (keyId collection : String) (key : EncryptionKey) (w₁ : RotationWorld σ) (cut₀ : Cut)
    (files : (String → Option KeyRotationState) → Prop)
    (before docs after : List EncryptedDocumentRef) (w : RotationWorld σ) : Prop where
  active : key.active = true
  batchSize_ne : scheduler.batchSize ≠ 0
  allows : cut₀.Allows (2 + docs.countP (opensUnder env.aead key.key))
  holding : ∃ docs',
    List.Forall₂ (Processed env.aead ⟨key.key, env.rng.key w₁.drawn⟩) docs docs' ∧
    Holding env collection (w₁.rekeyed env.rng now keyId key) files (before ++ (docs' ++ after)) w

/-- Where `rotate_key` can stop once it has passed its state check and found its key, and what it
has persisted by then.  `before` and `after` are documents of the collection that it does not
see. -/
inductive RotateStop (env : RotationEnv σ) (scheduler : KeyRotationScheduler) (now : DateTime)
    (keyId collection : String) (key : EncryptionKey) (w₁ : RotationWorld σ) (cut₀ : Cut)
    (before docs after : List EncryptedDocumentRef) : RotationWorld σ → Prop
  /-- The key file could not be written: the new key is in memory only. -/
  | keyUnsaved : ¬ cut₀.Allows 1 →
      RotateStop env scheduler now keyId collection key w₁ cut₀ before docs after
        (w₁.withNewKey keyId (KeyManager.rotated now key (env.rng.key w₁.drawn)))
  /-- The key is replaced, and no state says so. -/
  | unrecorded : cut₀.Allows 1 → (key.active = true → ¬ cut₀.Allows 2) →
      RotateStop env scheduler now keyId collection key w₁ cut₀ before docs after
        (w₁.rekeyed env.rng now keyId key)
  /-- The loop did not start. -/
  | noBatches {w : RotationWorld σ} : cut₀.Allows 2 → scheduler.batchSize = 0 →
      Holding env collection (w₁.rekeyed env.rng now keyId key)
        (savedState w₁ scheduler.encryptionPath (.reEncrypting keyId now 0 docs.length none))
        (before ++ (docs ++ after)) w →
      RotateStop env scheduler now keyId collection key w₁ cut₀ before docs after w
  /-- The loop stopped at a document. -/
  | underway {w : RotationWorld σ} : cut₀.Allows 2 →
      Stopped env ⟨key.key, env.rng.key w₁.drawn⟩ collection (w₁.rekeyed env.rng now keyId key)
        (savedState w₁ scheduler.encryptionPath (.reEncrypting keyId now 0 docs.length none))
        before docs after w →
      (env.store.Reliable → (∀ doc ∈ docs, opensUnder env.aead key.key doc = true) →
        ¬ cut₀.Allows (2 + docs.length)) →
      RotateStop env scheduler now keyId collection key w₁ cut₀ before docs after w
  /-- All documents are through, and the state was not saved. -/
  | unfinished {w : RotationWorld σ} : Through env scheduler now keyId collection key w₁ cut₀
        (savedState w₁ scheduler.encryptionPath (.reEncrypting keyId now 0 docs.length none))
        before docs after w →
      RotateStop env scheduler now keyId collection key w₁ cut₀ before docs after w

theorem rotateKey_spec (haead : env.aead.Lawful) (hstore : env.store.Lawful)
    (scheduler : KeyRotationScheduler) (now : DateTime) {key : EncryptionKey}
    {w₁ : RotationWorld σ} (cut₀ : Cut) (before : List EncryptedDocumentRef)
    {docs : List EncryptedDocumentRef} (after : List EncryptedDocumentRef)
    (hstart : (w₁.loadRotationState scheduler.encryptionPath).canStartRotation = true)
    (hkey : w₁.keyManager.keys[keyId]? = some key)
    (hdocs : env.store.documentsUsing w₁.storage keyId = .ok docs)
    (hcollection : ∀ doc ∈ docs, doc.collection = collection)
    (hscan : env.store.scanEncryptedCollection w₁.storage collection =
      .ok (before ++ (docs ++ after))) :
    Program.Spec (fun cut w => cut₀ = cut ∧ w = w₁) (scheduler.rotateKey env now keyId)
      (fun _ _ w => Through env scheduler now keyId collection key w₁ cut₀
        (fun files => files scheduler.encryptionPath =
          some (.completed keyId now (docs.countP (opensUnder env.aead key.key))))
        before docs after w)
      (fun _ w =>
        RotateStop env scheduler now keyId collection key w₁ cut₀ before docs after w) := by
  unfold KeyRotationScheduler.rotateKey
  apply Program.Spec.read_bind_of (fun _ _ h => h.2)
  dsimp only
  rw [if_pos hstart]
  apply Program.Spec.bind
  · refine (rotationContext_spec hkey).imp (fun _ _ _ h => h) ?_
    rintro cut w (⟨hcut, rfl⟩ | ⟨hcut, hactive, rfl⟩)
    · exact .keyUnsaved hcut
    · exact .unrecorded hcut fun h => by rw [hactive] at h; cases h
  intro context
  apply Program.Spec.of_and
  intro hactive
  apply Program.Spec.of_and
  rintro rfl
  unfold scanDocuments
  simp only [bind_assoc]
  apply Program.Spec.read_bind_of (fun _ _ h => h.2)
  rw [show (w₁.rekeyed env.rng now keyId key).storage = w₁.storage from rfl, hdocs]
  dsimp only
  rw [pure_bind]
  -- the state `ReEncrypting` is recorded, with the storage still as it was
  apply Program.Spec.bind (Q := fun _ cut w => cut₀ = cut.plus 2 ∧
    Holding env collection (w₁.rekeyed env.rng now keyId key)
      (savedState w₁ scheduler.encryptionPath (.reEncrypting keyId now 0 docs.length none))
      (before ++ (docs ++ after)) w)
  · apply Program.Spec.effect
    · rintro cut w ⟨hcut, rfl⟩
      rw [Cut.plus_plus] at hcut
      exact ⟨hcut, rfl, rfl, rfl, hscan, fun _ _ => rfl⟩
    · rintro cut w ⟨rfl, rfl⟩ hallows
      exact .unrecorded Cut.allows_plus fun _ hallows' =>
        hallows (Cut.allows_plus_add.mp hallows')
  intro _
  apply Program.Spec.of_pre (p := cut₀.Allows 2)
  · rintro cut w ⟨rfl, -⟩
    exact Cut.allows_plus
  intro htwo
  by_cases hbatch : scheduler.batchSize = 0
  · rw [if_pos hbatch]
    apply Program.Spec.panic
    rintro cut w ⟨-, h⟩
    exact .noBatches htwo hbatch h
  · rw [if_neg hbatch, reencryptChunks_eq, chunks_flatten hbatch]
    simp only [bind_assoc, pure_bind, Nat.zero_add]
    apply Program.Spec.bind
    · refine (reencryptBatch_spec haead hstore (env.rng.key_length w₁.drawn) hcollection 2
        before).imp (fun _ _ _ h => h) ?_
      rintro cut w ⟨hstopped, hcut⟩
      exact .underway htwo hstopped hcut
    intro count
    apply Program.Spec.effect
    · rintro cut w ⟨docs', hall, rfl, rfl, h⟩
      exact ⟨hactive, hbatch, Cut.allows_plus, docs', hall, h.keyManager, h.keyFile,
        Function.update_self .., h.scan, h.scan_other⟩
    · rintro cut w ⟨docs', hall, rfl, rfl, h⟩ -
      exact .unfinished ⟨hactive, hbatch, Cut.allows_plus, docs', hall, h⟩

-- A rotation that may not start leaves everything as it was.
theorem rotateKey_refused {scheduler : KeyRotationScheduler} {w : RotationWorld σ}
    (hstart : (w.loadRotationState scheduler.encryptionPath).canStartRotation = false) (cut : Cut) :
    (scheduler.rotateKey env now keyId).run cut w =
      (.error (.cannotStartRotation (w.loadRotationState scheduler.encryptionPath)), cut, w) := by
  unfold KeyRotationScheduler.rotateKey
  rw [Program.run_bind, Program.run_read]
  dsimp only [id]
  rw [hstart]
  rfl

-- Scanning changes nothing, and fails where the storage does.
theorem scanDocuments_run {w : RotationWorld σ} (cut : Cut) :
    (scanDocuments env keyId).run cut w =
      match env.store.documentsUsing w.storage keyId with
      | .error e => (.error (.storage e), cut, w)
      | .ok docs => (.ok docs, cut, w) := by
  unfold scanDocuments
  rw [Program.run_bind, Program.run_read]
  dsimp only [id]
  cases env.store.documentsUsing w.storage keyId with
  | error e => rfl
  | ok docs => rfl

-- What comes after a scan that fails does not run.
theorem scanDocuments_bind_unscanned {w₁ : RotationWorld σ} {e : String}
    (hdocs : env.store.documentsUsing w₁.storage keyId = .error e)
    {P : Cut → RotationWorld σ → Prop} (hP : ∀ cut w, P cut w → w.storage = w₁.storage)
    (f : List EncryptedDocumentRef → EncryptionM σ Unit) :
    Program.Spec P (scanDocuments env keyId >>= f) (fun _ _ _ => False) (fun _ _ => True) := by
  intro cut w hw
  rw [Program.run_bind, scanDocuments_run, hP cut w hw, hdocs]
  trivial

-- A rotation that returns was allowed to start and could scan its documents.
theorem rotateKey_ok {scheduler : KeyRotationScheduler} {w : RotationWorld σ} {key : EncryptionKey}
    {cut : Cut} (hkey : w.keyManager.keys[keyId]? = some key)
    (hok : (scheduler.rotateKey env now keyId).outcome cut w = .ok ⟨⟩) :
    (w.loadRotationState scheduler.encryptionPath).canStartRotation = true ∧
      ∃ docs, env.store.documentsUsing w.storage keyId = .ok docs := by
  cases hstart : (w.loadRotationState scheduler.encryptionPath).canStartRotation with
  | false =>
    rw [Program.outcome, rotateKey_refused hstart] at hok
    cases hok
  | true =>
    refine ⟨rfl, ?_⟩
    cases hdocs : env.store.documentsUsing w.storage keyId with
    | ok docs => exact ⟨docs, rfl⟩
    | error e =>
      have hspec : Program.Spec (fun cut₁ w₁ => cut = cut₁ ∧ w₁ = w)
          (scheduler.rotateKey env now keyId) (fun _ _ _ => False) (fun _ _ => True) := by
        unfold KeyRotationScheduler.rotateKey
        apply Program.Spec.read_bind_of (fun _ _ h => h.2)
        dsimp only
        rw [if_pos hstart]
        apply Program.Spec.bind
        · exact (rotationContext_spec hkey).imp (fun _ _ _ h => h) (fun _ _ _ => trivial)
        · intro context
          apply scanDocuments_bind_unscanned hdocs
          rintro cut₁ w₁ ⟨-, -, -, rfl⟩
          rfl
      obtain ⟨_, hfalse⟩ := hspec.of_ok ⟨rfl, rfl⟩ hok
      exact hfalse.elim

/-! ## `resume_rotation` -/

/-- Where a resumption that found its key can stop, and what it has persisted by then. -/
inductive ResumeStop (env : RotationEnv σ) (scheduler : KeyRotationScheduler) (now : DateTime)
    (keyId collection : String) (key : EncryptionKey) (w₁ : RotationWorld σ) (cut₀ : Cut)
    (before docs after : List EncryptedDocumentRef) : RotationWorld σ → Prop
  | keyUnsaved : ¬ cut₀.Allows 1 →
      ResumeStop env scheduler now keyId collection key w₁ cut₀ before docs after
        (w₁.withNewKey keyId (KeyManager.rotated now key (env.rng.key w₁.drawn)))
  | keyInactive : key.active = false →
      ResumeStop env scheduler now keyId collection key w₁ cut₀ before docs after
        (w₁.rekeyed env.rng now keyId key)
  | noBatches : scheduler.batchSize = 0 →
      ResumeStop env scheduler now keyId collection key w₁ cut₀ before docs after
        (w₁.rekeyed env.rng now keyId key)
  /-- The loop, or the last state after it, was cut off. -/
  | underway {w : RotationWorld σ} {docs' : List EncryptedDocumentRef} :
      List.Forall₂ (Touched env.aead ⟨key.key, env.rng.key w₁.drawn⟩) docs docs' →
      Holding env collection (w₁.rekeyed env.rng now keyId key)
        (recordedIn scheduler.encryptionPath keyId) (before ++ (docs' ++ after)) w →
      (env.store.Reliable → (∀ doc ∈ docs, opensUnder env.aead key.key doc = true) →
        cut₀ ≠ none) →
      ResumeStop env scheduler now keyId collection key w₁ cut₀ before docs after w

theorem resumeFromCheckpoint_spec (haead : env.aead.Lawful) (hstore : env.store.Lawful)
    (scheduler : KeyRotationScheduler) (now : DateTime) {key : EncryptionKey}
    (w₁ : RotationWorld σ) (cut₀ : Cut) {checkpoint : Option (String × String)}
    (alreadyProcessed total : Nat) (before : List EncryptedDocumentRef)
    {docs remaining : List EncryptedDocumentRef} (after : List EncryptedDocumentRef)
    (hrecorded : recordedIn scheduler.encryptionPath keyId w₁.stateFiles)
    (hkey : w₁.keyManager.keys[keyId]? = some key)
    (hdocs : env.store.documentsUsing w₁.storage keyId = .ok docs)
    (hremaining : KeyRotationScheduler.remainingDocuments checkpoint docs = remaining)
    (hcollection : ∀ doc ∈ remaining, doc.collection = collection)
    (hscan : env.store.scanEncryptedCollection w₁.storage collection =
      .ok (before ++ (remaining ++ after))) :
    Program.Spec (fun cut w => cut₀ = cut ∧ w = w₁)
      (scheduler.resumeFromCheckpoint env now keyId checkpoint alreadyProcessed total)
      (fun _ _ w => ∃ remaining',
        List.Forall₂ (Processed env.aead ⟨key.key, env.rng.key w₁.drawn⟩) remaining remaining' ∧
        Holding env collection (w₁.rekeyed env.rng now keyId key)
          (fun files => files scheduler.encryptionPath = some (.completed keyId now
            (alreadyProcessed + remaining.countP (opensUnder env.aead key.key))))
          (before ++ (remaining' ++ after)) w)
      (fun _ w => ResumeStop env scheduler now keyId collection key w₁ cut₀ before remaining after
        w) := by
  unfold KeyRotationScheduler.resumeFromCheckpoint
  apply Program.Spec.bind
  · refine (rotationContext_spec hkey).imp (fun _ _ _ h => h) ?_
    rintro cut w (⟨hcut, rfl⟩ | ⟨-, hactive, rfl⟩)
    · exact .keyUnsaved hcut
    · exact .keyInactive hactive
  intro context
  apply Program.Spec.of_and
  intro hactive
  apply Program.Spec.of_and
  rintro rfl
  unfold scanDocuments
  simp only [bind_assoc]
  apply Program.Spec.read_bind_of (fun _ _ h => h.2)
  rw [show (w₁.rekeyed env.rng now keyId key).storage = w₁.storage from rfl, hdocs]
  dsimp only
  rw [pure_bind, hremaining]
  by_cases hbatch : scheduler.batchSize = 0
  · rw [if_pos hbatch]
    apply Program.Spec.panic
    rintro cut w ⟨-, rfl⟩
    exact .noBatches hbatch
  · rw [if_neg hbatch]
    have hflatten := chunks_flatten hbatch remaining
    generalize chunks scheduler.batchSize remaining = batches at hflatten
    subst hflatten
    apply Program.Spec.bind (Q := fun count cut w => ∃ used, cut₀ = cut.plus used ∧
      count = alreadyProcessed + batches.flatten.countP (opensUnder env.aead key.key) ∧
      ∃ remaining', List.Forall₂ (Processed env.aead ⟨key.key, env.rng.key w₁.drawn⟩)
          batches.flatten remaining' ∧
        Holding env collection (w₁.rekeyed env.rng now keyId key)
          (recordedIn scheduler.encryptionPath keyId) (before ++ (remaining' ++ after)) w)
    · refine (resumeChunks_spec haead hstore (env.rng.key_length w₁.drawn) hcollection
        alreadyProcessed before).weaken ?_ (fun _ _ _ h => h) ?_
      · rintro cut w ⟨hcut, rfl⟩
        exact ⟨1, hcut, rfl, rfl, hrecorded, hscan, fun _ _ => rfl⟩
      · rintro cut w ⟨⟨remaining', hall, h⟩, hcut⟩
        exact .underway hall h hcut
    intro count
    apply Program.Spec.effect
    · rintro cut w ⟨used, -, rfl, remaining', hall, h⟩
      exact ⟨remaining', hall, h.keyManager, h.keyFile, Function.update_self .., h.scan,
        h.scan_other⟩
    · rintro cut w ⟨used, rfl, -, remaining', hall, h⟩ hallows
      exact .underway (touched_of_processed hall) h fun _ _ hnone =>
        hallows (Cut.allows_of_plus_eq_none hnone 1)

-- A resumption that cannot write the key file has persisted nothing.
theorem resumeFromCheckpoint_unsaved (env : RotationEnv σ) (scheduler : KeyRotationScheduler)
    (now : DateTime) {key : EncryptionKey} {w₁ : RotationWorld σ} {cut₀ : Cut}
    (checkpoint : Option (String × String)) (alreadyProcessed total : Nat)
    (hkey : w₁.keyManager.keys[keyId]? = some key) (hcut : ¬ cut₀.Allows 1) :
    Program.Spec (fun cut w => cut₀ = cut ∧ w = w₁)
      (scheduler.resumeFromCheckpoint env now keyId checkpoint alreadyProcessed total)
      (fun _ _ _ => False)
      (fun _ w => w = w₁.withNewKey keyId (KeyManager.rotated now key (env.rng.key w₁.drawn))) := by
  unfold KeyRotationScheduler.resumeFromCheckpoint
  apply Program.Spec.bind (Q := fun _ _ _ => False)
  · refine (rotationContext_spec hkey).imp ?_ ?_
    · rintro context cut w ⟨-, -, rfl, -⟩
      exact hcut Cut.allows_plus
    · rintro cut w (⟨-, hw⟩ | ⟨hallows, -⟩)
      · exact hw
      · exact absurd hallows hcut
  · exact fun _ _ _ hfalse => hfalse.elim

theorem resumeRotation_run_recorded {scheduler : KeyRotationScheduler} {w : RotationWorld σ}
    {startedAt : DateTime} {processed total : Nat} {checkpoint : Option (String × String)}
    (h : w.stateFiles scheduler.encryptionPath =
      some (.reEncrypting keyId startedAt processed total checkpoint)) (cut : Cut) :
    (scheduler.resumeRotation env now).run cut w =
      (scheduler.resumeFromCheckpoint env now keyId checkpoint processed total).run cut w := by
  unfold KeyRotationScheduler.resumeRotation RotationWorld.loadRotationState
  rw [Program.run_bind, Program.run_read]
  dsimp only [id]
  rw [h]
  rfl

theorem resumeRotation_run_completed {scheduler : KeyRotationScheduler} {w : RotationWorld σ}
    {completedAt : DateTime} {count : Nat}
    (h : w.stateFiles scheduler.encryptionPath = some (.completed keyId completedAt count))
    (cut : Cut) : (scheduler.resumeRotation env now).run cut w = (.ok ⟨⟩, cut, w) := by
  unfold KeyRotationScheduler.resumeRotation RotationWorld.loadRotationState
  rw [Program.run_bind, Program.run_read]
  dsimp only [id]
  rw [h]
  rfl

-- Without a rotation underway a resumption changes nothing.
theorem resumeRotation_final_unrecorded {scheduler : KeyRotationScheduler} {w : RotationWorld σ}
    (h : ∀ keyId startedAt processed total checkpoint,
      w.loadRotationState scheduler.encryptionPath ≠
        .reEncrypting keyId startedAt processed total checkpoint) (cut : Cut) :
    (scheduler.resumeRotation env now).final cut w = w := by
  unfold KeyRotationScheduler.resumeRotation
  rw [Program.final, Program.run_bind, Program.run_read]
  dsimp only [id]
  cases hload : w.loadRotationState scheduler.encryptionPath with
  | idle => rfl
  | completed keyId completedAt count => rfl
  | failed keyId reason failedAt => rfl
  | reEncrypting keyId startedAt processed total checkpoint =>
    exact absurd hload (h keyId startedAt processed total checkpoint)

-- A resumption that returns could scan its documents.
theorem resumeFromCheckpoint_ok {scheduler : KeyRotationScheduler} {w : RotationWorld σ}
    {key : EncryptionKey} {cut : Cut} {checkpoint : Option (String × String)}
    {alreadyProcessed total : Nat} (hkey : w.keyManager.keys[keyId]? = some key)
    (hok : (scheduler.resumeFromCheckpoint env now keyId checkpoint alreadyProcessed
      total).outcome cut w = .ok ⟨⟩) :
    ∃ docs, env.store.documentsUsing w.storage keyId = .ok docs := by
  cases hdocs : env.store.documentsUsing w.storage keyId with
  | ok docs => exact ⟨docs, rfl⟩
  | error e =>
    have hspec : Program.Spec (fun cut₁ w₁ => cut = cut₁ ∧ w₁ = w)
        (scheduler.resumeFromCheckpoint env now keyId checkpoint alreadyProcessed total)
        (fun _ _ _ => False) (fun _ _ => True) := by
      unfold KeyRotationScheduler.resumeFromCheckpoint
      apply Program.Spec.bind
      · exact (rotationContext_spec hkey).imp (fun _ _ _ h => h) (fun _ _ _ => trivial)
      · intro context
        apply scanDocuments_bind_unscanned hdocs
        rintro cut₁ w₁ ⟨-, -, -, rfl⟩
        rfl
    obtain ⟨_, hfalse⟩ := hspec.of_ok ⟨rfl, rfl⟩ hok
    exact hfalse.elim

end VedDb
