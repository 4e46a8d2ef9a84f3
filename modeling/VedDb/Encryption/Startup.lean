import VedDb.Encryption.Engine
import VedDb.Encryption.RotationOutcome

/-!
# Incomplete rotations at startup

`EncryptionEngine::new` refuses to start on a rotation that is recorded as incomplete.  It reads the
record in `storage_path`; the scheduler writes it to `./encryption`, and only after the key is
replaced.  Where the two directories are one, and every rotation gets as far as its record, no
incomplete rotation is overlooked.
-/

namespace VedDb

open LittleEndian (Bytes)
open Durable

variable {σ : Type} {env : RotationEnv σ} {hash : Option String} {keyId path : String}

/-! ## What the calls do to the files -/

/-- The key file can be loaded on the master key with the given hash. -/
def KeysSound (hash : Option String) (w : RotationWorld σ) : Prop :=
  w.keyManager.masterKeyHash = hash ∧
    ∀ file, w.keyFile = some file → KeyManager.hashMismatch file.masterKeyHash hash = false

theorem KeysSound.withNewKey {w : RotationWorld σ} (h : KeysSound hash w) (keyId : String)
    (key : EncryptionKey) : KeysSound hash (w.withNewKey keyId key) :=
  ⟨h.1, h.2⟩

theorem KeysSound.withSavedKeys {w : RotationWorld σ} (h : KeysSound hash w) :
    KeysSound hash w.withSavedKeys := by
  refine ⟨h.1, ?_⟩
  intro file hfile
  cases hfile
  show KeyManager.hashMismatch w.keyManager.masterKeyHash hash = false
  rw [h.1]
  exact KeyManager.hashMismatch_self hash

theorem KeysSound.rekeyed {w : RotationWorld σ} (h : KeysSound hash w) (rng : Rng) (now : DateTime)
    (keyId : String) (key : EncryptionKey) : KeysSound hash (w.rekeyed rng now keyId key) :=
  (h.withNewKey keyId _).withSavedKeys

/-- A property of the keys and the state files, which the storage does not matter to. -/
def OfFiles (P : RotationWorld σ → Prop) : Prop :=
  ∀ w w' : RotationWorld σ, w'.keyManager = w.keyManager → w'.keyFile = w.keyFile →
    w'.stateFiles = w.stateFiles → P w → P w'

-- Re-encryption writes to the storage only.
theorem reencryptBatch_files {P : RotationWorld σ → Prop} (hP : OfFiles P)
    (context : ReEncryptionContext) (docs : List EncryptedDocumentRef) :
    Program.Spec (fun _ w => P w) (reencryptBatch env context docs) (fun _ _ w => P w)
      (fun _ w => P w) := by
  -- by induction over the documents: a turn draws a nonce and updates one document, no more
  induction docs with
  | nil => exact Program.Spec.pure fun _ _ h => h
  | cons doc docs ih =>
    unfold reencryptBatch
    apply Program.Spec.bind (Q := fun _ _ w => P w)
    · unfold reencryptDocument
      cases DocumentEncryption.decrypt env.aead doc.encryptedData context.oldKey with
      | error e => exact Program.Spec.pure fun _ _ h => h
      | ok plaintext =>
        apply Program.Spec.bind (Q := fun _ _ w => P w)
        · apply Program.Spec.read_bind_any
          intro w₁
          apply Program.Spec.bind (Q := fun _ _ w => P w)
          · exact Program.Spec.modify fun _ w h => hP w _ rfl rfl rfl h
          intro _
          cases DocumentEncryption.encrypt env.aead (env.rng.nonce w₁.drawn) plaintext
              context.newKey with
          | error e => exact Program.Spec.fail fun _ _ h => h
          | ok data => exact Program.Spec.pure fun _ _ h => h
        intro data
        apply Program.Spec.bind (Q := fun _ _ w => P w)
        · apply Program.Spec.read_bind_any
          intro w₁
          cases env.store.updateEncryptedDocument w₁.storage doc.collection doc.docId data with
          | error e => exact Program.Spec.fail fun _ _ h => h
          | ok storage =>
            exact Program.Spec.effect (fun _ w h => hP w _ rfl rfl rfl h)
              (fun _ _ h _ => h)
        · exact fun _ => Program.Spec.pure fun _ _ h => h
    intro done
    apply Program.Spec.bind ih
    exact fun _ => Program.Spec.pure fun _ _ h => h

/-- The rotation is recorded in the directory, and the keys can be loaded. -/
def Underway (hash : Option String) (path keyId : String) (w : RotationWorld σ) : Prop :=
  KeysSound hash w ∧ recordedIn path keyId w.stateFiles

theorem underway_ofFiles : OfFiles (Underway (σ := σ) hash path keyId) := by
  rintro w w' hkeys hfile hstate ⟨⟨hhash, hsound⟩, hrecorded⟩
  refine ⟨⟨by rw [hkeys]; exact hhash, by rw [hfile]; exact hsound⟩,
    by rw [hstate]; exact hrecorded⟩

/-- The rotation is recorded as completed, and the keys can be loaded. -/
def Finished (hash : Option String) (path keyId : String) (w : RotationWorld σ) : Prop :=
  KeysSound hash w ∧ ∃ completedAt count,
    w.stateFiles path = some (.completed keyId completedAt count)

-- A rotation that gets as far as its record is recorded until it is completed.
theorem rotateKey_underway (env : RotationEnv σ) {scheduler : KeyRotationScheduler} (now : DateTime)
    {w₁ : RotationWorld σ} {key : EncryptionKey} {cut₀ : Cut} (hsound : KeysSound hash w₁)
    (hstart : (w₁.loadRotationState scheduler.encryptionPath).canStartRotation = true)
    (hkey : w₁.keyManager.keys[keyId]? = some key) (hactive : key.active = true)
    {docs : List EncryptedDocumentRef}
    (hdocs : env.store.documentsUsing w₁.storage keyId = .ok docs) (hcut : cut₀.Allows 2) :
    Program.Spec (fun cut w => cut₀ = cut ∧ w = w₁) (scheduler.rotateKey env now keyId)
      (fun _ _ w => Finished hash scheduler.encryptionPath keyId w)
      (fun _ w => Underway hash scheduler.encryptionPath keyId w) := by
  unfold KeyRotationScheduler.rotateKey
  apply Program.Spec.read_bind_of (fun _ _ h => h.2)
  dsimp only
  rw [if_pos hstart]
  apply Program.Spec.bind
  · -- neither the key file nor the key stops the rotation
    refine (rotationContext_spec hkey).imp (fun _ _ _ h => h) ?_
    rintro cut w (⟨hone, -⟩ | ⟨-, hinactive, -⟩)
    · exact absurd (hcut.mono (by decide)) hone
    · rw [hactive] at hinactive
      cases hinactive
  intro context
  unfold scanDocuments
  simp only [bind_assoc]
  apply Program.Spec.read_bind_of (a := w₁.rekeyed env.rng now keyId key) (fun _ _ h => h.2.2.2)
  rw [show (w₁.rekeyed env.rng now keyId key).storage = w₁.storage from rfl, hdocs]
  dsimp only
  rw [pure_bind]
  apply Program.Spec.bind (Q := fun _ _ w => Underway hash scheduler.encryptionPath keyId w)
  · apply Program.Spec.effect
    · rintro cut w ⟨-, -, -, rfl⟩
      exact ⟨hsound.rekeyed env.rng now keyId key, _, _, _, _, Function.update_self ..⟩
    · rintro cut w ⟨-, -, rfl, -⟩ hallows
      exact absurd (Cut.allows_plus_add.mp hcut) hallows
  intro _
  -- from here on the record stays until it is replaced by `Completed`
  by_cases hbatch : scheduler.batchSize = 0
  · rw [if_pos hbatch]
    exact Program.Spec.panic fun _ _ h => h
  · rw [if_neg hbatch, reencryptChunks_eq]
    simp only [bind_assoc, pure_bind]
    apply Program.Spec.bind (reencryptBatch_files underway_ofFiles _ _)
    intro count
    apply Program.Spec.effect
    · rintro cut w ⟨hkeys, -⟩
      exact ⟨hkeys, _, _, Function.update_self ..⟩
    · exact fun _ _ h _ => h

theorem rotateKeyWithBackup_run_no_key {rng : Rng} {now : DateTime} {w : RotationWorld σ}
    (hkey : w.keyManager.keys[keyId]? = none) (cut : Cut) :
    (KeyManager.rotateKeyWithBackup rng now keyId).run cut w =
      (.error (.keyNotFound keyId), cut, w) := by
  unfold KeyManager.rotateKeyWithBackup
  rw [Program.run_bind, Program.run_read]
  dsimp only [id]
  rw [hkey]
  rfl

-- A rotation of a key that does not exist changes nothing.
theorem rotateKey_no_key {scheduler : KeyRotationScheduler} {now : DateTime} {w : RotationWorld σ}
    (hkey : w.keyManager.keys[keyId]? = none) (cut : Cut) :
    (scheduler.rotateKey env now keyId).final cut w = w := by
  cases hstart : (w.loadRotationState scheduler.encryptionPath).canStartRotation with
  | false => rw [Program.final, rotateKey_refused hstart]
  | true =>
    unfold KeyRotationScheduler.rotateKey rotationContext
    rw [Program.final, Program.run_bind, Program.run_read]
    dsimp only [id]
    rw [if_pos hstart, bind_assoc, Program.run_bind, rotateKeyWithBackup_run_no_key hkey]

-- The loop of a resumption leaves the rotation recorded.
theorem resumeChunks_underway {now : DateTime} {total : Nat} (context : ReEncryptionContext)
    (chunks : List (List EncryptedDocumentRef)) (processed : Nat) :
    Program.Spec (fun _ w => Underway hash path keyId w)
      (resumeChunks env path now keyId total context chunks processed)
      (fun _ _ w => Underway hash path keyId w) (fun _ w => Underway hash path keyId w) := by
  induction chunks generalizing processed with
  | nil => exact Program.Spec.pure fun _ _ h => h
  | cons chunk chunks ih =>
    unfold resumeChunks
    apply Program.Spec.bind (reencryptBatch_files underway_ofFiles _ _)
    intro count
    apply Program.Spec.bind (Q := fun _ _ w => Underway hash path keyId w)
    · unfold saveCheckpoint
      cases chunk.getLast? with
      | none => exact Program.Spec.pure fun _ _ h => h
      | some last =>
        apply Program.Spec.effect
        · rintro cut w ⟨hkeys, -⟩
          exact ⟨hkeys, _, _, _, _, Function.update_self ..⟩
        · exact fun _ _ h _ => h
    · exact fun _ => ih _

-- Replacing the key leaves a recorded rotation recorded.
theorem rotateKeyWithBackup_underway {now : DateTime} {rng : Rng} {other : String} :
    Program.Spec (fun _ w => Underway (σ := σ) hash path keyId w)
      (KeyManager.rotateKeyWithBackup rng now other) (fun _ _ w => Underway hash path keyId w)
      (fun _ w => Underway hash path keyId w) := by
  apply Program.Spec.read_bind_any
  intro w₁
  cases w₁.keyManager.keys[other]? with
  | none => exact Program.Spec.fail fun _ _ h => h
  | some key =>
    apply Program.Spec.bind (Q := fun _ _ w => Underway hash path keyId w)
    · exact Program.Spec.modify fun _ w h => ⟨h.1.withNewKey other _, h.2⟩
    intro _
    apply Program.Spec.bind (Q := fun _ _ w => Underway hash path keyId w)
    · exact Program.Spec.effect (fun _ w h => ⟨h.1.withSavedKeys, h.2⟩) (fun _ _ h _ => h)
    · exact fun _ => Program.Spec.pure fun _ _ h => h

-- A resumption leaves the rotation recorded until it is completed.
theorem resumeFromCheckpoint_underway (env : RotationEnv σ) {scheduler : KeyRotationScheduler}
    (now : DateTime) (checkpoint : Option (String × String)) (alreadyProcessed total : Nat) :
    Program.Spec (fun _ w => Underway hash scheduler.encryptionPath keyId w)
      (scheduler.resumeFromCheckpoint env now keyId checkpoint alreadyProcessed total)
      (fun _ _ w => Finished hash scheduler.encryptionPath keyId w)
      (fun _ w => Underway hash scheduler.encryptionPath keyId w) := by
  unfold KeyRotationScheduler.resumeFromCheckpoint rotationContext
  simp only [bind_assoc]
  apply Program.Spec.bind rotateKeyWithBackup_underway
  intro oldKey
  apply Program.Spec.read_bind_any
  intro w₁
  cases w₁.keyManager.getKey keyId with
  | error e => exact Program.Spec.fail fun _ _ h => h
  | ok newKey =>
    rw [pure_bind]
    apply Program.Spec.bind (Q := fun _ _ w => Underway hash scheduler.encryptionPath keyId w)
    · apply Program.Spec.read_bind_any
      intro w₂
      cases env.store.documentsUsing w₂.storage keyId with
      | error e => exact Program.Spec.fail fun _ _ h => h
      | ok docs => exact Program.Spec.pure fun _ _ h => h
    intro docs
    by_cases hbatch : scheduler.batchSize = 0
    · rw [if_pos hbatch]
      exact Program.Spec.panic fun _ _ h => h
    · rw [if_neg hbatch]
      apply Program.Spec.bind (resumeChunks_underway _ _ _)
      intro count
      apply Program.Spec.effect
      · rintro cut w ⟨hkeys, -⟩
        exact ⟨hkeys, _, _, Function.update_self ..⟩
      · exact fun _ _ h _ => h

-- Making a key leaves the state files alone.
theorem getOrCreateKey_keysSound {now : DateTime} {rng : Rng} {other : String}
    (files : String → Option KeyRotationState) :
    Program.Spec (fun _ w => KeysSound (σ := σ) hash w ∧ w.stateFiles = files)
      (KeyManager.getOrCreateKey rng now other)
      (fun _ _ w => KeysSound hash w ∧ w.stateFiles = files)
      (fun _ w => KeysSound hash w ∧ w.stateFiles = files) := by
  apply Program.Spec.read_bind_any
  intro w₁
  cases w₁.keyManager.getKey other with
  | ok key => exact Program.Spec.pure fun _ _ h => h
  | error e =>
    apply Program.Spec.bind (Q := fun _ _ w => KeysSound hash w ∧ w.stateFiles = files)
    · apply Program.Spec.read_bind_any
      intro w₂
      cases w₂.keyManager.keys[other]? with
      | some key => exact Program.Spec.fail fun _ _ h => h
      | none =>
        apply Program.Spec.bind (Q := fun _ _ w => KeysSound hash w ∧ w.stateFiles = files)
        · exact Program.Spec.modify fun _ w h => ⟨h.1.withNewKey other _, h.2⟩
        · exact fun _ => Program.Spec.effect (fun _ w h => ⟨h.1.withSavedKeys, h.2⟩)
            (fun _ _ h _ => h)
    · intro _
      apply Program.Spec.read_bind_any
      intro w₂
      exact Program.Spec.ofExcept (fun _ _ _ _ h => h) (fun _ _ h => h)

/-! ## Rotations that are not completed -/

def EngineOp.startedKey (op : EngineOp) (engine : EncryptionEngine σ) : Option String :=
  match op with
  | .rotateKey _ keyId =>
    let mayStart :=
      match engine.keyRotationScheduler with
      | some scheduler =>
        (engine.world.loadRotationState scheduler.encryptionPath).canStartRotation
      | none => true
    if mayStart && engine.world.keyManager.keys.contains keyId then some keyId else none
  | _ => none

/-- The key whose rotation the call finishes if it returns. -/
def EngineOp.finishedKey (op : EngineOp) (engine : EncryptionEngine σ) : Option String :=
  match op with
  | .rotateKey _ _ =>
    -- without a scheduler nothing is re-encrypted, and nothing is recorded as completed
    if engine.keyRotationScheduler.isSome then op.startedKey engine else none
  | .resumeRotation scheduler _ =>
    match engine.world.loadRotationState scheduler.encryptionPath with
    | .reEncrypting keyId _ _ _ _ => some keyId
    | _ => none
  | _ => none

/-- The rotations that are not completed after a call, from those that were not before it. -/
def EngineOp.pending (op : EngineOp) (outcome : Outcome EncryptionError Unit)
    (engine : EncryptionEngine σ) (pending : List String) : List String :=
  let started :=
    match op.startedKey engine with
    | some keyId => keyId :: pending.filter (· ≠ keyId)
    | none => pending
  match outcome, op.finishedKey engine with
  | .ok _, some keyId => started.filter (· ≠ keyId)
  | _, _ => started

section

variable (env : EngineEnv σ) (storagePath : String)

/-- The rotations a run has started and not completed. -/
def EncryptionEngine.pendingAfter : List (EngineOp × Cut) → EncryptionEngine σ → List String →
    List String
  | [], _, pending => pending
  | (op, cut) :: ops, engine, pending =>
    let outcome := (op.call env).outcome cut engine
    match outcome with
    | .crashed => op.pending outcome engine pending
    | _ =>
      pendingAfter ops ((op.call env).final cut engine) (op.pending outcome engine pending)

/-- The call records what it starts where startup looks for it: a rotation it starts goes through
a scheduler on that directory and is not stopped before its record is written, and a rotation it
resumes is one that startup would find. -/
def EngineOp.Recorded (op : EngineOp) (cut : Cut) (engine : EncryptionEngine σ) : Prop :=
  match op with
  | .rotateKey _ keyId => op.startedKey engine = some keyId →
      (∃ scheduler, engine.keyRotationScheduler = some scheduler ∧
        scheduler.encryptionPath = env.resolve storagePath) ∧
      (∀ key, engine.world.keyManager.keys[keyId]? = some key → key.active = true) ∧
      (∃ docs, env.store.documentsUsing engine.world.storage keyId = .ok docs) ∧ cut.Allows 2
  | .resumeRotation scheduler _ => (op.finishedKey engine).isSome = true →
      scheduler.encryptionPath = env.resolve storagePath
  | _ => True

/-- Every call of the run records what it starts. -/
def EncryptionEngine.AllRecorded : List (EngineOp × Cut) → EncryptionEngine σ → Prop
  | [], _ => True
  | (op, cut) :: ops, engine => op.Recorded env storagePath cut engine ∧
      match (op.call env).outcome cut engine with
      | .crashed => True
      | _ => AllRecorded ops ((op.call env).final cut engine)

end

/-! ## What the record says -/

/-- What holds all along such a run: the keys can be loaded, and the record that startup reads names
the one rotation that is not completed. -/
structure Watched (env : EngineEnv σ) (storagePath : String) (hash : Option String)
    (pending : List String) (engine : EncryptionEngine σ) : Prop where
  keys : KeysSound hash engine.world
  state : (pending = [] ∧
      (engine.world.loadRotationState (env.resolve storagePath)).canStartRotation = true) ∨
    ∃ keyId, pending = [keyId] ∧
      recordedIn (env.resolve storagePath) keyId engine.world.stateFiles

variable {env : EngineEnv σ} {storagePath : String} {pending : List String}
  {engine : EncryptionEngine σ}

-- A call that leaves the state files alone.
theorem Watched.congr {engine' : EncryptionEngine σ}
    (h : Watched env storagePath hash pending engine)
    (hkeys : KeysSound hash engine'.world)
    (hstate : engine'.world.stateFiles = engine.world.stateFiles) :
    Watched env storagePath hash pending engine' where
  keys := hkeys
  state := by
    rw [RotationWorld.loadRotationState, hstate]
    exact h.state

theorem loadRotationState_of_recordedIn {w : RotationWorld σ}
    (h : recordedIn path keyId w.stateFiles) :
    ∃ startedAt processed total checkpoint, w.loadRotationState path =
      .reEncrypting keyId startedAt processed total checkpoint := by
  obtain ⟨startedAt, processed, total, checkpoint, hstate⟩ := h
  exact ⟨startedAt, processed, total, checkpoint,
    (RotationWorld.loadRotationState_eq_iff (by simp)).mpr hstate⟩

-- Where a rotation may start, none is pending.
theorem Watched.pending_eq_nil (h : Watched env storagePath hash pending engine)
    (hstart : (engine.world.loadRotationState (env.resolve storagePath)).canStartRotation = true) :
    pending = [] := by
  rcases h.state with ⟨hnil, -⟩ | ⟨keyId, -, hrecorded⟩
  · exact hnil
  · obtain ⟨_, _, _, _, hload⟩ := loadRotationState_of_recordedIn hrecorded
    rw [hload] at hstart
    cases hstart

-- Where a rotation is recorded, it is the pending one.
theorem Watched.pending_eq_singleton (h : Watched env storagePath hash pending engine)
    {startedAt : DateTime} {processed total : Nat} {checkpoint : Option (String × String)}
    (hload : engine.world.loadRotationState (env.resolve storagePath) =
      .reEncrypting keyId startedAt processed total checkpoint) :
    pending = [keyId] ∧ recordedIn (env.resolve storagePath) keyId engine.world.stateFiles := by
  rcases h.state with ⟨-, hstart⟩ | ⟨keyId', hpending, hrecorded⟩
  · rw [hload] at hstart
    cases hstart
  · obtain ⟨_, _, _, _, hload'⟩ := loadRotationState_of_recordedIn hrecorded
    rw [hload] at hload'
    cases hload'
    exact ⟨hpending, hrecorded⟩

/-! ## One call -/

theorem EngineOp.pending_eq_self {op : EngineOp} (hstarted : op.startedKey engine = none)
    (hfinished : op.finishedKey engine = none) (outcome : Outcome EncryptionError Unit) :
    op.pending outcome engine pending = pending := by
  unfold EngineOp.pending
  rw [hstarted, hfinished]
  cases outcome <;> rfl

-- Calls that keep the keys sound and the state files as they are keep the engine watched.
theorem Watched.onWorld {α : Type} {m : EncryptionM σ α}
    (hm : ∀ files, Program.Spec (fun _ w => KeysSound hash w ∧ w.stateFiles = files) m
      (fun _ _ w => KeysSound hash w ∧ w.stateFiles = files)
      (fun _ w => KeysSound hash w ∧ w.stateFiles = files)) :
    Program.Spec (fun _ e => Watched env storagePath hash pending e) (EncryptionEngine.onWorld m)
      (fun _ _ e => Watched env storagePath hash pending e)
      (fun _ e => Watched env storagePath hash pending e) := by
  apply Program.Spec.zoom
  intro engine
  apply Program.Spec.of_pre (p := Watched env storagePath hash pending engine) (fun _ _ h => h.2)
  intro h
  apply (hm engine.world.stateFiles).weaken
  · rintro cut w ⟨rfl, -⟩
    exact ⟨h.keys, rfl⟩
  · rintro _ cut w ⟨hkeys, hstate⟩
    exact h.congr hkeys hstate
  · rintro cut w ⟨hkeys, hstate⟩
    exact h.congr hkeys hstate

theorem encryptFresh_keysSound {data key : Bytes} (files : String → Option KeyRotationState) :
    Program.Spec (fun _ w => KeysSound (σ := σ) hash w ∧ w.stateFiles = files)
      (encryptFresh env.toRotationEnv data key)
      (fun _ _ w => KeysSound hash w ∧ w.stateFiles = files)
      (fun _ w => KeysSound hash w ∧ w.stateFiles = files) := by
  apply Program.Spec.read_bind_any
  intro w₁
  apply Program.Spec.bind (Q := fun _ _ w => KeysSound hash w ∧ w.stateFiles = files)
  · exact Program.Spec.modify fun _ _ h => h
  intro _
  cases DocumentEncryption.encrypt env.aead (env.rng.nonce w₁.drawn) data key with
  | error e => exact Program.Spec.fail fun _ _ h => h
  | ok bytes => exact Program.Spec.pure fun _ _ h => h

-- The calls that are not about rotations.
theorem Watched.call {op : EngineOp} (hrotate : ∀ now keyId, op ≠ .rotateKey now keyId)
    (hresume : ∀ scheduler now, op ≠ .resumeRotation scheduler now) :
    Program.Spec (fun _ e => Watched env storagePath hash pending e) (op.call env)
      (fun _ _ e => Watched env storagePath hash pending e)
      (fun _ e => Watched env storagePath hash pending e) := by
  cases op with
  | enableKeyRotation batchSize => exact Program.Spec.modify fun _ _ h => h.congr h.keys rfl
  | disableKeyRotation => exact Program.Spec.modify fun _ _ h => h.congr h.keys rfl
  | rotateKey now keyId => exact absurd rfl (hrotate now keyId)
  | resumeRotation scheduler now => exact absurd rfl (hresume scheduler now)
  | enableCollectionEncryption now collection =>
    apply Program.Spec.bind (Watched.onWorld getOrCreateKey_keysSound)
    intro _
    exact Program.Spec.modify fun _ _ h => h.congr h.keys rfl
  | disableCollectionEncryption collection =>
    apply Program.Spec.modify
    intro cut e h
    cases e.config.collectionEncryption[collection]? with
    | none => exact h
    | some c => exact h.congr h.keys rfl
  | encryptDocument collection data =>
    apply Program.Spec.bind (Q := fun _ _ e => Watched env storagePath hash pending e)
    · apply Program.Spec.read_bind_any
      intro e
      by_cases hon : e.config.isCollectionEncrypted collection = true
      · rw [if_pos hon]
        cases e.collectionKey collection with
        | error err => exact Program.Spec.fail fun _ _ h => h
        | ok key => exact Watched.onWorld encryptFresh_keysSound
      · rw [if_neg hon]
        exact Program.Spec.pure fun _ _ h => h
    · exact fun _ => Program.Spec.pure fun _ _ h => h

theorem EncryptionEngine.rotateKey_run_scheduled {scheduler : KeyRotationScheduler} {now : DateTime}
    (h : engine.keyRotationScheduler = some scheduler) (cut : Cut) :
    (rotateKey env now keyId).run cut engine =
      (onWorld (scheduler.rotateKey env.toRotationEnv now keyId)).run cut engine := by
  unfold rotateKey
  rw [Program.run_bind, Program.run_read]
  dsimp only [id]
  rw [h]

theorem EngineOp.startedKey_rotateKey {now : DateTime} :
    (EngineOp.rotateKey now keyId).startedKey engine = some keyId ↔
      (∀ scheduler, engine.keyRotationScheduler = some scheduler →
        (engine.world.loadRotationState scheduler.encryptionPath).canStartRotation = true) ∧
      ∃ key, engine.world.keyManager.keys[keyId]? = some key := by
  unfold EngineOp.startedKey
  dsimp only
  rw [Std.ExtTreeMap.contains_eq_isSome_getElem?]
  cases engine.keyRotationScheduler with
  | none => cases engine.world.keyManager.keys[keyId]? <;> simp
  | some scheduler =>
    cases engine.world.keyManager.keys[keyId]? <;> simp

-- A rotation that does not start leaves the engine as it is.
theorem EncryptionEngine.rotateKey_final_unstarted {now : DateTime}
    (h : (EngineOp.rotateKey now keyId).startedKey engine ≠ some keyId) (cut : Cut) :
    (rotateKey env now keyId).final cut engine = engine := by
  rw [Ne, EngineOp.startedKey_rotateKey] at h
  cases hscheduler : engine.keyRotationScheduler with
  | some scheduler =>
    rw [Program.final, rotateKey_run_scheduled hscheduler, ← Program.final, onWorld_final]
    cases hkey : engine.world.keyManager.keys[keyId]? with
    | none => rw [rotateKey_no_key hkey]
    | some key =>
      cases hstart : (engine.world.loadRotationState
          scheduler.encryptionPath).canStartRotation with
      | false => rw [Program.final, rotateKey_refused hstart]
      | true =>
        refine absurd ⟨?_, key, hkey⟩ h
        intro scheduler' hscheduler'
        rw [hscheduler] at hscheduler'
        cases hscheduler'
        exact hstart
  | none =>
    have hkey : engine.world.keyManager.keys[keyId]? = none := by
      cases hkey : engine.world.keyManager.keys[keyId]? with
      | none => rfl
      | some key =>
        refine absurd ⟨?_, key, hkey⟩ h
        intro scheduler' hscheduler'
        rw [hscheduler] at hscheduler'
        cases hscheduler'
    unfold rotateKey
    rw [Program.final, Program.run_bind, Program.run_read]
    dsimp only [id]
    rw [hscheduler, Program.run_bind, onWorld, Program.run, Program.zoom,
      rotateKeyWithBackup_run_no_key hkey]

-- A call that has one rotation under way, started by it or pending before it.
theorem EngineOp.pending_of_underway {op : EngineOp}
    (hstarted : (op.startedKey engine = some keyId ∧ pending = []) ∨
      (op.startedKey engine = none ∧ pending = [keyId]))
    (hfinished : op.finishedKey engine = some keyId) :
    op.pending (.ok ⟨⟩) engine pending = [] ∧
      ∀ outcome, (∀ a, outcome ≠ .ok a) → op.pending outcome engine pending = [keyId] := by
  have hone : (match op.startedKey engine with
      | some keyId => keyId :: pending.filter (· ≠ keyId)
      | none => pending) = [keyId] := by
    rcases hstarted with ⟨hkey, hnil⟩ | ⟨hkey, hone⟩
    · rw [hkey, hnil]
      rfl
    · rw [hkey, hone]
  unfold EngineOp.pending
  dsimp only
  rw [hone, hfinished]
  refine ⟨by simp, ?_⟩
  intro outcome hnot
  cases outcome with
  | ok a => exact absurd rfl (hnot a)
  | error e => rfl
  | crashed => rfl

-- Such a call leaves the rotation completed if it returns, and recorded if it does not.
theorem Watched.of_underway {op : EngineOp}
    (hstarted : (op.startedKey engine = some keyId ∧ pending = []) ∨
      (op.startedKey engine = none ∧ pending = [keyId]))
    (hfinished : op.finishedKey engine = some keyId) (hpath : path = env.resolve storagePath)
    {m : EncryptionM σ Unit} {P : Cut → RotationWorld σ → Prop}
    (hspec : Program.Spec P m (fun _ _ w => Finished hash path keyId w)
      (fun _ w => Underway hash path keyId w))
    {cut : Cut} (hpre : P cut engine.world) :
    Watched env storagePath hash (op.pending (m.outcome cut engine.world) engine pending)
      { engine with world := m.final cut engine.world } := by
  obtain ⟨hcompleted, hstopped⟩ := EngineOp.pending_of_underway hstarted hfinished
  rw [hpath] at hspec
  rcases hspec.outcome_cases hpre with
    ⟨a, _, hok, hkeys, _, _, hstate⟩ | ⟨hnot, _, hkeys, hrecorded⟩
  · rw [hok]
    refine ⟨hkeys, .inl ⟨hcompleted, ?_⟩⟩
    rw [RotationWorld.loadRotationState, hstate]
    rfl
  · exact ⟨hkeys, .inr ⟨keyId, hstopped _ hnot, hrecorded⟩⟩

-- A rotation: one that starts is pending until it is completed, and recorded for as long.
theorem Watched.rotateKey (h : Watched env storagePath hash pending engine) {now : DateTime}
    {cut : Cut} (hop : (EngineOp.rotateKey now keyId).Recorded env storagePath cut engine) :
    Watched env storagePath hash
      ((EngineOp.rotateKey now keyId).pending
        ((EncryptionEngine.rotateKey env now keyId).outcome cut engine) engine pending)
      ((EncryptionEngine.rotateKey env now keyId).final cut engine) := by
  by_cases hstarted : (EngineOp.rotateKey now keyId).startedKey engine = some keyId
  · obtain ⟨⟨scheduler, hscheduler, hpath⟩, hactive, ⟨docs, hdocs⟩, hcut⟩ := hop hstarted
    obtain ⟨hstart, key, hkey⟩ := EngineOp.startedKey_rotateKey.mp hstarted
    have hfinished : (EngineOp.rotateKey now keyId).finishedKey engine = some keyId := by
      unfold EngineOp.finishedKey
      dsimp only
      rw [hscheduler, if_pos (Option.isSome_some ..), hstarted]
    have hnil : pending = [] := h.pending_eq_nil (hpath ▸ hstart scheduler hscheduler)
    rw [Program.final, Program.outcome, EncryptionEngine.rotateKey_run_scheduled hscheduler,
      ← Program.final, ← Program.outcome, EncryptionEngine.onWorld_final,
      EncryptionEngine.onWorld_outcome]
    exact Watched.of_underway (.inl ⟨hstarted, hnil⟩) hfinished hpath
      (rotateKey_underway env.toRotationEnv now h.keys (hstart scheduler hscheduler) hkey
        (hactive key hkey) hdocs hcut) ⟨rfl, rfl⟩
  · have hnone : (EngineOp.rotateKey now keyId).startedKey engine = none := by
      unfold EngineOp.startedKey at hstarted ⊢
      dsimp only at hstarted ⊢
      exact if_neg fun hif => hstarted (if_pos hif)
    rw [EncryptionEngine.rotateKey_final_unstarted hstarted, EngineOp.pending_eq_self hnone]
    · exact h
    · unfold EngineOp.finishedKey
      dsimp only
      rw [hnone, ite_self]

-- Where no rotation is recorded there is nothing to resume.
theorem Watched.resume_nothing (h : Watched env storagePath hash pending engine)
    {scheduler : KeyRotationScheduler} {now : DateTime} {cut : Cut}
    (hnot : ∀ keyId startedAt processed total checkpoint,
      engine.world.loadRotationState scheduler.encryptionPath ≠
        .reEncrypting keyId startedAt processed total checkpoint) :
    Watched env storagePath hash
      ((EngineOp.resumeRotation scheduler now).pending
        ((scheduler.resumeRotation env.toRotationEnv now).outcome cut engine.world) engine pending)
      { engine with
        world := (scheduler.resumeRotation env.toRotationEnv now).final cut engine.world } := by
  have hfinished : (EngineOp.resumeRotation scheduler now).finishedKey engine = none := by
    unfold EngineOp.finishedKey
    dsimp only
    cases hload : engine.world.loadRotationState scheduler.encryptionPath with
    | reEncrypting keyId startedAt processed total checkpoint =>
      exact absurd hload (hnot keyId startedAt processed total checkpoint)
    | idle => rfl
    | completed keyId completedAt count => rfl
    | failed keyId reason failedAt => rfl
  rw [resumeRotation_final_unrecorded hnot, EngineOp.pending_eq_self rfl hfinished]
  exact h

-- A resumption: the pending rotation stays recorded until it is completed.
theorem Watched.resumeRotation (h : Watched env storagePath hash pending engine)
    {scheduler : KeyRotationScheduler} {now : DateTime} {cut : Cut}
    (hop : (EngineOp.resumeRotation scheduler now).Recorded env storagePath cut engine) :
    Watched env storagePath hash
      ((EngineOp.resumeRotation scheduler now).pending
        ((EncryptionEngine.resumeRotation env scheduler now).outcome cut engine) engine pending)
      ((EncryptionEngine.resumeRotation env scheduler now).final cut engine) := by
  show Watched env storagePath hash
    ((EngineOp.resumeRotation scheduler now).pending
      ((scheduler.resumeRotation env.toRotationEnv now).outcome cut engine.world) engine pending)
    { engine with world := (scheduler.resumeRotation env.toRotationEnv now).final cut engine.world }
  cases hload : engine.world.loadRotationState scheduler.encryptionPath with
  | reEncrypting keyId startedAt processed total checkpoint =>
    have hfinished : (EngineOp.resumeRotation scheduler now).finishedKey engine = some keyId := by
      unfold EngineOp.finishedKey
      dsimp only
      rw [hload]
    have hpath : scheduler.encryptionPath = env.resolve storagePath :=
      hop (by rw [hfinished]; rfl)
    obtain ⟨hpending, hrecorded⟩ := h.pending_eq_singleton (hpath ▸ hload)
    rw [← hpath] at hrecorded
    have hstate := (RotationWorld.loadRotationState_eq_iff (by simp)).mp hload
    rw [Program.final, Program.outcome, resumeRotation_run_recorded hstate, ← Program.final,
      ← Program.outcome]
    exact Watched.of_underway (.inr ⟨rfl, hpending⟩) hfinished hpath
      (resumeFromCheckpoint_underway env.toRotationEnv now checkpoint processed total)
      ⟨h.keys, hrecorded⟩
  | idle =>
    apply h.resume_nothing
    rw [hload]
    rintro keyId startedAt processed total checkpoint ⟨⟩
  | completed keyId completedAt count =>
    apply h.resume_nothing
    rw [hload]
    rintro keyId' startedAt processed total checkpoint ⟨⟩
  | failed keyId reason failedAt =>
    apply h.resume_nothing
    rw [hload]
    rintro keyId' startedAt processed total checkpoint ⟨⟩

/-- One call of a run. -/
theorem Watched.step (h : Watched env storagePath hash pending engine) {op : EngineOp} {cut : Cut}
    (hop : op.Recorded env storagePath cut engine) :
    Watched env storagePath hash
      (op.pending ((op.call env).outcome cut engine) engine pending)
      ((op.call env).final cut engine) := by
  cases op with
  | rotateKey now keyId => exact h.rotateKey hop
  | resumeRotation scheduler now => exact h.resumeRotation hop
  | _ =>
    rw [EngineOp.pending_eq_self rfl rfl]
    refine (Watched.call ?_ ?_).final h
    · rintro now keyId ⟨⟩
    · rintro scheduler now ⟨⟩

/-! ## Whole runs -/

/-- A whole run, ended by a crash or not. -/
theorem Watched.run (h : Watched env storagePath hash pending engine) {ops : List (EngineOp × Cut)}
    (hops : engine.AllRecorded env storagePath ops) :
    Watched env storagePath hash (engine.pendingAfter env ops pending)
      (EncryptionEngine.runOps env ops engine) := by
  induction ops generalizing engine pending with
  | nil => exact h
  | cons op ops ih =>
    obtain ⟨op, cut⟩ := op
    obtain ⟨hop, hrest⟩ := hops
    have hstep := h.step hop
    unfold EncryptionEngine.pendingAfter EncryptionEngine.runOps
    dsimp only
    cases hout : (op.call env).outcome cut engine with
    | crashed =>
      rw [hout] at hstep
      exact hstep
    | ok a =>
      rw [hout] at hstep hrest
      exact ih hstep hrest
    | error e =>
      rw [hout] at hstep hrest
      exact ih hstep hrest

/-! ## Startup -/

-- An engine that starts is watched, with no rotation pending.
theorem EncryptionEngine.new_watched {config : EncryptionConfig} {disk : RotationWorld σ}
    (h : new env config storagePath disk = .ok engine) :
    (∀ file, KeyManager.new env.hashMasterKey config.masterKey file =
      KeyManager.loadKeys ⟨∅, config.masterKey.map env.hashMasterKey⟩ file) ∧
      Watched env storagePath (config.masterKey.map env.hashMasterKey) [] engine := by
  obtain ⟨hstart, manager, hnew, rfl⟩ := new_ok_iff.mp h
  have haccepted := KeyManager.new_accepted hnew
  rw [haccepted] at hnew
  refine ⟨haccepted, ⟨KeyManager.masterKeyHash_loadKeys hnew, ?_⟩, .inl ⟨rfl, hstart⟩⟩
  exact KeyManager.loadKeys_ok_iff.mp ⟨manager, hnew⟩

-- Starting again on the files of a watched engine: the pending rotation is named, and without
-- one the engine starts.
theorem Watched.new (h : Watched env storagePath hash pending engine) {config : EncryptionConfig}
    (haccepted : ∀ file, KeyManager.new env.hashMasterKey config.masterKey file =
      KeyManager.loadKeys ⟨∅, hash⟩ file) :
    (∀ keyId ∈ pending, ∃ processed total,
      EncryptionEngine.new env config storagePath engine.world =
        .error (.incompleteRotation keyId processed total)) ∧
    (pending = [] → ∃ engine', EncryptionEngine.new env config storagePath engine.world =
      .ok engine') := by
  obtain ⟨loaded, hloaded⟩ : ∃ loaded, KeyManager.loadKeys ⟨∅, hash⟩ engine.world.keyFile =
      .ok loaded := KeyManager.loadKeys_ok_iff.mpr h.keys.2
  rw [← haccepted] at hloaded
  rcases h.state with ⟨hnil, hstart⟩ | ⟨keyId, hone, hrecorded⟩
  · rw [hnil]
    refine ⟨fun _ hmem => absurd hmem List.not_mem_nil, fun _ => ?_⟩
    exact ⟨_, EncryptionEngine.new_ok_iff.mpr ⟨hstart, loaded, hloaded, rfl⟩⟩
  · rw [hone]
    refine ⟨?_, fun hnil => absurd hnil (List.cons_ne_nil keyId [])⟩
    intro other hmem
    rw [List.mem_singleton.mp hmem]
    obtain ⟨_, processed, total, _, hload⟩ := loadRotationState_of_recordedIn hrecorded
    -- the keys are loaded before the state is looked at
    unfold EncryptionEngine.new
    rw [hloaded, hload]
    exact ⟨processed, total, rfl⟩

/-- In a run that records every rotation it starts where startup looks for it, a rotation that was
not completed is named by the next startup, and without one the next startup succeeds. -/
theorem startup_names_pending (env : EngineEnv σ) (config : EncryptionConfig)
    (storagePath : String) (disk : RotationWorld σ) {engine : EncryptionEngine σ}
    (hstarted : EncryptionEngine.new env config storagePath disk = .ok engine)
    (ops : List (EngineOp × Cut)) (hops : engine.AllRecorded env storagePath ops) :
    (∀ keyId ∈ engine.pendingAfter env ops [], ∃ processed total,
      EncryptionEngine.new env config storagePath (EncryptionEngine.runOps env ops engine).world =
        .error (.incompleteRotation keyId processed total)) ∧
    (engine.pendingAfter env ops [] = [] → ∃ engine',
      EncryptionEngine.new env config storagePath (EncryptionEngine.runOps env ops engine).world =
        .ok engine') := by
  obtain ⟨haccepted, hwatched⟩ := EncryptionEngine.new_watched hstarted
  exact (hwatched.run hops).new haccepted

/-- A rotation of the key of `users` that is cut off after the key and its record are written. -/
def interruptedRotation : List (EngineOp × Cut) :=
  [(.enableKeyRotation 100, none), (.enableCollectionEncryption epoch "users", none),
    (.rotateKey epoch (collectionKeyId "users"), some (2, .crash))]

/-- With `./encryption` as the storage path, the interrupted rotation is named. -/
theorem startup_names_pending_users : ∃ processed total,
    EncryptionEngine.new tableEngineEnv freshEngine.config "./encryption"
      (EncryptionEngine.runOps tableEngineEnv interruptedRotation freshEngine).world =
        .error (.incompleteRotation (collectionKeyId "users") processed total) := by
  have hops : freshEngine.AllRecorded tableEngineEnv "./encryption" interruptedRotation := by
    refine ⟨trivial, trivial, fun _ => ⟨⟨⟨100, "./encryption"⟩, rfl, rfl⟩, ?_, ⟨[], rfl⟩,
      by decide⟩, trivial⟩
    intro key (hkey : (EncryptionEngine.runOps tableEngineEnv (interruptedRotation.take 2)
      freshEngine).world.keyManager.keys[collectionKeyId "users"]? = some key)
    have hactive : ((EncryptionEngine.runOps tableEngineEnv (interruptedRotation.take 2)
        freshEngine).world.keyManager.keys[collectionKeyId "users"]?).all
          EncryptionKey.active = true := by
      decide +kernel
    rw [hkey] at hactive
    exact hactive
  exact (startup_names_pending tableEngineEnv freshEngine.config "./encryption"
    freshEngine.world rfl interruptedRotation hops).1 _ (by decide +kernel)

/-- With `./data` as the storage path, startup does not see it. -/
theorem startup_overlooks_users :
    EncryptionEngine.new tableEngineEnv freshEngine.config "./data" freshEngine.world =
      .ok freshEngine ∧
    collectionKeyId "users" ∈ freshEngine.pendingAfter tableEngineEnv interruptedRotation [] ∧
    ¬ ∃ processed total, EncryptionEngine.new tableEngineEnv freshEngine.config "./data"
      (EncryptionEngine.runOps tableEngineEnv interruptedRotation freshEngine).world =
        .error (.incompleteRotation (collectionKeyId "users") processed total) := by
  refine ⟨rfl, by decide +kernel, ?_⟩
  rintro ⟨processed, total, h⟩
  have hstarts : (EncryptionEngine.new tableEngineEnv freshEngine.config "./data"
      (EncryptionEngine.runOps tableEngineEnv interruptedRotation freshEngine).world).isOk =
        true := by
    decide +kernel
  rw [h] at hstarts
  cases hstarts

end VedDb
