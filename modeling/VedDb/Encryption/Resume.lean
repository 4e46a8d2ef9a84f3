import VedDb.Encryption.Stranding

/-!
# Resuming a rotation

A resumption replaces the key once more and re-encrypts from the key it found in the key file, not
from the key the rotation started with.  So it ends where an undisturbed rotation ends only if every
document it finds is under the key in the file: a document that an interrupted rotation had not
reached is skipped, and the next rotation has no key for it.
-/

namespace VedDb

open LittleEndian (Bytes)
open Durable

variable {σ : Type} {env : RotationEnv σ} {collection path : String}

/-! ## Attempts -/

/-- One start of the process and one call of `resume_rotation`. -/
structure Attempt where
  batchSize : Nat
  now : DateTime
  cut : Cut

/-- The call, on the keys of the key file. -/
def Attempt.call (env : RotationEnv σ) (path : String) (attempt : Attempt) :
    EncryptionM σ Unit :=
  KeyRotationScheduler.resumeRotation env ⟨attempt.batchSize, path⟩ attempt.now

/-- The state an attempt leaves behind. -/
def Attempt.run (env : RotationEnv σ) (path : String) (attempt : Attempt) (w : RotationWorld σ) :
    RotationWorld σ :=
  (attempt.call env path).final attempt.cut w.restart

/-- The state after any number of attempts. -/
def runAttempts (env : RotationEnv σ) (path : String) : List Attempt → RotationWorld σ →
    RotationWorld σ
  | [], w => w
  | attempt :: attempts, w => runAttempts env path attempts (attempt.run env path w)

def OpensCurrent (aead : Aead) (keyId : String) (w : RotationWorld σ) (doc : EncryptedDocumentRef) :
    Prop :=
  ∃ file key, w.keyFile = some file ∧ file.keys[keyId]? = some key ∧
    ∃ plaintext, doc.Opens aead key.key plaintext

/-- A resumption finds every document of the collection under the key in the key file, and its
checkpoint skips none of them. -/
def Resumable (env : RotationEnv σ) (path collection : String) (w : RotationWorld σ) : Prop :=
  ∀ keyId startedAt processed total checkpoint,
    w.loadRotationState path = .reEncrypting keyId startedAt processed total checkpoint →
    ∀ docs, env.store.scanEncryptedCollection w.storage collection = .ok docs →
      KeyRotationScheduler.remainingDocuments checkpoint docs = docs ∧
        ∀ doc ∈ docs, OpensCurrent env.aead keyId w doc

/-- Every attempt of the run that replaces the key does so on a resumable state. -/
def AllResumable (env : RotationEnv σ) (path collection : String) : List Attempt →
    RotationWorld σ → Prop
  | [], _ => True
  | attempt :: attempts, w =>
    (attempt.cut.Allows 1 → Resumable env path collection w) ∧
      AllResumable env path collection attempts (attempt.run env path w)

/-! ## What an interrupted rotation has kept -/

def SamePlaintextUnder (aead : Aead) (firstKey key : Bytes) (doc₀ doc : EncryptedDocumentRef) :
    Prop :=
  doc.docId = doc₀.docId ∧ ∃ plaintext,
    doc₀.Opens aead firstKey plaintext ∧ doc.Opens aead key plaintext

/-- The document still has the plaintext it had under the first key, whatever key opens it. -/
def SamePlaintext (aead : Aead) (firstKey : Bytes) (doc₀ doc : EncryptedDocumentRef) : Prop :=
  ∃ key, SamePlaintextUnder aead firstKey key doc₀ doc

theorem SamePlaintext.under {aead : Aead} (haead : aead.Lawful) {firstKey key plaintext : Bytes}
    {doc₀ doc : EncryptedDocumentRef} (h : SamePlaintext aead firstKey doc₀ doc)
    (hopen : doc.Opens aead key plaintext) : SamePlaintextUnder aead firstKey key doc₀ doc := by
  obtain ⟨key', hid, plaintext', hfirst, hopen'⟩ := h
  -- a document opens under one key only
  have hkey : key = key' := DocumentEncryption.decrypt_one_key haead hopen hopen'
  rw [hkey]
  exact ⟨hid, plaintext', hfirst, hopen'⟩

-- Re-encryption from the key a document is under keeps its plaintext.
theorem SamePlaintext.processed {aead : Aead} (haead : aead.Lawful) {firstKey : Bytes}
    {context : ReEncryptionContext} {doc₀ doc doc' : EncryptedDocumentRef}
    (h : SamePlaintext aead firstKey doc₀ doc)
    (hopens : ∃ plaintext, doc.Opens aead context.oldKey plaintext)
    (hprocessed : Processed aead context doc doc') :
    SamePlaintextUnder aead firstKey context.newKey doc₀ doc' := by
  cases hprocessed with
  | @resealed data plaintext hold hnew =>
    obtain ⟨hid, plaintext', hfirst, hopen'⟩ := h.under haead hold
    have heq : plaintext' = plaintext := Except.ok.inj (hopen'.symm.trans hold)
    rw [heq] at hfirst
    exact ⟨hid, plaintext, hfirst, hnew⟩
  | skipped hnot =>
    obtain ⟨plaintext, hopen⟩ := hopens
    exact absurd hopen (hnot plaintext)

theorem SamePlaintext.touched {aead : Aead} (haead : aead.Lawful) {firstKey : Bytes}
    {context : ReEncryptionContext} {doc₀ doc doc' : EncryptedDocumentRef}
    (h : SamePlaintext aead firstKey doc₀ doc)
    (hopens : ∃ plaintext, doc.Opens aead context.oldKey plaintext)
    (htouched : Touched aead context doc doc') : SamePlaintext aead firstKey doc₀ doc' := by
  rcases htouched with rfl | hprocessed
  · exact h
  · exact ⟨_, h.processed haead hopens hprocessed⟩

structure Interrupted (env : RotationEnv σ) (path collection : String) (firstKey : Bytes)
    (docs₀ : List EncryptedDocumentRef) (key : EncryptionKey) (docs : List EncryptedDocumentRef)
    (w : RotationWorld σ) : Prop where
  keyFile : ∃ file, w.keyFile = some file ∧ file.keys[collectionKeyId collection]? = some key
  active : key.active = true
  scan : env.store.scanEncryptedCollection w.storage collection = .ok docs
  kept : List.Forall₂ (SamePlaintext env.aead firstKey) docs₀ docs
  recorded : recordedIn path (collectionKeyId collection) w.stateFiles ∨
    (∃ completedAt count, w.stateFiles path =
      some (.completed (collectionKeyId collection) completedAt count)) ∧
    List.Forall₂ (SamePlaintextUnder env.aead firstKey key.key) docs₀ docs

variable {firstKey : Bytes} {docs₀ docs : List EncryptedDocumentRef} {key : EncryptionKey}
  {w w' : RotationWorld σ}

-- Only what is persisted matters.
theorem Interrupted.congr (h : Interrupted env path collection firstKey docs₀ key docs w)
    (hfile : w'.keyFile = w.keyFile) (hstorage : w'.storage = w.storage)
    (hstate : w'.stateFiles = w.stateFiles) :
    Interrupted env path collection firstKey docs₀ key docs w' where
  keyFile := by rw [hfile]; exact h.keyFile
  active := h.active
  scan := by rw [hstorage]; exact h.scan
  kept := h.kept
  recorded := by rw [hstate]; exact h.recorded

theorem Interrupted.restart_key (h : Interrupted env path collection firstKey docs₀ key docs w) :
    w.restart.keyManager.keys[collectionKeyId collection]? = some key := by
  obtain ⟨file, hfile, hkey⟩ := h.keyFile
  show ((w.keyFile.map KeyStorage.keys).getD ∅)[collectionKeyId collection]? = some key
  rw [hfile]
  exact hkey

-- After the key was replaced, with each document still under some key.
theorem interrupted_of_rekeyed (hactive : key.active = true) {now : DateTime}
    {files : (String → Option KeyRotationState) → Prop} {docs' : List EncryptedDocumentRef}
    (hholding : Holding env collection (w.rekeyed env.rng now (collectionKeyId collection) key)
      files docs' w')
    (hkept : List.Forall₂ (SamePlaintext env.aead firstKey) docs₀ docs')
    (hrecorded : recordedIn path (collectionKeyId collection) w'.stateFiles ∨
      (∃ completedAt count, w'.stateFiles path =
        some (.completed (collectionKeyId collection) completedAt count)) ∧
      List.Forall₂ (SamePlaintextUnder env.aead firstKey (env.rng.key w.drawn)) docs₀ docs') :
    Interrupted env path collection firstKey docs₀
      (KeyManager.rotated now key (env.rng.key w.drawn)) docs' w' where
  keyFile := ⟨_, hholding.keyFile, Std.ExtTreeMap.getElem?_insert_self⟩
  active := hactive
  scan := hholding.scan
  kept := hkept
  recorded := hrecorded

-- A resumable state has every document under the key that a restart finds.
theorem Interrupted.opens (h : Interrupted env path collection firstKey docs₀ key docs w)
    (hopens : ∀ doc ∈ docs, OpensCurrent env.aead (collectionKeyId collection) w doc) :
    ∀ doc ∈ docs, ∃ plaintext, doc.Opens env.aead key.key plaintext := by
  intro doc hdoc
  obtain ⟨file, key', hfile, hkey', hopen⟩ := hopens doc hdoc
  obtain ⟨file', hfile', hkey⟩ := h.keyFile
  rw [hfile] at hfile'
  cases hfile'
  rw [hkey] at hkey'
  cases hkey'
  exact hopen

-- A resumption that stopped has kept every plaintext.
theorem Interrupted.stop (haead : env.aead.Lawful)
    (h : Interrupted env path collection firstKey docs₀ key docs w)
    (hrecorded : recordedIn path (collectionKeyId collection) w.stateFiles)
    (hopens : ∀ doc ∈ docs, ∃ plaintext, doc.Opens env.aead key.key plaintext)
    {batchSize : Nat} {now : DateTime} {cut : Cut}
    (hstop : ResumeStop env ⟨batchSize, path⟩ now (collectionKeyId collection) collection key
      w.restart cut [] docs [] w') :
    ∃ key' docs', Interrupted env path collection firstKey docs₀ key' docs' w' := by
  have hsame : Holding env collection
      (w.restart.rekeyed env.rng now (collectionKeyId collection) key) (fun _ => True) docs
      (w.restart.rekeyed env.rng now (collectionKeyId collection) key) :=
    ⟨rfl, rfl, trivial, h.scan, fun _ _ => rfl⟩
  cases hstop with
  | keyUnsaved hcut => exact ⟨key, docs, h.congr rfl rfl rfl⟩
  | keyInactive hactive =>
    rw [h.active] at hactive
    cases hactive
  | noBatches hbatch =>
    exact ⟨_, docs, interrupted_of_rekeyed h.active hsame h.kept (.inl hrecorded)⟩
  | @underway _ docs' htouched hholding hcut =>
    rw [List.nil_append, List.append_nil] at hholding
    have hkept : List.Forall₂ (SamePlaintext env.aead firstKey) docs₀ docs' :=
      forall₂_trans_of_mem h.kept htouched fun _ doc hdoc _ hplain =>
        hplain.touched haead (hopens doc hdoc)
    exact ⟨_, docs', interrupted_of_rekeyed h.active hholding hkept (.inl hholding.stateFiles)⟩

-- An undisturbed resumption does not stop.
theorem Interrupted.no_stop (hstore : env.store.Reliable)
    (h : Interrupted env path collection firstKey docs₀ key docs w)
    (hopens : ∀ doc ∈ docs, ∃ plaintext, doc.Opens env.aead key.key plaintext)
    {batchSize : Nat} (hbatch : batchSize ≠ 0) {now : DateTime} :
    ¬ ResumeStop env ⟨batchSize, path⟩ now (collectionKeyId collection) collection key
      w.restart none [] docs [] w' := by
  intro hstop
  cases hstop with
  | keyUnsaved hcut => exact hcut trivial
  | keyInactive hactive =>
    rw [h.active] at hactive
    cases hactive
  | noBatches hzero => exact hbatch hzero
  | underway _ _ hcut =>
    exact hcut hstore (fun doc hdoc => opensUnder_iff.mpr (hopens doc hdoc)) rfl

-- One attempt keeps what an interrupted rotation has kept; undisturbed, it completes it.
theorem Interrupted.attempt (haead : env.aead.Lawful) (hstore : env.store.Reliable)
    (h : Interrupted env path collection firstKey docs₀ key docs w) (attempt : Attempt)
    (hready : attempt.cut.Allows 1 → Resumable env path collection w) :
    ∃ key' docs', Interrupted env path collection firstKey docs₀ key' docs'
        (attempt.run env path w) ∧
      (attempt.cut = none → attempt.batchSize ≠ 0 →
        (attempt.call env path).outcome attempt.cut w.restart = .ok ⟨⟩ ∧
        List.Forall₂ (SamePlaintextUnder env.aead firstKey key'.key) docs₀ docs' ∧
        ∃ completedAt count, (attempt.run env path w).stateFiles path =
          some (.completed (collectionKeyId collection) completedAt count)) := by
  unfold Attempt.run Attempt.call
  rcases h.recorded with hrecorded | ⟨⟨at', count, hstate⟩, hunder⟩
  · have hstate := hrecorded
    obtain ⟨startedAt, processed, total, checkpoint, hstate⟩ := hstate
    have hkey := h.restart_key
    by_cases hcut : attempt.cut.Allows 1
    · have hload : w.loadRotationState path =
          .reEncrypting (collectionKeyId collection) startedAt processed total checkpoint :=
        (RotationWorld.loadRotationState_eq_iff (by simp)).mpr hstate
      obtain ⟨hremaining, hcurrent⟩ := hready hcut _ _ _ _ _ hload docs h.scan
      have hopens := h.opens hcurrent
      have hspec := resumeFromCheckpoint_spec haead hstore.toLawful ⟨attempt.batchSize, path⟩
        attempt.now w.restart attempt.cut processed total [] [] hrecorded hkey
        (documentsUsing_of_reliable hstore h.scan) hremaining (hstore.scan_collection h.scan)
        (by rw [List.nil_append, List.append_nil]; exact h.scan)
      rcases (hspec.of_run_eq (fun _ _ hw => hw.2)
        (resumeRotation_run_recorded hstate)).outcome_cases ⟨rfl, rfl⟩ with
        ⟨_, _, hok, docs', hall, hholding⟩ | ⟨-, _, hstop⟩
      · rw [List.nil_append, List.append_nil] at hholding
        have hunder : List.Forall₂ (SamePlaintextUnder env.aead firstKey (env.rng.key w.drawn))
            docs₀ docs' :=
          forall₂_trans_of_mem h.kept hall fun _ doc hdoc _ hplain =>
            hplain.processed haead (hopens doc hdoc)
        have hdone := interrupted_of_rekeyed h.active hholding
          (hunder.imp fun _ _ hplain => ⟨_, hplain⟩) (.inr ⟨⟨_, _, hholding.stateFiles⟩, hunder⟩)
        exact ⟨_, docs', hdone, fun _ _ => ⟨hok, hunder, _, _, hholding.stateFiles⟩⟩
      · obtain ⟨key', docs', hkept⟩ := h.stop haead hrecorded hopens hstop
        refine ⟨key', docs', hkept, fun hnone hbatch => ?_⟩
        rw [hnone] at hstop
        exact absurd hstop (h.no_stop hstore hopens hbatch)
    · -- the key file could not be written, so nothing is persisted
      have hspec := resumeFromCheckpoint_unsaved env ⟨attempt.batchSize, path⟩ attempt.now
        checkpoint processed total hkey hcut
      rcases (hspec.of_run_eq (fun _ _ hw => hw.2)
        (resumeRotation_run_recorded hstate)).outcome_cases ⟨rfl, rfl⟩ with
        ⟨_, _, -, hfalse⟩ | ⟨-, _, hw⟩
      · exact hfalse.elim
      · rw [hw]
        refine ⟨key, docs, h.congr rfl rfl rfl, fun hnone => ?_⟩
        rw [hnone] at hcut
        exact absurd trivial hcut
  · -- the rotation is already completed, and the call does nothing
    rw [Program.final, Program.outcome, resumeRotation_run_completed hstate]
    exact ⟨key, docs, h.congr rfl rfl rfl, fun _ _ => ⟨rfl, hunder, at', count, hstate⟩⟩

-- Any number of attempts keeps what an interrupted rotation has kept.
theorem Interrupted.runAttempts (haead : env.aead.Lawful) (hstore : env.store.Reliable)
    {attempts : List Attempt} (h : Interrupted env path collection firstKey docs₀ key docs w)
    (hall : AllResumable env path collection attempts w) :
    ∃ key' docs', Interrupted env path collection firstKey docs₀ key' docs'
      (runAttempts env path attempts w) := by
  induction attempts generalizing key docs w with
  | nil => exact ⟨key, docs, h⟩
  | cons attempt attempts ih =>
    obtain ⟨key', docs', h', -⟩ := h.attempt haead hstore attempt hall.1
    exact ih h' hall.2

theorem runAttempts_append (attempts attempts' : List Attempt) (w : RotationWorld σ) :
    runAttempts env path (attempts ++ attempts') w =
      runAttempts env path attempts' (runAttempts env path attempts w) := by
  induction attempts generalizing w with
  | nil => rfl
  | cons attempt attempts ih => exact ih (attempt.run env path w)

theorem allResumable_append {attempts attempts' : List Attempt} :
    AllResumable env path collection (attempts ++ attempts') w ↔
      AllResumable env path collection attempts w ∧
        AllResumable env path collection attempts' (VedDb.runAttempts env path attempts w) := by
  induction attempts generalizing w with
  | nil => exact (and_iff_right trivial).symm
  | cons attempt attempts ih =>
    rw [List.cons_append, AllResumable, AllResumable, ih, and_assoc]
    rfl

/-! ## From the rotation to its end -/

-- Before the rotation every document has its plaintext.
theorem samePlaintext_refl {aead : Aead}
    (hopens : ∀ doc ∈ docs, ∃ plaintext, doc.Opens aead key.key plaintext) :
    List.Forall₂ (SamePlaintext aead key.key) docs docs := by
  rw [List.forall₂_same]
  intro doc hdoc
  obtain ⟨plaintext, hopen⟩ := hopens doc hdoc
  exact ⟨key.key, rfl, plaintext, hopen, hopen⟩

-- A rotation that is cut off inside its re-encryption loop, or not at all.
theorem rotateKey_interrupted (haead : env.aead.Lawful) (hstore : env.store.Reliable)
    (hkey : w.keyManager.keys[collectionKeyId collection]? = some key)
    (hactive : key.active = true)
    (hscan : env.store.scanEncryptedCollection w.storage collection = .ok docs)
    (hopens : ∀ doc ∈ docs, ∃ plaintext, doc.Opens env.aead key.key plaintext)
    (hstart : (w.loadRotationState path).canStartRotation = true) (batchSize : Nat)
    (now : DateTime) {cut : Cut} (hcut : cut.Allows 2) :
    ∃ key' docs', Interrupted env path collection key.key docs key' docs'
      ((KeyRotationScheduler.rotateKey env ⟨batchSize, path⟩ now
        (collectionKeyId collection)).final cut w) := by
  have hfirst := samePlaintext_refl hopens
  have hspec := rotateKey_spec haead hstore.toLawful ⟨batchSize, path⟩ now cut [] [] hstart hkey
    (documentsUsing_of_reliable hstore hscan) (hstore.scan_collection hscan)
    (by rw [List.nil_append, List.append_nil, hscan])
  have hrecorded : ∀ {files : String → Option KeyRotationState} {total : Nat},
      savedState w path (.reEncrypting (collectionKeyId collection) now 0 total none) files →
        recordedIn path (collectionKeyId collection) files := by
    rintro files total rfl
    exact ⟨_, _, _, _, Function.update_self ..⟩
  -- all documents through the loop
  have hthrough : ∀ {files : (String → Option KeyRotationState) → Prop} {w' : RotationWorld σ},
      Through env ⟨batchSize, path⟩ now (collectionKeyId collection) collection key w cut files
        [] docs [] w' →
      ∃ docs', Holding env collection (w.rekeyed env.rng now (collectionKeyId collection) key)
          files docs' w' ∧
        List.Forall₂ (SamePlaintextUnder env.aead key.key (env.rng.key w.drawn)) docs docs' := by
    rintro files w' hthrough
    obtain ⟨docs', hall, hholding⟩ := hthrough.holding
    rw [List.nil_append, List.append_nil] at hholding
    refine ⟨docs', hholding, ?_⟩
    exact forall₂_trans_of_mem hfirst hall fun _ doc hdoc _ hplain =>
      hplain.processed haead (hopens doc hdoc)
  have hcases := hspec.outcome_cases ⟨rfl, rfl⟩
  generalize Program.final _ cut w = w' at hcases ⊢
  rcases hcases with ⟨_, _, -, hdone⟩ | ⟨-, _, hstop⟩
  · obtain ⟨docs', hholding, hunder⟩ := hthrough hdone
    exact ⟨_, docs', interrupted_of_rekeyed hactive hholding
      (hunder.imp fun _ _ hplain => ⟨_, hplain⟩) (.inr ⟨⟨_, _, hholding.stateFiles⟩, hunder⟩)⟩
  · cases hstop with
    | keyUnsaved hone => exact absurd (hcut.mono (by decide)) hone
    | unrecorded _ htwo => exact absurd hcut (htwo hactive)
    | noBatches _ _ hholding =>
      rw [List.nil_append, List.append_nil] at hholding
      exact ⟨_, docs, interrupted_of_rekeyed hactive hholding hfirst
        (.inl (hrecorded hholding.stateFiles))⟩
    | underway _ hstopped _ =>
      obtain ⟨docs', htouched, hholding⟩ := hstopped.touched
      rw [List.nil_append, List.append_nil] at hholding
      refine ⟨_, docs', interrupted_of_rekeyed hactive hholding ?_
        (.inl (hrecorded hholding.stateFiles))⟩
      exact forall₂_trans_of_mem hfirst htouched fun _ doc hdoc _ hplain =>
        hplain.touched haead (hopens doc hdoc)
    | unfinished hdone =>
      obtain ⟨docs', hholding, hunder⟩ := hthrough hdone
      exact ⟨_, docs', interrupted_of_rekeyed hactive hholding
        (hunder.imp fun _ _ hplain => ⟨_, hplain⟩) (.inl (hrecorded hholding.stateFiles))⟩

structure RotationFinished (env : RotationEnv σ) (path collection : String) (firstKey : Bytes)
    (docs₀ : List EncryptedDocumentRef) (w : RotationWorld σ) : Prop where
  documents : ∃ file key docs, w.keyFile = some file ∧
    file.keys[collectionKeyId collection]? = some key ∧
    env.store.scanEncryptedCollection w.storage collection = .ok docs ∧
    List.Forall₂ (SamePlaintextUnder env.aead firstKey key.key) docs₀ docs
  completed : ∃ completedAt count, w.stateFiles path =
    some (.completed (collectionKeyId collection) completedAt count)

/-- A rotation cut off anywhere in its loop, then any number of attempts to resume it, cut off
anywhere, then one that is not cut off: if each of them that replaces the key finds every document
under the key in the file and none before its checkpoint, the last one returns and the rotation is
finished. -/
theorem resume_finishes (haead : env.aead.Lawful) (hstore : env.store.Reliable)
    (hsettled : Settled env w) (hkey : w.keyManager.keys[collectionKeyId collection]? = some key)
    (hactive : key.active = true)
    (hscan : env.store.scanEncryptedCollection w.storage collection = .ok docs)
    (hstart : (w.loadRotationState path).canStartRotation = true) (batchSize : Nat)
    (now : DateTime) {cut : Cut} (hcut : cut.Allows 2) (attempts : List Attempt) (last : Attempt)
    (hlast : last.cut = none) (hbatch : last.batchSize ≠ 0)
    (hall : AllResumable env path collection (attempts ++ [last])
      ((KeyRotationScheduler.rotateKey env ⟨batchSize, path⟩ now
        (collectionKeyId collection)).final cut w)) :
    (last.call env path).outcome none (runAttempts env path attempts
        ((KeyRotationScheduler.rotateKey env ⟨batchSize, path⟩ now
          (collectionKeyId collection)).final cut w)).restart = .ok ⟨⟩ ∧
      RotationFinished env path collection key.key docs (runAttempts env path (attempts ++ [last])
        ((KeyRotationScheduler.rotateKey env ⟨batchSize, path⟩ now
          (collectionKeyId collection)).final cut w)) := by
  have hopens := hsettled.opens_key hkey hscan
  obtain ⟨key₁, docs₁, h₁⟩ := rotateKey_interrupted haead hstore hkey hactive hscan hopens hstart
    batchSize now hcut
  generalize (KeyRotationScheduler.rotateKey env ⟨batchSize, path⟩ now
    (collectionKeyId collection)).final cut w = w₁ at hall h₁ ⊢
  rw [allResumable_append] at hall
  rw [runAttempts_append]
  obtain ⟨key₂, docs₂, h₂⟩ := h₁.runAttempts haead hstore hall.1
  obtain ⟨key₃, docs₃, h₃, hfinish⟩ := h₂.attempt haead hstore last hall.2.1
  obtain ⟨hok, hunder, hcompleted⟩ := hfinish hlast hbatch
  obtain ⟨file, hfile, hkey₃⟩ := h₃.keyFile
  rw [hlast] at hok
  exact ⟨hok, ⟨file, key₃, docs₃, hfile, hkey₃, h₃.scan, hunder⟩, hcompleted⟩

def usersCutOff (effects : Nat) : RotationWorld DocumentTable :=
  (usersScheduler.rotateKey tableEnv epoch (collectionKeyId "users")).final
    (some (effects, .crash)) usersWorld

def undisturbed : Attempt := ⟨100, epoch, none⟩

-- Cut off after the document, the rotation is resumable.
theorem usersCutOff_resumable : Resumable tableEnv "./encryption" "users" (usersCutOff 3) := by
  intro keyId startedAt processed total checkpoint hload docs hscan
  have hstate : (usersCutOff 3).loadRotationState "./encryption" =
      .reEncrypting (collectionKeyId "users") epoch 0 1 none := rfl
  rw [hstate] at hload
  cases hload
  cases hscan
  refine ⟨rfl, ?_⟩
  intro doc hdoc
  refine ⟨_, _, rfl, Std.ExtTreeMap.getElem?_insert_self, [7], ?_⟩
  revert doc
  decide +kernel

theorem resume_finishes_users :
    RotationFinished tableEnv "./encryption" "users" usersKey.key usersTable.docs
      (runAttempts tableEnv "./encryption" [undisturbed] (usersCutOff 3)) :=
  (resume_finishes prefixCipher_lawful DocumentTable.storage_reliable usersWorld_settled
    usersKeys_users rfl rfl rfl 100 epoch (show Cut.Allows (some (3, .crash)) 2 by decide)
    [] undisturbed rfl (by decide) ⟨fun _ => usersCutOff_resumable, trivial⟩).2

/-- Cut off before the document, the rotation is resumed with a third key: the call returns, the
rotation is recorded as completed, and the document is still under the first key. -/
theorem resume_loses_user : Settled tableEnv usersWorld ∧
    (undisturbed.call tableEnv "./encryption").outcome none (usersCutOff 2).restart = .ok ⟨⟩ ∧
    (∃ completedAt count, (undisturbed.run tableEnv "./encryption"
      (usersCutOff 2)).stateFiles "./encryption" =
        some (.completed (collectionKeyId "users") completedAt count)) ∧
    ¬ RotationFinished tableEnv "./encryption" "users" usersKey.key usersTable.docs
      (runAttempts tableEnv "./encryption" [undisturbed] (usersCutOff 2)) := by
  refine ⟨usersWorld_settled, rfl, ⟨epoch, 0, rfl⟩, ?_⟩
  rintro ⟨⟨file, key, docs, hfile, hkey, hscan, hunder⟩, -⟩
  -- the key in the file is the third one, and the document is as it was
  have hthird : (runAttempts tableEnv "./encryption" [undisturbed] (usersCutOff 2)).keyFile.map
      (fun file => file.keys[collectionKeyId "users"]?.map EncryptionKey.key) =
        some (some (countingRng.key 3)) := by
    decide +kernel
  rw [hfile, Option.map_some, hkey, Option.map_some, Option.some.injEq, Option.some.injEq] at hthird
  cases hscan
  have hdocs : (runAttempts tableEnv "./encryption" [undisturbed] (usersCutOff 2)).storage.scan
      "users" = [sealedUser (countingRng.key 0)] := by
    decide +kernel
  rw [hdocs] at hunder
  obtain ⟨⟨-, plaintext, -, hopen⟩, -⟩ := List.forall₂_cons.mp hunder
  have hbytes := DocumentEncryption.decrypt_one_key prefixCipher_lawful hopen sealedUser_opens
  rw [hthird] at hbytes
  exact absurd hbytes (by decide)

end VedDb
