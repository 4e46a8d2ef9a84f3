import VedDb.Encryption.Engine

/-!
# What decryption returns

`decrypt_document` decides by the collection's flag of the moment, not by the data: with encryption
off it returns whatever it is given.  So what it makes of the output of an earlier
`encrypt_document` depends on the flag at both calls.
-/

namespace VedDb

open LittleEndian (Bytes)
open Durable

variable {σ : Type} {env : EngineEnv σ} {engine engine' : EncryptionEngine σ}
  {collection : String} {plaintext data : Bytes} {cut : Cut}

namespace EncryptionEngine

/-- Whether the engine encrypts the collection now. -/
def Encrypts (engine : EncryptionEngine σ) (collection : String) : Prop :=
  engine.config.isCollectionEncrypted collection = true

instance (engine : EncryptionEngine σ) (collection : String) :
    Decidable (engine.Encrypts collection) :=
  inferInstanceAs (Decidable (_ = true))

def OpensData (env : EngineEnv σ) (engine : EncryptionEngine σ) (collection : String)
    (data : Bytes) : Prop :=
  ∃ key plaintext, engine.collectionKey collection = .ok key ∧
    DocumentEncryption.decrypt env.aead data key = .ok plaintext

/-! ## The two calls -/

-- A fresh encryption returns a container under the key, with a nonce of the random source.
theorem encryptFresh_spec {key : Bytes} {P : Cut → RotationWorld σ → Prop} :
    Program.Spec P (encryptFresh env.toRotationEnv plaintext key)
      (fun data _ _ => ∃ nonce, nonce.length = 12 ∧
        DocumentEncryption.encrypt env.aead nonce plaintext key = .ok data) (fun _ _ => True) := by
  apply Program.Spec.read_bind
  intro w
  dsimp only [id]
  apply Program.Spec.bind (Q := fun _ _ _ => True)
  · exact Program.Spec.modify fun _ _ _ => trivial
  intro _
  cases hencrypt : DocumentEncryption.encrypt env.aead (env.rng.nonce w.drawn) plaintext key with
  | error e => exact Program.Spec.fail fun _ _ _ => trivial
  | ok data =>
    exact Program.Spec.pure fun _ _ _ => ⟨_, env.rng.nonce_length w.drawn, hencrypt⟩

-- What `encrypt_document` returned: the data itself, or a container under the current key.
theorem encryptDocument_ok
    (hok : (encryptDocument env collection plaintext).outcome cut engine = .ok data) :
    (¬ engine.Encrypts collection ∧ data = plaintext) ∨
      (engine.Encrypts collection ∧ ∃ key nonce, engine.collectionKey collection = .ok key ∧
        nonce.length = 12 ∧
          DocumentEncryption.encrypt env.aead nonce plaintext key = .ok data) := by
  have hspec : Program.Spec (fun _ e => e = engine) (encryptDocument env collection plaintext)
      (fun data _ _ => (¬ engine.Encrypts collection ∧ data = plaintext) ∨
        (engine.Encrypts collection ∧ ∃ key nonce, engine.collectionKey collection = .ok key ∧
          nonce.length = 12 ∧ DocumentEncryption.encrypt env.aead nonce plaintext key = .ok data))
      (fun _ _ => True) := by
    apply Program.Spec.read_bind_of (fun _ _ h => h)
    by_cases hon : engine.Encrypts collection
    · rw [if_pos (show engine.config.isCollectionEncrypted collection = true from hon)]
      cases hkey : engine.collectionKey collection with
      | error e => exact Program.Spec.fail fun _ _ _ => trivial
      | ok key =>
        apply Program.Spec.zoom
        intro _
        refine encryptFresh_spec.imp ?_ (fun _ _ _ => trivial)
        rintro data cut w ⟨nonce, hnonce, hencrypt⟩
        exact .inr ⟨hon, key, nonce, rfl, hnonce, hencrypt⟩
    · rw [if_neg (show ¬ engine.config.isCollectionEncrypted collection = true from hon)]
      exact Program.Spec.pure fun _ _ _ => .inl ⟨hon, rfl⟩
  obtain ⟨_, hdata⟩ := hspec.of_ok rfl hok
  exact hdata

-- With encryption off, the data comes back as it is.
theorem decryptDocument_off (h : ¬ engine.Encrypts collection) :
    decryptDocument env engine collection data = .ok data :=
  if_neg h

-- With encryption on, a result is what the current key opens the data to.
theorem decryptDocument_on (h : engine.Encrypts collection) :
    decryptDocument env engine collection data = .ok plaintext ↔
      ∃ key, engine.collectionKey collection = .ok key ∧
        DocumentEncryption.decrypt env.aead data key = .ok plaintext := by
  unfold decryptDocument
  rw [if_pos (show engine.config.isCollectionEncrypted collection = true from h)]
  cases engine.collectionKey collection with
  | error e => simp
  | ok key =>
    cases hdecrypt : DocumentEncryption.decrypt env.aead data key with
    | error e => simp [hdecrypt]
    | ok opened => simp [hdecrypt]

end EncryptionEngine

/-! ## What turns encryption off -/

open EncryptionEngine

theorem encrypts_iff : engine.Encrypts collection ↔ engine.config.enabled = true ∧
    ∃ c, engine.config.collectionEncryption[collection]? = some c ∧ c.enabled = true := by
  unfold EncryptionEngine.Encrypts EncryptionConfig.isCollectionEncrypted
  cases engine.config.enabled with
  | false => simp
  | true =>
    cases engine.config.collectionEncryption[collection]? with
    | none => simp
    | some c => simp

-- Calls into the key manager and the scheduler leave the configuration alone.
theorem onWorld_encrypts {α : Type} (m : EncryptionM σ α) :
    Program.Spec (fun _ e => EncryptionEngine.Encrypts e collection) (onWorld m)
      (fun _ _ e => e.Encrypts collection) (fun _ e => e.Encrypts collection) := by
  apply Program.Spec.zoom
  intro engine
  apply Program.Spec.of_pre (p := engine.Encrypts collection) (fun _ _ h => h.2)
  intro hon
  exact Program.Spec.trivial.imp (fun _ _ _ _ => hon) (fun _ _ _ => hon)

theorem encryptDocument_encrypts {other : String} {data : Bytes} :
    Program.Spec (fun _ e => EncryptionEngine.Encrypts e collection)
      (encryptDocument env other data) (fun _ _ e => e.Encrypts collection)
      (fun _ e => e.Encrypts collection) := by
  apply Program.Spec.read_bind_any
  intro e
  by_cases hother : e.config.isCollectionEncrypted other = true
  · rw [if_pos hother]
    cases e.collectionKey other with
    | error err => exact Program.Spec.fail fun _ _ h => h
    | ok key => exact onWorld_encrypts _
  · rw [if_neg hother]
    exact Program.Spec.pure fun _ _ h => h

-- One call: nothing but `disable_collection_encryption` of the collection turns it off.
theorem call_encrypts {op : EngineOp} (hne : op ≠ .disableCollectionEncryption collection) :
    Program.Spec (fun _ e => EncryptionEngine.Encrypts e collection) (op.call env)
      (fun _ _ e => e.Encrypts collection) (fun _ e => e.Encrypts collection) := by
  cases op with
  | enableKeyRotation batchSize => exact Program.Spec.modify fun _ _ h => h
  | disableKeyRotation => exact Program.Spec.modify fun _ _ h => h
  | rotateKey now keyId =>
    apply Program.Spec.read_bind_any
    intro e
    cases e.keyRotationScheduler with
    | some scheduler => exact onWorld_encrypts _
    | none =>
      exact Program.Spec.bind (onWorld_encrypts _) fun _ => Program.Spec.pure fun _ _ h => h
  | resumeRotation scheduler now =>
    exact onWorld_encrypts (scheduler.resumeRotation env.toRotationEnv now)
  | enableCollectionEncryption now other =>
    apply Program.Spec.bind (onWorld_encrypts _)
    intro _
    apply Program.Spec.modify
    intro cut e hon
    rw [encrypts_iff] at hon ⊢
    refine ⟨hon.1, ?_⟩
    by_cases heq : other = collection
    · rw [heq]
      exact ⟨_, Std.ExtTreeMap.getElem?_insert_self, rfl⟩
    · obtain ⟨c, hc, henabled⟩ := hon.2
      refine ⟨c, ?_, henabled⟩
      rw [lookup_insert, if_neg heq]
      exact hc
  | disableCollectionEncryption other =>
    have hother : other ≠ collection := fun heq => hne (by rw [heq])
    apply Program.Spec.modify
    intro cut e hon
    cases hother' : e.config.collectionEncryption[other]? with
    | none => exact hon
    | some c =>
      rw [encrypts_iff] at hon ⊢
      obtain ⟨c', hc', henabled⟩ := hon.2
      refine ⟨hon.1, c', ?_, henabled⟩
      rw [lookup_insert, if_neg hother]
      exact hc'
  | encryptDocument other data =>
    exact Program.Spec.bind encryptDocument_encrypts fun _ => Program.Spec.pure fun _ _ h => h

-- Over a run: a collection that is encrypted stays so until it is disabled.
theorem runOps_encrypts {ops : List (EngineOp × Cut)}
    (hops : ∀ op ∈ ops, op.1 ≠ .disableCollectionEncryption collection)
    (hon : engine.Encrypts collection) : (runOps env ops engine).Encrypts collection := by
  induction ops generalizing engine with
  | nil => exact hon
  | cons op ops ih =>
    have hstep : ((op.1.call env).final op.2 engine).Encrypts collection :=
      (call_encrypts (hops op List.mem_cons_self)).final hon
    have hrest := ih (fun op' hop' => hops op' (List.mem_cons_of_mem op hop')) hstep
    unfold EncryptionEngine.runOps
    cases (op.1.call env).outcome op.2 engine with
    | crashed => exact hstep
    | ok _ => exact hrest
    | error _ => exact hrest

/-! ## Fail-closed decryption -/

def FailsClosed (result : Except EncryptionError Bytes) (plaintext : Bytes) : Prop :=
  ∀ bytes, result = .ok bytes → bytes = plaintext

-- Both calls with encryption on: another key than the one it was encrypted under opens nothing.
theorem failsClosed_on (haead : env.aead.Lawful) {key nonce : Bytes} (hnonce : nonce.length = 12)
    (hencrypt : DocumentEncryption.encrypt env.aead nonce plaintext key = .ok data)
    (hon : engine'.Encrypts collection) :
    FailsClosed (decryptDocument env engine' collection data) plaintext := by
  intro bytes hbytes
  obtain ⟨key', -, hopen⟩ := (decryptDocument_on hon).mp hbytes
  have hsealed := DocumentEncryption.decrypt_encrypt haead hnonce hencrypt
  have hkey : key' = key := DocumentEncryption.decrypt_one_key haead hopen hsealed
  rw [hkey, hsealed] at hopen
  exact (Except.ok.inj hopen).symm

-- Encrypted with encryption on, decrypted with encryption off: the container comes back.
theorem not_failsClosed_off (haead : env.aead.Lawful) {key nonce : Bytes}
    (hnonce : nonce.length = 12)
    (hencrypt : DocumentEncryption.encrypt env.aead nonce plaintext key = .ok data)
    (hoff : ¬ engine'.Encrypts collection) :
    ¬ FailsClosed (decryptDocument env engine' collection data) plaintext := by
  intro hclosed
  have hsame := hclosed data (decryptDocument_off hoff)
  have hsealed := DocumentEncryption.decrypt_encrypt haead hnonce hencrypt
  have hlt := DocumentEncryption.length_lt_of_decrypt haead hsealed
  rw [hsame] at hlt
  omega

-- Passed through with encryption off, decrypted with encryption on: the data comes back open if
-- it was a container under the current key to begin with.
theorem failsClosed_passed_iff (haead : env.aead.Lawful) (hon : engine'.Encrypts collection) :
    FailsClosed (decryptDocument env engine' collection plaintext) plaintext ↔
      ¬ engine'.OpensData env collection plaintext := by
  constructor
  · rintro hclosed ⟨key, opened, hkey, hopen⟩
    have hsame := hclosed opened ((decryptDocument_on hon).mpr ⟨key, hkey, hopen⟩)
    have hlt := DocumentEncryption.length_lt_of_decrypt haead hopen
    rw [hsame] at hlt
    omega
  · intro hnot bytes hbytes
    obtain ⟨key, hkey, hopen⟩ := (decryptDocument_on hon).mp hbytes
    exact absurd ⟨key, bytes, hkey, hopen⟩ hnot

/-- Exactly when `decrypt_document`, after any run of the engine, fails closed on the output of an
earlier `encrypt_document`: encryption is not off now if it was on then, and data that was passed
through unencrypted is not itself a container under the key of the moment.  In particular it does
in every run in which the collection, once encrypted, is not disabled. -/
theorem decryptDocument_failsClosed_iff (haead : env.aead.Lawful)
    (hok : (encryptDocument env collection plaintext).outcome cut engine = .ok data)
    (ops : List (EngineOp × Cut))
    (hrun : runOps env ops ((encryptDocument env collection plaintext).final cut engine) =
      engine') :
    (FailsClosed (decryptDocument env engine' collection data) plaintext ↔
      (engine.Encrypts collection → engine'.Encrypts collection) ∧
      (¬ engine.Encrypts collection → engine'.Encrypts collection →
        ¬ engine'.OpensData env collection plaintext)) ∧
    (engine.Encrypts collection →
      (∀ op ∈ ops, op.1 ≠ .disableCollectionEncryption collection) →
        FailsClosed (decryptDocument env engine' collection data) plaintext) := by
  rcases encryptDocument_ok hok with ⟨hoff, rfl⟩ | ⟨hon, key, nonce, -, hnonce, hencrypt⟩
  · refine ⟨?_, fun hon => absurd hon hoff⟩
    by_cases hon' : engine'.Encrypts collection
    · rw [failsClosed_passed_iff haead hon']
      exact ⟨fun hnot => ⟨fun hon => absurd hon hoff, fun _ _ => hnot⟩, fun h => h.2 hoff hon'⟩
    · rw [decryptDocument_off hon']
      refine ⟨fun _ => ⟨fun hon => absurd hon hoff, fun _ hon => absurd hon hon'⟩, fun _ => ?_⟩
      intro bytes hbytes
      exact (Except.ok.inj hbytes).symm
  · constructor
    · by_cases hon' : engine'.Encrypts collection
      · exact ⟨fun _ => ⟨fun _ => hon', fun hoff => absurd hon hoff⟩,
          fun _ => failsClosed_on haead hnonce hencrypt hon'⟩
      · exact ⟨fun hclosed => absurd hclosed (not_failsClosed_off haead hnonce hencrypt hon'),
          fun h => absurd (h.1 hon) hon'⟩
    · intro _ hops
      apply failsClosed_on haead hnonce hencrypt
      rw [← hrun]
      exact runOps_encrypts hops (encryptDocument_encrypts.final hon)

/-- The engine once `users` is encrypted. -/
def usersEngine : EncryptionEngine DocumentTable :=
  runOps tableEngineEnv [(.enableCollectionEncryption epoch "users", none)] freshEngine

/-- One byte, encrypted for `users` by that engine. -/
def sealedByte : Bytes :=
  (EncryptedData.new (countingRng.nonce 1) (countingRng.key 0 ++ [7])).toBytes

theorem usersEngine_encrypt :
    (encryptDocument tableEngineEnv "users" [7]).outcome none usersEngine = .ok sealedByte := by
  decide +kernel

/-- The key is rotated in between: the old container does not open any more. -/
theorem decryptDocument_failsClosed_rotated :
    FailsClosed (decryptDocument tableEngineEnv
      (runOps tableEngineEnv [(.rotateKey epoch (collectionKeyId "users"), none)]
        ((encryptDocument tableEngineEnv "users" [7]).final none usersEngine))
      "users" sealedByte) [7] :=
  (decryptDocument_failsClosed_iff prefixCipher_lawful usersEngine_encrypt
    [(.rotateKey epoch (collectionKeyId "users"), none)] rfl).1.mpr
    ⟨fun _ => by decide +kernel, fun hoff => absurd (by decide +kernel) hoff⟩

/-- Encryption is turned off in between: the container comes back as if it were the document. -/
theorem decryptDocument_returns_ciphertext :
    (encryptDocument tableEngineEnv "users" [7]).outcome none usersEngine = .ok sealedByte ∧
    decryptDocument tableEngineEnv
      (runOps tableEngineEnv [(.disableCollectionEncryption "users", none)]
        ((encryptDocument tableEngineEnv "users" [7]).final none usersEngine))
      "users" sealedByte = .ok sealedByte ∧
    ¬ FailsClosed (decryptDocument tableEngineEnv
      (runOps tableEngineEnv [(.disableCollectionEncryption "users", none)]
        ((encryptDocument tableEngineEnv "users" [7]).final none usersEngine))
      "users" sealedByte) [7] := by
  have hdecrypt : decryptDocument tableEngineEnv
      (runOps tableEngineEnv [(.disableCollectionEncryption "users", none)]
        ((encryptDocument tableEngineEnv "users" [7]).final none usersEngine))
      "users" sealedByte = .ok sealedByte := by
    decide +kernel
  refine ⟨usersEngine_encrypt, hdecrypt, fun hclosed => ?_⟩
  exact absurd (hclosed sealedByte hdecrypt) (by decide +kernel)

end VedDb
