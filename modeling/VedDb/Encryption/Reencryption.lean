import Mathlib.Data.List.Forall2
import VedDb.Encryption.KeyRotation

/-!
# What re-encryption does to a collection

The re-encryption loops of `key_rotation.rs`, specified over every cut: which documents they have
replaced, what is left as it was, and how many effects they used.  A loop that stops early always
leaves a document behind that it has not touched.
-/

namespace VedDb

open LittleEndian (Bytes)
open Durable

variable {σ : Type} {env : RotationEnv σ} {context : ReEncryptionContext} {collection : String}

/-- What the loop makes of a document that it gets through: a new container with the plaintext of
the old one, or the document as it was, when it does not open under the old key. -/
inductive Processed (aead : Aead) (context : ReEncryptionContext) (doc : EncryptedDocumentRef) :
    EncryptedDocumentRef → Prop
  | resealed {data plaintext : Bytes} : doc.Opens aead context.oldKey plaintext →
      ({ doc with encryptedData := data } : EncryptedDocumentRef).Opens aead context.newKey
        plaintext →
      Processed aead context doc { doc with encryptedData := data }
  | skipped : (∀ plaintext, ¬ doc.Opens aead context.oldKey plaintext) →
      Processed aead context doc doc

/-- Whether the loop re-encrypts a document. -/
def opensUnder (aead : Aead) (key : Bytes) (doc : EncryptedDocumentRef) : Bool :=
  (DocumentEncryption.decrypt aead doc.encryptedData key).isOk

/-- The documents a storage holds in the collection that is re-encrypted, with everything a
re-encryption leaves alone: the keys, what is known of the state files, the other collections. -/
structure Holding (env : RotationEnv σ) (collection : String) (w₀ : RotationWorld σ)
    (files : (String → Option KeyRotationState) → Prop) (docs : List EncryptedDocumentRef)
    (w : RotationWorld σ) : Prop where
  keyManager : w.keyManager = w₀.keyManager
  keyFile : w.keyFile = w₀.keyFile
  stateFiles : files w.stateFiles
  scan : env.store.scanEncryptedCollection w.storage collection = .ok docs
  scan_other : ∀ other, other ≠ collection →
    env.store.scanEncryptedCollection w.storage other =
      env.store.scanEncryptedCollection w₀.storage other

variable {w₀ : RotationWorld σ} {files : (String → Option KeyRotationState) → Prop}

-- Two relations along a list, composed.
theorem forall₂_trans_of_mem {α β γ : Type*} {r : α → β → Prop} {s : β → γ → Prop}
    {t : α → γ → Prop} {as : List α} {bs : List β} {cs : List γ} (hrs : List.Forall₂ r as bs)
    (hst : List.Forall₂ s bs cs) (h : ∀ a, ∀ b ∈ bs, ∀ c, r a b → s b c → t a c) :
    List.Forall₂ t as cs := by
  induction hrs generalizing cs with
  | nil =>
    cases hst
    exact .nil
  | cons hhead _ ih =>
    cases hst with
    | cons hhead' htail' =>
      refine .cons (h _ _ List.mem_cons_self _ hhead hhead') (ih htail' ?_)
      exact fun a b hb => h a b (List.mem_cons_of_mem _ hb)

/-! ## One document -/

-- With distinct identifiers a replacement concerns one document only.
theorem map_replace_append {before after : List EncryptedDocumentRef} {doc : EncryptedDocumentRef}
    {data : Bytes} (h : ((before ++ doc :: after).map EncryptedDocumentRef.docId).Nodup) :
    (before ++ doc :: after).map (EncryptedDocumentRef.replace doc.docId data) =
      before ++ { doc with encryptedData := data } :: after := by
  have hother : ∀ docs : List EncryptedDocumentRef, (∀ d ∈ docs, d.docId ≠ doc.docId) →
      docs.map (EncryptedDocumentRef.replace doc.docId data) = docs := by
    intro docs hdocs
    calc docs.map (EncryptedDocumentRef.replace doc.docId data)
      _ = docs.map id := List.map_congr_left fun d hd => if_neg (hdocs d hd)
      _ = docs := List.map_id docs
  rw [List.map_append, List.map_cons, List.nodup_append] at h
  obtain ⟨-, hcons, hdisjoint⟩ := h
  rw [List.nodup_cons] at hcons
  have hbefore : ∀ d ∈ before, d.docId ≠ doc.docId := by
    intro d hd
    exact hdisjoint d.docId (List.mem_map_of_mem hd) doc.docId List.mem_cons_self
  have hafter : ∀ d ∈ after, d.docId ≠ doc.docId := by
    intro d hd heq
    exact hcons.1 (heq ▸ List.mem_map_of_mem hd)
  rw [List.map_append, List.map_cons, hother before hbefore, hother after hafter]
  congr 2
  exact if_pos rfl

-- An update of a scanned document, seen in the storage.
theorem updateEncryptedDocument_spec (hstore : env.store.Lawful) {cut₀ : Cut} {used : Nat}
    {before after : List EncryptedDocumentRef} {doc : EncryptedDocumentRef} {data : EncryptedData}
    (hdata : data.nonce.length = 12) :
    Program.Spec
      (fun cut w => cut₀ = cut.plus used ∧
        Holding env collection w₀ files (before ++ doc :: after) w)
      (updateEncryptedDocument env collection doc.docId data.toBytes)
      (fun _ cut w => cut₀ = cut.plus (used + 1) ∧ Holding env collection w₀ files
        (before ++ { doc with encryptedData := data.toBytes } :: after) w)
      (fun _ w => Holding env collection w₀ files (before ++ doc :: after) w ∧
        (env.store.Reliable → ¬ cut₀.Allows (used + 1))) := by
  apply Program.Spec.read_bind
  intro w₁
  dsimp only [id]
  cases hupdate : env.store.updateEncryptedDocument w₁.storage collection doc.docId
      data.toBytes with
  | error e =>
    apply Program.Spec.fail
    rintro cut w ⟨rfl, rfl, h⟩
    refine ⟨h, fun hreliable => ?_⟩
    -- the document is still there, so a reliable storage takes the update
    obtain ⟨s', hs'⟩ := hreliable.update_ok data.toBytes h.scan
      (List.mem_append_right before List.mem_cons_self)
    rw [hupdate] at hs'
    cases hs'
  | ok storage =>
    obtain ⟨docs, hscan, hnodup, hscan'⟩ := hstore.scan_update hdata hupdate
    apply Program.Spec.effect
    · rintro cut w ⟨rfl, hcut, h⟩
      rw [Cut.plus_plus, Nat.add_comm] at hcut
      refine ⟨hcut, h.keyManager, h.keyFile, h.stateFiles, ?_, ?_⟩
      · have hdocs := h.scan
        rw [hscan] at hdocs
        cases hdocs
        rw [← map_replace_append hnodup]
        exact hscan'
      · intro other hne
        rw [← h.scan_other other hne]
        exact hstore.scan_update_other hdata hupdate hne
    · rintro cut w ⟨rfl, rfl, h⟩ hcut
      exact ⟨h, fun _ hallows => hcut (Cut.allows_plus_add.mp hallows)⟩

-- Drawing a nonce changes nothing that is held.
theorem Holding.draw {docs : List EncryptedDocumentRef} {w : RotationWorld σ}
    (h : Holding env collection w₀ files docs w) (n : Nat) :
    Holding env collection w₀ files docs { w with drawn := n } :=
  ⟨h.keyManager, h.keyFile, h.stateFiles, h.scan, h.scan_other⟩

theorem opensUnder_iff {aead : Aead} {key : Bytes} {doc : EncryptedDocumentRef} :
    opensUnder aead key doc = true ↔ ∃ plaintext, doc.Opens aead key plaintext := by
  unfold opensUnder EncryptedDocumentRef.Opens
  cases DocumentEncryption.decrypt aead doc.encryptedData key with
  | error e => simp [Except.isOk, Except.toBool]
  | ok plaintext => simp [Except.isOk, Except.toBool]

-- One turn of the loop.
theorem reencryptDocument_spec (haead : env.aead.Lawful) (hstore : env.store.Lawful)
    (hnew : context.newKey.length = 32) {cut₀ : Cut} {used : Nat}
    {before after : List EncryptedDocumentRef} {doc : EncryptedDocumentRef}
    (hdoc : doc.collection = collection) :
    Program.Spec
      (fun cut w => cut₀ = cut.plus used ∧
        Holding env collection w₀ files (before ++ doc :: after) w)
      (reencryptDocument env context doc)
      (fun done cut w => ∃ doc', Processed env.aead context doc doc' ∧
        done = opensUnder env.aead context.oldKey doc ∧
        cut₀ = cut.plus (used + if done then 1 else 0) ∧
        Holding env collection w₀ files (before ++ doc' :: after) w)
      (fun _ w => Holding env collection w₀ files (before ++ doc :: after) w ∧
        (env.store.Reliable → ¬ cut₀.Allows (used + 1))) := by
  unfold reencryptDocument
  cases hopen : DocumentEncryption.decrypt env.aead doc.encryptedData context.oldKey with
  | error e =>
    -- the document is skipped
    apply Program.Spec.pure
    rintro cut w ⟨rfl, h⟩
    refine ⟨doc, .skipped ?_, ?_, rfl, h⟩
    · intro plaintext hplain
      rw [EncryptedDocumentRef.Opens, hopen] at hplain
      cases hplain
    · rw [opensUnder, hopen]
      rfl
  | ok plaintext =>
    have hdone : opensUnder env.aead context.oldKey doc = true := by
      rw [opensUnder, hopen]
      rfl
    dsimp only
    rw [hdoc]
    unfold encryptFresh
    simp only [bind_assoc]
    apply Program.Spec.read_bind
    intro w₁
    dsimp only [id]
    -- what was opened can be sealed again, so the encryption does not fail
    obtain ⟨bytes, hbytes⟩ := DocumentEncryption.encrypt_again haead hopen hnew
      (env.rng.nonce_length w₁.drawn)
    obtain ⟨-, ciphertext, -, rfl⟩ := DocumentEncryption.encrypt_eq_ok hbytes
    have hreopen := DocumentEncryption.decrypt_encrypt haead (env.rng.nonce_length _) hbytes
    rw [hbytes]
    dsimp only
    rw [pure_bind]
    apply Program.Spec.bind (Q := fun _ cut w => cut₀ = cut.plus used ∧
      Holding env collection w₀ files (before ++ doc :: after) w)
    · apply Program.Spec.modify
      rintro cut w ⟨-, hcut, h⟩
      exact ⟨hcut, h.draw _⟩
    intro _
    apply Program.Spec.bind (updateEncryptedDocument_spec hstore (env.rng.nonce_length _))
    intro _
    apply Program.Spec.pure
    rintro cut w ⟨hcut, h⟩
    exact ⟨_, .resealed hopen hreopen, hdone.symm, hcut, h⟩

/-! ## The loops -/

/-- The loop over `todo` stopped at a document: those before it are processed, and it and those
after it are as they were. -/
def Stopped (env : RotationEnv σ) (context : ReEncryptionContext) (collection : String)
    (w₀ : RotationWorld σ) (files : (String → Option KeyRotationState) → Prop)
    (before todo after : List EncryptedDocumentRef) (w : RotationWorld σ) : Prop :=
  ∃ done doc rest done', todo = done ++ doc :: rest ∧
    List.Forall₂ (Processed env.aead context) done done' ∧
    Holding env collection w₀ files (before ++ (done' ++ doc :: (rest ++ after))) w

theorem reencryptBatch_spec (haead : env.aead.Lawful) (hstore : env.store.Lawful)
    (hnew : context.newKey.length = 32) {cut₀ : Cut} {todo after : List EncryptedDocumentRef}
    (htodo : ∀ doc ∈ todo, doc.collection = collection) (used : Nat)
    (before : List EncryptedDocumentRef) :
    Program.Spec
      (fun cut w => cut₀ = cut.plus used ∧
        Holding env collection w₀ files (before ++ (todo ++ after)) w)
      (reencryptBatch env context todo)
      (fun count cut w => ∃ todo', List.Forall₂ (Processed env.aead context) todo todo' ∧
        count = todo.countP (opensUnder env.aead context.oldKey) ∧
        cut₀ = cut.plus (used + count) ∧
        Holding env collection w₀ files (before ++ (todo' ++ after)) w)
      (fun _ w => Stopped env context collection w₀ files before todo after w ∧
        (env.store.Reliable → (∀ doc ∈ todo, opensUnder env.aead context.oldKey doc = true) →
          ¬ cut₀.Allows (used + todo.length))) := by
  induction todo generalizing used before with
  | nil =>
    apply Program.Spec.pure
    rintro cut w ⟨rfl, h⟩
    exact ⟨[], .nil, rfl, rfl, h⟩
  | cons doc docs ih =>
    have hdoc : doc.collection = collection := htodo doc List.mem_cons_self
    have hdocs : ∀ d ∈ docs, d.collection = collection :=
      fun d hd => htodo d (List.mem_cons_of_mem doc hd)
    unfold reencryptBatch
    apply Program.Spec.bind
    · -- a stop inside the first document leaves it and all after it alone
      refine (reencryptDocument_spec haead hstore hnew hdoc).imp (fun _ _ _ h => h) ?_
      rintro cut w ⟨h, hcut⟩
      refine ⟨⟨[], doc, docs, [], rfl, .nil, h⟩, fun hreliable _ hallows => ?_⟩
      exact hcut hreliable (hallows.mono (by simp only [List.length_cons]; omega))
    intro done
    apply Program.Spec.of_exists
    intro doc'
    apply Program.Spec.of_and
    intro hprocessed
    apply Program.Spec.of_and
    intro hdone
    -- what is left is the loop over the others, after the processed document
    have hloop := ih hdocs (used + if done then 1 else 0) (before ++ [doc'])
    simp only [List.append_assoc, List.singleton_append] at hloop
    apply Program.Spec.bind
    · refine hloop.imp (fun _ _ _ h => h) ?_
      rintro cut w ⟨⟨through, stop, rest, through', rfl, hall, h⟩, hcut⟩
      refine ⟨⟨doc :: through, stop, rest, doc' :: through', rfl, .cons hprocessed hall, ?_⟩, ?_⟩
      · simpa only [List.append_assoc, List.nil_append, List.cons_append] using h
      · intro hreliable hopens hallows
        have hone : done = true := hdone.trans (hopens doc List.mem_cons_self)
        apply hcut hreliable (fun d hd => hopens d (List.mem_cons_of_mem doc hd))
        rw [hone, if_pos rfl]
        exact hallows.mono (by simp only [List.length_cons]; omega)
    intro count
    apply Program.Spec.pure
    rintro cut w ⟨docs', hall, hcount, hcut, h⟩
    refine ⟨doc' :: docs', .cons hprocessed hall, ?_, ?_, h⟩
    · rw [List.countP_cons, ← hdone, ← hcount]
      cases done <;> rfl
    · rw [hcut]
      cases done with
      | true => exact congrArg cut.plus (by simp only [if_true]; omega)
      | false => rfl

-- A batch of two parts is the two batches in turn.
theorem reencryptBatch_append (docs docs' : List EncryptedDocumentRef) :
    reencryptBatch env context (docs ++ docs') = (do
      let count ← reencryptBatch env context docs
      let count' ← reencryptBatch env context docs'
      pure (count + count')) := by
  induction docs with
  | nil =>
    simp only [List.nil_append, reencryptBatch, pure_bind, Nat.zero_add, bind_pure]
  | cons doc docs ih =>
    simp only [List.cons_append, reencryptBatch, ih, bind_assoc, pure_bind]
    congr 1
    funext done
    congr 1
    funext count
    congr 1
    funext count'
    cases done with
    | true => simp only [if_true]; congr 1; omega
    | false => rfl

-- The batches of a rotation are one batch: where they are cut makes no difference.
theorem reencryptChunks_eq (chunks : List (List EncryptedDocumentRef)) (processed : Nat) :
    reencryptChunks env context chunks processed = (do
      let count ← reencryptBatch env context chunks.flatten
      pure (processed + count)) := by
  induction chunks generalizing processed with
  | nil => rfl
  | cons chunk chunks ih =>
    rw [List.flatten_cons, reencryptBatch_append]
    simp only [reencryptChunks, ih, bind_assoc, pure_bind, Nat.add_assoc]

/-! ## The loop of a resumption -/

/-- Some state `ReEncrypting` of the key is recorded. -/
def recordedIn (path keyId : String) (stateFiles : String → Option KeyRotationState) : Prop :=
  ∃ startedAt processed total checkpoint,
    stateFiles path = some (.reEncrypting keyId startedAt processed total checkpoint)

/-- A document that a loop that stopped has been through or not. -/
def Touched (aead : Aead) (context : ReEncryptionContext) (doc doc' : EncryptedDocumentRef) :
    Prop :=
  doc' = doc ∨ Processed aead context doc doc'

theorem touched_refl {aead : Aead} (docs : List EncryptedDocumentRef) :
    List.Forall₂ (Touched aead context) docs docs :=
  List.forall₂_same.mpr fun _ _ => .inl rfl

theorem touched_of_processed {aead : Aead} {docs docs' : List EncryptedDocumentRef}
    (h : List.Forall₂ (Processed aead context) docs docs') :
    List.Forall₂ (Touched aead context) docs docs' :=
  h.imp fun _ _ => .inr

theorem Stopped.touched {before todo after : List EncryptedDocumentRef} {w : RotationWorld σ}
    (h : Stopped env context collection w₀ files before todo after w) :
    ∃ todo', List.Forall₂ (Touched env.aead context) todo todo' ∧
      Holding env collection w₀ files (before ++ (todo' ++ after)) w := by
  obtain ⟨done, doc, rest, done', rfl, hall, hw⟩ := h
  refine ⟨done' ++ doc :: rest, ?_, by simpa only [List.append_assoc, List.cons_append] using hw⟩
  exact List.rel_append (touched_of_processed hall) (touched_refl (doc :: rest))

theorem saveCheckpoint_spec {path keyId : String} {now : DateTime} {processed total : Nat}
    {chunk docs : List EncryptedDocumentRef} (cut₀ : Cut) :
    Program.Spec
      (fun cut w => ∃ used, cut₀ = cut.plus used ∧
        Holding env collection w₀ (recordedIn path keyId) docs w)
      (saveCheckpoint path now keyId processed total chunk)
      (fun _ cut w => ∃ used, cut₀ = cut.plus used ∧
        Holding env collection w₀ (recordedIn path keyId) docs w)
      (fun _ w => Holding env collection w₀ (recordedIn path keyId) docs w ∧ cut₀ ≠ none) := by
  unfold saveCheckpoint
  cases chunk.getLast? with
  | none => exact Program.Spec.pure fun _ _ h => h
  | some last =>
    apply Program.Spec.effect
    · rintro cut w ⟨used, hcut, h⟩
      rw [Cut.plus_plus] at hcut
      exact ⟨1 + used, hcut, h.keyManager, h.keyFile,
        ⟨_, _, _, _, Function.update_self ..⟩, h.scan, h.scan_other⟩
    · rintro cut w ⟨used, rfl, h⟩ hallows
      exact ⟨h, fun hnone => hallows (Cut.allows_of_plus_eq_none hnone 1)⟩

theorem resumeChunks_spec (haead : env.aead.Lawful) (hstore : env.store.Lawful)
    (hnew : context.newKey.length = 32) {path keyId : String} {now : DateTime} {total : Nat}
    {cut₀ : Cut} {chunks : List (List EncryptedDocumentRef)} {after : List EncryptedDocumentRef}
    (hchunks : ∀ doc ∈ chunks.flatten, doc.collection = collection) (processed : Nat)
    (before : List EncryptedDocumentRef) :
    Program.Spec
      (fun cut w => ∃ used, cut₀ = cut.plus used ∧
        Holding env collection w₀ (recordedIn path keyId)
          (before ++ (chunks.flatten ++ after)) w)
      (resumeChunks env path now keyId total context chunks processed)
      (fun count cut w => ∃ used, cut₀ = cut.plus used ∧
        count = processed + chunks.flatten.countP (opensUnder env.aead context.oldKey) ∧
        ∃ todo', List.Forall₂ (Processed env.aead context) chunks.flatten todo' ∧
          Holding env collection w₀ (recordedIn path keyId) (before ++ (todo' ++ after)) w)
      (fun _ w => (∃ todo', List.Forall₂ (Touched env.aead context) chunks.flatten todo' ∧
          Holding env collection w₀ (recordedIn path keyId) (before ++ (todo' ++ after)) w) ∧
        (env.store.Reliable →
          (∀ doc ∈ chunks.flatten, opensUnder env.aead context.oldKey doc = true) →
          cut₀ ≠ none)) := by
  have hundisturbed : ∀ {n : Nat}, ¬ cut₀.Allows n → cut₀ ≠ none := by
    rintro n hallows rfl
    exact hallows trivial
  induction chunks generalizing processed before with
  | nil =>
    apply Program.Spec.pure
    rintro cut w ⟨used, hcut, h⟩
    exact ⟨used, hcut, rfl, [], .nil, h⟩
  | cons chunk chunks ih =>
    rw [List.flatten_cons] at hchunks
    have hchunk : ∀ doc ∈ chunk, doc.collection = collection :=
      fun doc hdoc => hchunks doc (List.mem_append_left _ hdoc)
    have hrest : ∀ doc ∈ chunks.flatten, doc.collection = collection :=
      fun doc hdoc => hchunks doc (List.mem_append_right _ hdoc)
    simp only [List.flatten_cons, List.append_assoc]
    unfold resumeChunks
    apply Program.Spec.of_exists
    intro used
    apply Program.Spec.bind
    · -- a stop inside the batch leaves the batches after it alone
      refine (reencryptBatch_spec haead hstore hnew hchunk used before).imp
        (fun _ _ _ h => h) ?_
      rintro cut w ⟨hstopped, hcut⟩
      obtain ⟨chunk', hall, h⟩ := hstopped.touched
      refine ⟨⟨chunk' ++ chunks.flatten, List.rel_append hall (touched_refl _), ?_⟩, ?_⟩
      · simpa only [List.append_assoc] using h
      · intro hreliable hopens
        exact hundisturbed (hcut hreliable fun doc hdoc =>
          hopens doc (List.mem_append_left _ hdoc))
    intro count
    apply Program.Spec.of_exists
    intro chunk'
    apply Program.Spec.of_and
    intro hall
    apply Program.Spec.of_and
    intro hcount
    apply Program.Spec.bind
    · -- the batch is processed but not its checkpoint saved
      refine (saveCheckpoint_spec cut₀).weaken (fun _ _ h => ⟨_, h⟩)
        (fun _ _ _ h => h) ?_
      rintro cut w ⟨h, hcut⟩
      refine ⟨⟨chunk' ++ chunks.flatten, ?_, ?_⟩, fun _ _ => hcut⟩
      · exact List.rel_append (touched_of_processed hall) (touched_refl _)
      · simpa only [List.append_assoc] using h
    intro _
    -- the batches that are left start from the processed ones
    have hloop := ih hrest (processed + count) (before ++ chunk')
    simp only [List.append_assoc] at hloop
    refine hloop.imp ?_ ?_
    · rintro total' cut w ⟨used', hcut, htotal, todo', htodo, h⟩
      refine ⟨used', hcut, ?_, chunk' ++ todo', List.rel_append hall htodo, ?_⟩
      · rw [htotal, hcount, List.countP_append, Nat.add_assoc]
      · simpa only [List.append_assoc] using h
    · rintro cut w ⟨⟨todo', htodo, h⟩, hcut⟩
      refine ⟨⟨chunk' ++ todo', ?_, ?_⟩, ?_⟩
      · exact List.rel_append (touched_of_processed hall) htodo
      · simpa only [List.append_assoc] using h
      · intro hreliable hopens
        exact hcut hreliable fun doc hdoc => hopens doc (List.mem_append_right _ hdoc)

end VedDb
