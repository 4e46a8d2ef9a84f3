import VedDb.Lib.Runs
import VedDb.Replication.Apply

/-!
# Crash replay and replica apply

`apply_operation` and `apply_wal_entry` side by side.  `SameEffect` is the condition, on the store
before a step, under which the two interpreters leave the same store behind.  It is always met by an
operation on a document; an operation on a collection or an index meets it only where both sides
have nothing to write.
-/

namespace VedDb

open LittleEndian (Bytes)

/-! ## Two writes into one layer -/

namespace PersistentLayer

-- Two changes of one layer, each of a single key, agree exactly when neither changes anything.
theorem eq_iff_of_stored {layer a b : PersistentLayer} {k₁ k₂ : Bytes ⊕ String}
    {x y : Option Bytes} (hne : k₁ ≠ k₂)
    (ha : ∀ key, a.stored key = if k₁ = key then x else layer.stored key)
    (hb : ∀ key, b.stored key = if k₂ = key then y else layer.stored key) :
    a = b ↔ layer.stored k₁ = x ∧ layer.stored k₂ = y := by
  constructor
  · intro heq
    subst heq
    refine ⟨?_, ?_⟩
    · have h₁ := ha k₁
      rw [hb k₁, if_neg (Ne.symm hne), if_pos rfl] at h₁
      exact h₁
    · have h₂ := hb k₂
      rw [ha k₂, if_neg hne, if_pos rfl] at h₂
      exact h₂
  · intro ⟨h₁, h₂⟩
    apply ext_stored
    intro key
    rw [ha key, hb key]
    by_cases hk₁ : k₁ = key
    · rw [if_pos hk₁, if_neg (fun hk₂ => hne (hk₁.trans hk₂.symm)), ← hk₁, h₁]
    · rw [if_neg hk₁]
      by_cases hk₂ : k₂ = key
      · rw [if_pos hk₂, ← hk₂, h₂]
      · rw [if_neg hk₂]

theorem eq_self_iff_of_stored {layer a : PersistentLayer} {own : Bytes ⊕ String} {x : Option Bytes}
    (ha : ∀ key, a.stored key = if own = key then x else layer.stored key) :
    a = layer ↔ layer.stored own = x := by
  constructor
  · intro heq
    have hown := ha own
    rw [if_pos rfl, heq] at hown
    exact hown
  · intro hown
    apply ext_stored
    intro key
    rw [ha key]
    split
    · next hkey => rw [← hkey, hown]
    · rfl

/-- Saving the outcome of a serialisation under a metadata key: a failed one saves nothing. -/
def saved (layer : PersistentLayer) (key : String) (data : Except String Bytes) : Option Bytes :=
  match data with
  | .error _ => layer.metadata[key]?
  | .ok bytes => some bytes

/-- The outcome of a serialisation is what the layer already holds under the key, or an error. -/
def Holds (layer : PersistentLayer) (key : String) (data : Except String Bytes) : Prop :=
  ∀ bytes, data = .ok bytes → layer.metadata[key]? = some bytes

theorem stored_eq_saved_iff {layer : PersistentLayer} {key : String} {data : Except String Bytes} :
    layer.stored (.inr key) = layer.saved key data ↔ layer.Holds key data := by
  cases data with
  | error e => simp [saved, Holds, stored]
  | ok bytes => simp [saved, Holds, stored]

-- What the layer holds after such a save.
theorem stored_keep_save (layer : PersistentLayer) (own : String) (data : Except String Bytes)
    (wrap : String → StorageError) (key : Bytes ⊕ String) :
    (layer.keep
      (match data with
      | .error e => .error (wrap e)
      | .ok bytes => .ok (layer.storeMetadata own bytes))).stored key =
      if .inr own = key then layer.saved own data else layer.stored key := by
  cases data with
  | error e =>
    change layer.stored key = if .inr own = key then layer.stored (.inr own) else layer.stored key
    split
    · next hkey => rw [hkey]
    · rfl
  | ok bytes => exact stored_storeMetadata layer own bytes key

end PersistentLayer

/-! ## The condition -/

variable {C : Type}

/-- The two interpreters leave the same store behind an operation. -/
def SameEffect (env : StorageEnv C) (layer : PersistentLayer) : Operation → Prop
  | .insert _ _ _ | .update _ _ _ | .delete _ _ => True
  | .createCollection name schema =>
    layer.Holds ("collection:" ++ name) (env.json.schemaToVec schema) ∧
      (name ∈ layer.listCollections ∨
        layer.Holds "collections"
          (env.catalogue.collectionsToVec (layer.listCollections ++ [name])))
  | .dropCollection name =>
    (∀ key, (utf8 (name ++ ":")).isPrefixOf key = true → layer.documents[key]? = none) ∧
      layer.metadata["indexes:" ++ name]? = none
  | .createIndex collection index =>
    layer.Holds ("index:" ++ collection ++ ":" ++ index.name) (env.json.indexToVec index) ∧
      ∀ fields indexes, index.indexType.toIndexFields = some fields →
        layer.getIndexesList env.catalogue collection = .ok indexes →
        indexes.any (isIndexNamed index.name) = false →
        layer.Holds ("indexes:" ++ collection)
          (env.catalogue.indexesToVec (indexes ++ [indexJson index.name fields index.unique]))
  | .dropIndex collection indexName =>
    layer.metadata["index:" ++ collection ++ ":" ++ indexName]? = none ∧
      ∀ indexes pos, layer.getIndexesList env.catalogue collection = .ok indexes →
        indexes.findIdx? (isIndexNamed indexName) = some pos →
        layer.Holds ("indexes:" ++ collection)
          (env.catalogue.indexesToVec (indexes.eraseIdx pos))

variable {env : StorageEnv C} {now : DateTime} {layer : PersistentLayer}

theorem collectionKey_ne (name : String) : "collection:" ++ name ≠ "collections" := by
  intro h
  have hchars := congrArg (fun s => (String.toList s).drop 10) h
  simp at hchars

theorem indexKey_ne (collection name other : String) :
    "index:" ++ collection ++ ":" ++ name ≠ "indexes:" ++ other := by
  intro h
  have hchars := congrArg (fun s => (String.toList s).drop 5) h
  simp at hchars

-- Replay writes the schema, a replica the list of collections.
theorem createCollection_agree_iff (name : String) (schema : Schema) :
    applyOrSkip env.json now layer (.createCollection name schema) =
        replicaOperation env now layer (.createCollection name schema) ↔
      SameEffect env layer (.createCollection name schema) := by
  have hreplay (key : Bytes ⊕ String) :
      (applyOrSkip env.json now layer (.createCollection name schema)).stored key =
        if .inr ("collection:" ++ name) = key
        then layer.saved ("collection:" ++ name) (env.json.schemaToVec schema)
        else layer.stored key :=
    layer.stored_keep_save _ _ .serializeMetadata key
  have hne : (.inr ("collection:" ++ name) : Bytes ⊕ String) ≠ .inr "collections" :=
    fun h => collectionKey_ne name (Sum.inr.inj h)
  rw [SameEffect, ← PersistentLayer.stored_eq_saved_iff]
  by_cases hlisted : name ∈ layer.listCollections
  · have hreplica : replicaOperation env now layer (.createCollection name schema) = layer := by
      simp only [replicaOperation, PersistentLayer.createCollection, if_pos hlisted,
        PersistentLayer.keep]
    rw [hreplica, PersistentLayer.eq_self_iff_of_stored hreplay]
    exact ⟨fun h => ⟨h, .inl hlisted⟩, fun h => h.1⟩
  · have hreplica (key : Bytes ⊕ String) :
        (replicaOperation env now layer (.createCollection name schema)).stored key =
          if .inr "collections" = key
          then layer.saved "collections"
            (env.catalogue.collectionsToVec (layer.listCollections ++ [name]))
          else layer.stored key := by
      simp only [replicaOperation, PersistentLayer.createCollection, if_neg hlisted]
      exact layer.stored_keep_save _ _ .serializeCollectionsList key
    rw [PersistentLayer.eq_iff_of_stored hne hreplay hreplica,
      @PersistentLayer.stored_eq_saved_iff _ "collections"]
    exact and_congr_right fun _ => ⟨.inr, fun h => h.resolve_left hlisted⟩

-- Replay keeps the documents and the list of indexes, a replica removes both.
theorem dropCollection_agree_iff (name : String) :
    applyOrSkip env.json now layer (.dropCollection name) =
        replicaOperation env now layer (.dropCollection name) ↔
      SameEffect env layer (.dropCollection name) := by
  have hkeys : "collection:" ++ name ≠ "indexes:" ++ name := by
    intro h
    have hchars := congrArg (fun s => (String.toList s).take 1) h
    simp at hchars
  have hreplay (key : Bytes ⊕ String) :
      (applyOrSkip env.json now layer (.dropCollection name)).stored key =
        if .inr ("collection:" ++ name) = key then none else layer.stored key :=
    layer.stored_deleteMetadata _ key
  have hreplica (key : Bytes ⊕ String) :
      (replicaOperation env now layer (.dropCollection name)).stored key =
        if .inr ("indexes:" ++ name) = key then none
        else if .inr ("collection:" ++ name) = key then none
        else (layer.removeDocuments name).stored key := by
    simp only [replicaOperation, PersistentLayer.dropCollection_eq,
      PersistentLayer.stored_deleteMetadata]
  rw [SameEffect]
  constructor
  · intro heq
    have hall (key : Bytes ⊕ String) := (hreplay key).symm.trans (heq ▸ hreplica key)
    refine ⟨fun key hpre => ?_, ?_⟩
    · have hkey := hall (.inl key)
      simp only [reduceCtorEq, if_false, PersistentLayer.stored,
        PersistentLayer.getElem?_removeDocuments, if_pos hpre] at hkey
      exact hkey
    · have hkey := hall (.inr ("indexes:" ++ name))
      rw [if_neg (fun h => hkeys (Sum.inr.inj h)), if_pos rfl] at hkey
      exact hkey
  · rintro ⟨hdocs, hindexes⟩
    apply PersistentLayer.ext_stored
    intro key
    rw [hreplay, hreplica]
    cases key with
    | inl key =>
      simp only [reduceCtorEq, if_false, PersistentLayer.stored,
        PersistentLayer.getElem?_removeDocuments]
      split
      · next hpre => exact hdocs key hpre
      · rfl
    | inr key =>
      by_cases hown : (.inr ("indexes:" ++ name) : Bytes ⊕ String) = .inr key
      · rw [if_pos hown, ← hown, if_neg (fun h => hkeys (Sum.inr.inj h))]
        exact hindexes
      · rw [if_neg hown]
        rfl

-- Replay writes the index under a key of its own, a replica the list of the collection's indexes.
theorem createIndex_agree_iff (collection : String) (index : IndexDefinition) :
    applyOrSkip env.json now layer (.createIndex collection index) =
        replicaOperation env now layer (.createIndex collection index) ↔
      SameEffect env layer (.createIndex collection index) := by
  have hreplay (key : Bytes ⊕ String) :
      (applyOrSkip env.json now layer (.createIndex collection index)).stored key =
        if .inr ("index:" ++ collection ++ ":" ++ index.name) = key
        then layer.saved ("index:" ++ collection ++ ":" ++ index.name) (env.json.indexToVec index)
        else layer.stored key :=
    layer.stored_keep_save _ _ .serializeMetadata key
  have hne : (.inr ("index:" ++ collection ++ ":" ++ index.name) : Bytes ⊕ String) ≠
      .inr ("indexes:" ++ collection) :=
    fun h => indexKey_ne collection index.name collection (Sum.inr.inj h)
  rw [SameEffect, ← PersistentLayer.stored_eq_saved_iff]
  -- the replica writes in one case only: a supported type and a list without the name
  rcases hfields : index.indexType.toIndexFields with - | fields
  · have hreplica : replicaOperation env now layer (.createIndex collection index) = layer := by
      simp only [replicaOperation, hfields]
    rw [hreplica, PersistentLayer.eq_self_iff_of_stored hreplay]
    simp
  rcases hlist : layer.getIndexesList env.catalogue collection with error | indexes
  · have hreplica : replicaOperation env now layer (.createIndex collection index) = layer := by
      simp only [replicaOperation, hfields, PersistentLayer.createIndex, hlist,
        PersistentLayer.keep]
    rw [hreplica, PersistentLayer.eq_self_iff_of_stored hreplay]
    simp
  rcases hnamed : indexes.any (isIndexNamed index.name) with - | -
  · have hreplica (key : Bytes ⊕ String) :
        (replicaOperation env now layer (.createIndex collection index)).stored key =
          if .inr ("indexes:" ++ collection) = key
          then layer.saved ("indexes:" ++ collection) (env.catalogue.indexesToVec
            (indexes ++ [indexJson index.name fields index.unique]))
          else layer.stored key := by
      simp only [replicaOperation, hfields, PersistentLayer.createIndex, hlist, hnamed,
        Bool.false_eq_true, if_false]
      exact layer.stored_keep_save _ _ .serializeIndexesList key
    rw [PersistentLayer.eq_iff_of_stored hne hreplay hreplica,
      @PersistentLayer.stored_eq_saved_iff _ ("indexes:" ++ collection)]
    refine and_congr_right fun _ => ⟨?_, fun h => h fields indexes rfl rfl hnamed⟩
    intro hholds fields' indexes' hfields' hlist' _
    cases hfields'
    cases hlist'
    exact hholds
  · have hreplica : replicaOperation env now layer (.createIndex collection index) = layer := by
      simp only [replicaOperation, hfields, PersistentLayer.createIndex, hlist, hnamed, if_true,
        PersistentLayer.keep]
    rw [hreplica, PersistentLayer.eq_self_iff_of_stored hreplay]
    refine ⟨fun h => ⟨h, ?_⟩, fun h => h.1⟩
    intro fields' indexes' _ hlist' hfalse
    cases hlist'
    rw [hnamed] at hfalse
    cases hfalse

theorem dropIndex_agree_iff (collection indexName : String) :
    applyOrSkip env.json now layer (.dropIndex collection indexName) =
        replicaOperation env now layer (.dropIndex collection indexName) ↔
      SameEffect env layer (.dropIndex collection indexName) := by
  have hreplay (key : Bytes ⊕ String) :
      (applyOrSkip env.json now layer (.dropIndex collection indexName)).stored key =
        if .inr ("index:" ++ collection ++ ":" ++ indexName) = key then none
        else layer.stored key :=
    layer.stored_deleteMetadata _ key
  have hne : (.inr ("index:" ++ collection ++ ":" ++ indexName) : Bytes ⊕ String) ≠
      .inr ("indexes:" ++ collection) :=
    fun h => indexKey_ne collection indexName collection (Sum.inr.inj h)
  rw [SameEffect]
  rcases hlist : layer.getIndexesList env.catalogue collection with error | indexes
  · have hreplica : replicaOperation env now layer (.dropIndex collection indexName) = layer := by
      simp only [replicaOperation, PersistentLayer.dropIndex, hlist, PersistentLayer.keep]
    rw [hreplica, PersistentLayer.eq_self_iff_of_stored hreplay]
    simp [PersistentLayer.stored]
  rcases hpos : indexes.findIdx? (isIndexNamed indexName) with - | pos
  · have hreplica : replicaOperation env now layer (.dropIndex collection indexName) = layer := by
      simp only [replicaOperation, PersistentLayer.dropIndex, hlist, hpos, PersistentLayer.keep]
    rw [hreplica, PersistentLayer.eq_self_iff_of_stored hreplay]
    refine ⟨fun h => ⟨h, ?_⟩, fun h => h.1⟩
    intro indexes' pos' hlist' hpos'
    cases hlist'
    rw [hpos] at hpos'
    cases hpos'
  · have hreplica (key : Bytes ⊕ String) :
        (replicaOperation env now layer (.dropIndex collection indexName)).stored key =
          if .inr ("indexes:" ++ collection) = key
          then layer.saved ("indexes:" ++ collection)
            (env.catalogue.indexesToVec (indexes.eraseIdx pos))
          else layer.stored key := by
      simp only [replicaOperation, PersistentLayer.dropIndex, hlist, hpos]
      exact layer.stored_keep_save _ _ .serializeIndexesList key
    rw [PersistentLayer.eq_iff_of_stored hne hreplay hreplica,
      @PersistentLayer.stored_eq_saved_iff _ ("indexes:" ++ collection)]
    refine and_congr_right fun _ => ⟨?_, fun h => h indexes pos rfl hpos⟩
    intro hholds indexes' pos' hlist' hpos'
    cases hlist'
    cases hpos.symm.trans hpos'
    exact hholds

-- One step, whatever the operation.
theorem operation_agree_iff (layer : PersistentLayer) (operation : Operation) :
    applyOrSkip env.json now layer operation = replicaOperation env now layer operation ↔
      SameEffect env layer operation := by
  cases operation with
  | insert collection id fields => simp [replicaOperation, SameEffect]
  | update collection id changes => simp [replicaOperation, SameEffect]
  | delete collection id =>
    simp [applyOrSkip, applyOperation, replicaOperation, SameEffect]
  | createCollection name schema => exact createCollection_agree_iff name schema
  | dropCollection name => exact dropCollection_agree_iff name
  | createIndex collection index => exact createIndex_agree_iff collection index
  | dropIndex collection indexName => exact dropIndex_agree_iff collection indexName

-- The clock shows in nothing that is stored.
theorem applyOrSkip_now (json : DocumentJson) (now now' : DateTime) (layer : PersistentLayer)
    (operation : Operation) :
    applyOrSkip json now layer operation = applyOrSkip json now' layer operation := by
  cases operation with
  | update collection id changes =>
    unfold applyOrSkip applyOperation
    dsimp only
    unfold PersistentLayer.getDocument
    rcases layer.documents[PersistentLayer.makeDocumentKey collection id]? with - | value
    · rfl
    · rcases hfrom : json.fromSlice value with error | ⟨docId, fields⟩
      · simp only [hfrom]
      · simp only [hfrom, PersistentLayer.updateDocument, PersistentLayer.insertDocument,
          Document.applyChanges_id, Document.applyChanges_fields]
  | insert _ _ _ | delete _ _ | createCollection _ _ | dropCollection _ | createIndex _ _
  | dropIndex _ _ => rfl

/-- **Replay and replica.**  Crash replay and a replica that start from one store hold the same
store after every prefix of a sequence of logged operations, whatever their clocks show, if and only
if each operation meets `SameEffect` on the store replay reaches before it. -/
theorem applyWalEntries_agree_iff (env : StorageEnv C) (now now' : DateTime) (cacheLayer : C)
    (layer : PersistentLayer) (operations : List Operation) :
    (∀ n, (applyWalEntries env now' (.new cacheLayer layer) (operations.take n)).persistentLayer =
        applyAll env.json now (operations.take n) layer) ↔
      MeetsAlong (applyOrSkip env.json now) (SameEffect env) layer operations := by
  have hstep (s : PersistentLayer) (op : Operation) :
      replicaOperation env now' s op = applyOrSkip env.json now s op ↔ SameEffect env s op := by
    rw [applyOrSkip_now env.json now now', eq_comm]
    exact operation_agree_iff s op
  rw [← foldl_take_eq_iff hstep]
  refine forall_congr' fun n => ?_
  rw [(applyWalEntries_plain (HybridStorageEngine.plain_new cacheLayer layer) _).2]
  rfl

/-! ## A dropped collection -/

/-- A cache that keeps nothing. -/
def noCache : CacheOps Unit where
  get _ _ := (none, ())
  setWithTtl _ _ _ _ := (.ok (), ())
  remove _ _ := ()
  clear _ := ()

def plainEnv : StorageEnv Unit :=
  { cache := noCache, json := nullDocuments, catalogue := plainCatalogue }

/-- Replay keeps the document of a dropped collection that a replica removes. -/
theorem dropped_document_survives_replay :
    (applyWalEntries plainEnv 0 (.new () .empty)
        [.insert "users" ⟨1⟩ ∅, .dropCollection "users"]).persistentLayer ≠
      applyAll nullDocuments 0 [.insert "users" ⟨1⟩ ∅, .dropCollection "users"] .empty := by
  intro h
  have hempty := congrArg (fun layer => layer.documents.isEmpty) h
  revert hempty
  decide +kernel

end VedDb
