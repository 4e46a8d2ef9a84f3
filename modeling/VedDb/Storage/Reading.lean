import VedDb.Lib.Pointwise
import VedDb.Storage.Catalogue

/-!
# Reading the persistent layer

What a key of the layer reads as, what the writes of the layer do to it, and what a scan decodes.
-/

namespace VedDb

open LittleEndian (Bytes)

/-! ## One key -/

def Decodes (json : DocumentJson) (now : DateTime) (entry : Bytes × Bytes) (doc : Document) :
    Prop :=
  json.fromSlice entry.2 = .ok (doc.id, doc.fields) ∧ doc.metadata = DocumentMetadata.default now

namespace PersistentLayer

def decoded (json : DocumentJson) (layer : PersistentLayer) (key : Bytes) :
    Option (Except String (DocumentId × Fields)) :=
  layer.documents[key]?.map json.fromSlice

/-- What a read makes of it. -/
def documentOf (now : DateTime) :
    Option (Except String (DocumentId × Fields)) → Except StorageError (Option Document)
  | none => .ok none
  | some (.error e) => .error (.deserializeDocument e)
  | some (.ok (id, fields)) =>
    .ok (some { id := id, fields := fields, metadata := DocumentMetadata.default now })

theorem getDocument_eq_documentOf (json : DocumentJson) (now : DateTime) (layer : PersistentLayer)
    (collection : String) (id : DocumentId) :
    layer.getDocument json now collection id =
      documentOf now (layer.decoded json (makeDocumentKey collection id)) := by
  unfold PersistentLayer.getDocument PersistentLayer.decoded
  cases layer.documents[makeDocumentKey collection id]? with
  | none => rfl
  | some value =>
    simp only [Option.map_some]
    cases json.fromSlice value with
    | error e => rfl
    | ok read => rfl

theorem documentOf_injective {now : DateTime} {a b : Option (Except String (DocumentId × Fields))}
    (h : documentOf now a = documentOf now b) : a = b := by
  rcases a with - | e | ⟨id, fields⟩
  · rcases b with - | e' | ⟨id', fields'⟩
    · rfl
    · cases h
    · cases h
  · rcases b with - | e' | ⟨id', fields'⟩
    · cases h
    · cases h
      rfl
    · cases h
  · rcases b with - | e' | ⟨id', fields'⟩
    · cases h
    · cases h
    · cases h
      rfl

-- A read shows exactly what is stored under the key, decoded.
theorem getDocument_eq_iff {json : DocumentJson} {now : DateTime} {a b : PersistentLayer}
    {collection : String} {id : DocumentId} :
    a.getDocument json now collection id = b.getDocument json now collection id ↔
      a.decoded json (makeDocumentKey collection id) =
        b.decoded json (makeDocumentKey collection id) := by
  rw [getDocument_eq_documentOf, getDocument_eq_documentOf]
  exact ⟨documentOf_injective, congrArg (documentOf now)⟩

theorem decoded_congr {json : DocumentJson} {a b : PersistentLayer}
    (h : a.documents = b.documents) (key : Bytes) : a.decoded json key = b.decoded json key := by
  rw [decoded, decoded, h]

theorem decoded_insert (json : DocumentJson) (layer : PersistentLayer) (own value key : Bytes) :
    ({ layer with documents := layer.documents.insert own value } : PersistentLayer).decoded
        json key =
      if own = key then some (json.fromSlice value) else layer.decoded json key := by
  simp only [decoded, lookup_insert]
  split
  · rfl
  · rfl

-- An insert that succeeds stores one value, under the key of its document.
theorem decoded_insertDocument {json : DocumentJson} {layer layer' : PersistentLayer}
    {collection : String} {id : DocumentId} {doc : Document}
    (h : layer.insertDocument json collection id doc = .ok layer') :
    ∃ value, json.toVec doc.id doc.fields = .ok value ∧
      ∀ key, layer'.decoded json key =
        if makeDocumentKey collection id = key then some (json.fromSlice value)
        else layer.decoded json key := by
  unfold insertDocument at h
  cases hto : json.toVec doc.id doc.fields with
  | error e => simp only [hto, reduceCtorEq] at h
  | ok value =>
    simp only [hto, Except.ok.injEq] at h
    refine ⟨value, rfl, fun key => ?_⟩
    rw [← h, decoded_insert]

-- No other key is touched.
theorem decoded_insertDocument_other {json : DocumentJson} {layer layer' : PersistentLayer}
    {collection : String} {id : DocumentId} {doc : Document}
    (h : layer.insertDocument json collection id doc = .ok layer') (key : Bytes)
    (hkey : key ≠ makeDocumentKey collection id) :
    layer'.decoded json key = layer.decoded json key := by
  obtain ⟨value, -, hlayer⟩ := decoded_insertDocument h
  rw [hlayer, if_neg (Ne.symm hkey)]

theorem decoded_deleteDocument (json : DocumentJson) (layer : PersistentLayer)
    (collection : String) (id : DocumentId) (key : Bytes) :
    (layer.deleteDocument collection id).2.decoded json key =
      if makeDocumentKey collection id = key then none else layer.decoded json key := by
  simp only [decoded, deleteDocument, lookup_erase]
  split
  · rfl
  · rfl

theorem decoded_dropCollection (json : DocumentJson) (catalogue : CatalogueJson)
    (layer : PersistentLayer) (collection : String) (key : Bytes) :
    (layer.dropCollection catalogue collection).2.decoded json key =
      if (utf8 (collection ++ ":")).isPrefixOf key then none else layer.decoded json key := by
  have hread := getElem?_removeDocuments layer collection key
  rw [dropCollection_eq]
  show (layer.removeDocuments collection).documents[key]?.map json.fromSlice = _
  rw [hread]
  split
  · rfl
  · rfl

theorem getDocument_eq_none_iff {json : DocumentJson} {now : DateTime}
    {layer : PersistentLayer} {collection : String} {id : DocumentId} :
    layer.getDocument json now collection id = .ok none ↔
      layer.documents[makeDocumentKey collection id]? = none := by
  unfold PersistentLayer.getDocument
  cases layer.documents[makeDocumentKey collection id]? with
  | none => simp
  | some value =>
    dsimp only
    cases json.fromSlice value with
    | error e => simp
    | ok read => simp

theorem getDocument_eq_some_iff {json : DocumentJson} {now : DateTime}
    {layer : PersistentLayer} {collection : String} {id : DocumentId} {doc : Document} :
    layer.getDocument json now collection id = .ok (some doc) ↔
      ∃ value, layer.documents[makeDocumentKey collection id]? = some value ∧
        Decodes json now (makeDocumentKey collection id, value) doc := by
  unfold PersistentLayer.getDocument Decodes
  cases layer.documents[makeDocumentKey collection id]? with
  | none => simp
  | some value =>
    simp only [Option.some.injEq, exists_eq_left']
    cases json.fromSlice value with
    | error e => simp
    | ok read =>
      simp only [Except.ok.injEq, Option.some.injEq]
      constructor
      · intro h
        rw [← h]
        exact ⟨rfl, rfl⟩
      · intro ⟨hread, hmeta⟩
        rw [hread, ← hmeta]

/-! ## Stores whose keys are document keys -/

/-- Every document key was made by `make_document_key`. -/
def Keyed (layer : PersistentLayer) : Prop :=
  ∀ key value, layer.documents[key]? = some value → ∃ collection id,
    key = makeDocumentKey collection id

theorem keyed_empty : PersistentLayer.empty.Keyed := by
  intro key value h
  have hnone : PersistentLayer.empty.documents[key]? = none := Std.ExtTreeMap.getElem?_empty
  rw [hnone] at h
  cases h

theorem Keyed.insertDocument {json : DocumentJson} {layer layer' : PersistentLayer}
    {collection : String} {id : DocumentId} {doc : Document} (hkeyed : layer.Keyed)
    (h : layer.insertDocument json collection id doc = .ok layer') : layer'.Keyed := by
  unfold PersistentLayer.insertDocument at h
  cases hto : json.toVec doc.id doc.fields with
  | error e => simp only [hto, reduceCtorEq] at h
  | ok own =>
    simp only [hto, Except.ok.injEq] at h
    subst h
    intro key value hkey
    rw [lookup_insert] at hkey
    by_cases hown : makeDocumentKey collection id = key
    · exact ⟨collection, id, hown.symm⟩
    · rw [if_neg hown] at hkey
      exact hkeyed key value hkey

theorem Keyed.deleteDocument {layer : PersistentLayer} (hkeyed : layer.Keyed)
    (collection : String) (id : DocumentId) : (layer.deleteDocument collection id).2.Keyed := by
  intro key value hkey
  rw [PersistentLayer.deleteDocument, lookup_erase] at hkey
  split at hkey
  · cases hkey
  · exact hkeyed key value hkey

theorem Keyed.dropCollection {layer : PersistentLayer} (hkeyed : layer.Keyed)
    (catalogue : CatalogueJson) (collection : String) :
    (layer.dropCollection catalogue collection).2.Keyed := by
  intro key value hkey
  rw [dropCollection_eq] at hkey
  have hread := getElem?_removeDocuments layer collection key
  have hsame : (layer.removeDocuments collection).documents[key]? = some value := hkey
  rw [hsame] at hread
  split at hread
  · cases hread
  · exact hkeyed key value hread.symm

end PersistentLayer

/-! ## Scans -/

section

variable {now : DateTime}

theorem decodeDocuments_eq_ok_iff {json : DocumentJson} {entries : List (Bytes × Bytes)}
    {docs : List Document} :
    PersistentLayer.decodeDocuments json now entries = .ok docs ↔
      List.Forall₂ (Decodes json now) entries docs := by
  induction entries generalizing docs with
  | nil =>
    rw [PersistentLayer.decodeDocuments, List.forall₂_nil_left_iff, Except.ok.injEq]
    exact eq_comm
  | cons entry entries ih =>
    rw [PersistentLayer.decodeDocuments, List.forall₂_cons_left_iff]
    cases hfrom : json.fromSlice entry.2 with
    | error e => simp [Decodes, hfrom]
    | ok read =>
      dsimp only
      cases hrest : PersistentLayer.decodeDocuments json now entries with
      | error e =>
        have hnone : ∀ rest, ¬List.Forall₂ (Decodes json now) entries rest := by
          intro rest h
          have heq := ih.mpr h
          rw [hrest] at heq
          cases heq
        simp [hnone]
      | ok rest =>
        have hown := ih.mp hrest
        simp only [Except.ok.injEq]
        constructor
        · intro h
          exact ⟨_, rest, ⟨by rw [hfrom], rfl⟩, hown, h.symm⟩
        · intro ⟨doc, others, ⟨hdoc, hmeta⟩, hothers, hdocs⟩
          have hsame := ih.mpr hothers
          rw [hrest, Except.ok.injEq] at hsame
          rw [hfrom, Except.ok.injEq] at hdoc
          rw [hdocs, ← hsame, hdoc, ← hmeta]

-- A decoding looks at the records only through the codec.
theorem decodeDocuments_congr {json : DocumentJson} {entries entries' : List (Bytes × Bytes)}
    (h : entries.map (fun entry => (entry.1, json.fromSlice entry.2)) =
      entries'.map fun entry => (entry.1, json.fromSlice entry.2)) :
    PersistentLayer.decodeDocuments json now entries =
      PersistentLayer.decodeDocuments json now entries' := by
  induction entries generalizing entries' with
  | nil =>
    rw [List.map_nil, eq_comm, List.map_eq_nil_iff] at h
    rw [h]
  | cons entry entries ih =>
    cases entries' with
    | nil => cases h
    | cons entry' entries' =>
      rw [List.map_cons, List.map_cons, List.cons.injEq, Prod.mk.injEq] at h
      rw [PersistentLayer.decodeDocuments, PersistentLayer.decodeDocuments, h.1.2, ih h.2]

/-- Layers that read alike under every key scan alike. -/
theorem scanCollection_congr {json : DocumentJson} {a b : PersistentLayer}
    (h : ∀ key, a.decoded json key = b.decoded json key) (collection : String) :
    a.scanCollection json now collection = b.scanCollection json now collection := by
  have hmap : a.documents.map (fun _ value => json.fromSlice value) =
      b.documents.map fun _ value => json.fromSlice value := by
    apply Std.ExtTreeMap.ext_getElem?
    intro key
    rw [Std.ExtTreeMap.getElem?_map, Std.ExtTreeMap.getElem?_map]
    exact h key
  have hlist := congrArg (fun tree => tree.toList.filter fun entry =>
    (utf8 (collection ++ ":")).isPrefixOf entry.1) hmap
  simp only [Std.ExtTreeMap.toList_map, List.filter_map] at hlist
  exact decodeDocuments_congr hlist

theorem mem_entries {layer : PersistentLayer} {name : String} {key value : Bytes} :
    (key, value) ∈ (layer.documents.toList.filter fun entry =>
        (utf8 (name ++ ":")).isPrefixOf entry.1) ↔
      layer.documents[key]? = some value ∧ (utf8 (name ++ ":")).isPrefixOf key = true := by
  rw [List.mem_filter, Std.ExtTreeMap.mem_toList_iff_getElem?_eq_some]

end

end VedDb
