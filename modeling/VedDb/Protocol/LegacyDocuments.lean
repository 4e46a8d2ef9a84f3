import VedDb.Lib.VersionedMap
import VedDb.Protocol.Compatibility
import VedDb.Protocol.Documents
import VedDb.Storage.Refinement

/-!
# The documents of the version 1 keys

A collection with one document for each key of a map, as long as no key is set while it has one.
What the handlers of the version 2 commands do on it is what the map does.
-/

namespace VedDb

open LittleEndian (Bytes)
open CompatibilityHandler (keyFilter setDocument setRequest getRequest delRequest)

namespace LegacyKv

/-- The fields of the document of a `SET`. -/
def fields (key : String) (value : Bytes) : Fields :=
  (Std.ExtTreeMap.empty.insert "key" (.string key)).insert "value" (.binary value)

theorem getByPath_key (key : String) (value : Bytes) :
    (fields key value).getByPath "key" = some (.string key) := rfl

structure StandsFor (db : Database) (docs : DocumentId → Option (String × Bytes))
    (map : VersionedMap Bytes Bytes) : Prop where
  contents : ∀ id, db legacyKvCollection id =
    (docs id).map fun (key, value) => (id, fields key value)
  separate : ∀ other, db.Holds other → ¬(legacyKvCollection ++ ":").toList <+: other.toList
  distinct : ∀ {id id' key value value'}, docs id = some (key, value) →
    docs id' = some (key, value') → id = id'
  held : ∀ key value, map.get (utf8 key) = some value ↔ ∃ id, docs id = some (key, value)

/-- A scan found the documents of the keys, each once. -/
structure Scanned (docs : DocumentId → Option (String × Bytes)) (found : List Document) : Prop where
  nodup : (found.map Document.id).Nodup
  owned : ∀ doc ∈ found, ∃ key value, docs doc.id = some (key, value) ∧
    doc.fields = fields key value
  complete : ∀ id, docs id ≠ none → ∃ doc ∈ found, doc.id = id

namespace StandsFor

variable {db : Database} {docs : DocumentId → Option (String × Bytes)}
  {map : VersionedMap Bytes Bytes} {key : String} {value : Bytes}

theorem empty (hempty : ¬db.Holds legacyKvCollection)
    (hseparate : ∀ other, db.Holds other → ¬(legacyKvCollection ++ ":").toList <+: other.toList) :
    StandsFor db (fun _ => none) ∅ where
  contents id := by
    by_contra hne
    exact hempty ⟨id, hne⟩
  separate := hseparate
  distinct h := nomatch h
  held key value := by
    have hnone : (∅ : VersionedMap Bytes Bytes)[utf8 key]? = none := Std.ExtTreeMap.getElem?_empty
    rw [VersionedMap.get, hnone]
    simp

/-! ## Writing -/

theorem docs_ne_of_missing (h : StandsFor db docs map) (hmissing : map[utf8 key]? = none)
    (id : DocumentId) (value : Bytes) : docs id ≠ some (key, value) := by
  intro hdocs
  have hheld := (h.held key value).mpr ⟨id, hdocs⟩
  rw [VersionedMap.get, hmissing] at hheld
  cases hheld

/-- A document that is of other keys, before and after, says nothing about a key. -/
theorem held_update (h : StandsFor db docs map) {id : DocumentId} {new : Option (String × Bytes)}
    (hold : docs id ≠ some (key, value)) (hnew : new ≠ some (key, value)) :
    map.get (utf8 key) = some value ↔
      ∃ other, Function.update docs id new other = some (key, value) := by
  rw [h.held]
  apply exists_congr
  intro other
  rw [Function.update_apply]
  by_cases hother : other = id
  · rw [if_pos hother, hother]
    exact iff_of_false hold hnew
  · rw [if_neg hother]

/-- A key that is set while the map lacks it gets the one document it has. -/
theorem insert (h : StandsFor db docs map) {id : DocumentId} (hfresh : docs id = none)
    (hmissing : map[utf8 key]? = none) :
    StandsFor (db.insert legacyKvCollection id (id, fields key value))
      (Function.update docs id (some (key, value))) (map.put (utf8 key) value) where
  contents other := by
    rw [Database.insert, Function.update_apply]
    by_cases hid : other = id
    · rw [if_pos ⟨rfl, hid⟩, if_pos hid, hid]
      rfl
    · rw [if_neg fun heq => hid heq.2, if_neg hid]
      exact h.contents other
  separate other := by
    rintro ⟨id', hother⟩
    by_cases hname : other = legacyKvCollection
    · rw [hname]
      exact not_prefix_append_colon legacyKvCollection
    · apply h.separate other
      rw [Database.insert, if_neg fun heq => hname heq.1] at hother
      exact ⟨id', hother⟩
  distinct {id₁ id₂ key' value₁ value₂} h₁ h₂ := by
    have hnone := h.docs_ne_of_missing hmissing
    rw [Function.update_apply] at h₁ h₂
    split at h₁
    next heq₁ =>
      cases h₁
      split at h₂
      next heq₂ => rw [heq₁, heq₂]
      next => exact absurd h₂ (hnone id₂ value₂)
    next =>
      split at h₂
      next =>
        cases h₂
        exact absurd h₁ (hnone id₁ value₁)
      next => exact h.distinct h₁ h₂
  held key' value' := by
    rw [VersionedMap.put_of_none hmissing, VersionedMap.get, lookup_insert]
    by_cases hkey : key' = key
    · rw [hkey, if_pos rfl]
      constructor
      · intro hvalue
        cases hvalue
        exact ⟨id, Function.update_self id _ docs⟩
      · rintro ⟨id', hid'⟩
        rw [Function.update_apply] at hid'
        split at hid'
        next =>
          cases hid'
          rfl
        next => exact absurd hid' (h.docs_ne_of_missing hmissing id' value')
    · rw [if_neg fun heq => hkey (utf8_injective heq).symm]
      apply h.held_update
      · rw [hfresh]
        intro heq
        cases heq
      · intro heq
        cases heq
        exact hkey rfl

theorem erase (h : StandsFor db docs map) {id : DocumentId} (hid : docs id = some (key, value)) :
    StandsFor (db.erase legacyKvCollection id) (Function.update docs id none)
      (map.erase (utf8 key)) where
  contents other := by
    rw [Database.erase, Function.update_apply]
    by_cases hother : other = id
    · rw [if_pos ⟨rfl, hother⟩, if_pos hother]
      rfl
    · rw [if_neg fun heq => hother heq.2, if_neg hother]
      exact h.contents other
  separate other := by
    rintro ⟨id', hother⟩
    apply h.separate other
    rw [Database.erase] at hother
    split at hother
    · exact absurd rfl hother
    · exact ⟨id', hother⟩
  distinct {id₁ id₂ key' value₁ value₂} h₁ h₂ := by
    rw [Function.update_apply] at h₁ h₂
    split at h₁
    · cases h₁
    · split at h₂
      · cases h₂
      · exact h.distinct h₁ h₂
  held key' value' := by
    rw [VersionedMap.get, lookup_erase]
    by_cases hkey : key' = key
    · rw [hkey, if_pos rfl]
      apply iff_of_false
      · intro hvalue
        cases hvalue
      · rintro ⟨id', hid'⟩
        rw [Function.update_apply] at hid'
        split at hid'
        next => cases hid'
        next hne => exact hne (h.distinct hid' hid)
    · rw [if_neg fun heq => hkey (utf8_injective heq).symm]
      apply h.held_update
      · rw [hid]
        intro heq
        cases heq
        exact hkey rfl
      · intro heq
        cases heq

/-! ## Reading -/

/-- A scan finds the documents of the keys, each once. -/
theorem scanCollection (h : StandsFor db docs map) {json : DocumentJson} {layer : PersistentLayer}
    (hlayer : layer.Represents json db) (now : DateTime) :
    ∃ found, layer.scanCollection json now legacyKvCollection = .ok found ∧
      Scanned docs found := by
  have ⟨found, hscan, ids, hids, hmem, hcontents⟩ :=
    (hlayer.scanCollection_lists_iff legacyKvCollection now).mpr h.separate
  have hown : ∀ id ∈ ids, (db legacyKvCollection id).map Prod.fst = some id := by
    intro id hid
    have hne := (hmem id).mp hid
    rw [h.contents] at hne ⊢
    cases hdocs : docs id with
    | none =>
      rw [hdocs] at hne
      exact absurd rfl hne
    | some entry => rfl
  have hsame : ids = found.map Document.id := by
    have hfst := congrArg (List.map (Option.map Prod.fst)) hcontents
    rw [List.map_map, List.map_map, List.map_map] at hfst
    have hids : ids.map (Option.map Prod.fst ∘ db legacyKvCollection) = ids.map some :=
      List.map_congr_left hown
    rw [hids] at hfst
    apply List.map_injective_iff.mpr (Option.some_injective DocumentId)
    rw [hfst, List.map_map]
    rfl
  refine ⟨found, hscan, hsame ▸ hids, ?_, ?_⟩
  · intro doc hdoc
    have hcontent : some doc.content ∈ (found.map Document.content).map some :=
      List.mem_map_of_mem (List.mem_map_of_mem hdoc)
    rw [← hcontents, List.mem_map] at hcontent
    have ⟨id, hid, hdb⟩ := hcontent
    rw [h.contents, Option.map_eq_some_iff] at hdb
    have ⟨⟨key, value⟩, hdocs, heq⟩ := hdb
    have hid' : id = doc.id := congrArg Prod.fst heq
    rw [hid'] at hdocs
    exact ⟨key, value, hdocs, (congrArg Prod.snd heq).symm⟩
  · intro id hid
    have hdb : db legacyKvCollection id ≠ none := by
      rw [h.contents]
      simpa using hid
    have hid := (hmem id).mpr hdb
    rw [hsame, List.mem_map] at hid
    exact hid

end StandsFor

/-! ## The documents of one key -/

/-- The condition that the filter on a key makes of a document. -/
def hasKey (key : String) (doc : Document) : Bool :=
  (doc.getByPath "key").any fun v => v.eq (.string key)

theorem matchesFilter_key (regex : RegexCrate) (doc : Document) (key : String) :
    matchesFilter regex doc (.eq "key" (.string key)) = .ok (hasKey key doc) := by
  rw [matchesFilter, hasKey]

theorem hasKey_iff {doc : Document} {key key' : String} {value : Bytes}
    (h : doc.fields = fields key' value) : hasKey key doc = true ↔ key' = key := by
  rw [hasKey, Document.getByPath, h, getByPath_key]
  exact beq_iff_eq

theorem filter_hasKey_of_missing {db : Database} {docs : DocumentId → Option (String × Bytes)}
    {map : VersionedMap Bytes Bytes} {found : List Document} {key : String}
    (h : StandsFor db docs map) (hfound : Scanned docs found) (hmissing : map[utf8 key]? = none) :
    found.filter (hasKey key) = [] := by
  rw [List.filter_eq_nil_iff]
  intro doc hdoc hkey
  have ⟨key', value, hdocs, hfields⟩ := hfound.owned doc hdoc
  rw [(hasKey_iff hfields).mp hkey] at hdocs
  exact h.docs_ne_of_missing hmissing doc.id value hdocs

theorem filter_hasKey_of_held {db : Database} {docs : DocumentId → Option (String × Bytes)}
    {map : VersionedMap Bytes Bytes} {found : List Document} {key : String} {value : Bytes}
    (h : StandsFor db docs map) (hfound : Scanned docs found)
    (hheld : map.get (utf8 key) = some value) :
    ∃ doc, found.filter (hasKey key) = [doc] ∧ docs doc.id = some (key, value) ∧
      doc.fields = fields key value := by
  have ⟨id, hid⟩ := (h.held key value).mp hheld
  have ⟨doc, hdoc, hdocId⟩ := hfound.complete id (by rw [hid]; exact nofun)
  have ⟨key', value', hdocs, hfields⟩ := hfound.owned doc hdoc
  rw [hdocId, hid] at hdocs
  cases hdocs
  refine ⟨doc, ?_, hdocId ▸ hid, hfields⟩
  have hnodup : (found.filter (hasKey key)).Nodup := hfound.nodup.of_map.filter _
  -- two documents of one key are the same
  have hall : ∀ other ∈ found.filter (hasKey key), other = doc := by
    intro other hother
    rw [List.mem_filter] at hother
    have ⟨key', value', hdocs, hfields⟩ := hfound.owned other hother.1
    rw [(hasKey_iff hfields).mp hother.2] at hdocs
    apply List.inj_on_of_nodup_map hfound.nodup hother.1 hdoc
    rw [hdocId]
    exact h.distinct hdocs hid
  have hmem : doc ∈ found.filter (hasKey key) :=
    List.mem_filter.mpr ⟨hdoc, (hasKey_iff hfields).mpr rfl⟩
  have hreplicate := List.eq_replicate_of_mem hall
  rw [hreplicate] at hnodup hmem ⊢
  have hlength := List.nodup_replicate.mp hnodup
  have hpos := List.length_pos_of_mem hmem
  rw [List.length_replicate] at hpos
  rw [show (found.filter (hasKey key)).length = 1 by omega]
  rfl

/-! ## The commands on the collection -/

section

variable {C : Type} {env : StorageEnv C} {regex : RegexCrate} {now : DateTime}
  {engine : HybridStorageEngine C} {db : Database} {docs : DocumentId → Option (String × Bytes)}
  {map : VersionedMap Bytes Bytes} {key : String} {value : Bytes}

theorem keyFilter_toPlainJson (key : String) :
    (keyFilter key).toPlainJson = .object [("key", .string key)] := rfl

theorem parseFilter_key (key : String) :
    QueryParser.parseFilter (.object [("key", .string key)]) = .ok (.eq "key" (.string key)) := rfl

structure Stores (env : StorageEnv C) (engine : HybridStorageEngine C) (db : Database) : Prop where
  plain : engine.Plain
  represents : engine.persistentLayer.Represents env.json db

theorem Stores.insert (h : Stores env engine db) {id : DocumentId}
    (hround : env.json.RoundTrips (setDocument now id key value)) :
    ∃ engine', DocumentCommand.insert env now engine
        { collection := legacyKvCollection, document := setDocument now id key value } =
          (.ok (), engine') ∧
      Stores env engine' (db.insert legacyKvCollection id (id, fields key value)) := by
  have ⟨layer, hinsert, hlayer⟩ :=
    h.represents.insertDocument legacyKvCollection id hround
  have hpersist : engine.persist (engine.persistentLayer.insertDocument env.json
      legacyKvCollection id (setDocument now id key value)) =
      (.ok (), { engine with persistentLayer := layer }) := by
    rw [hinsert]
    rfl
  have hengine : engine.insertDocument env.cache env.json now legacyKvCollection
      (setDocument now id key value) =
      (.ok id, { engine with persistentLayer := layer }) := by
    have hid : (setDocument now id key value).id = id := rfl
    simp only [HybridStorageEngine.insertDocument, HybridStorageEngine.writeDocument,
      h.plain.schema_eq_none, hid, hpersist]
  refine ⟨{ engine with persistentLayer := layer }, ?_, ?_, hlayer⟩
  · rw [DocumentCommand.insert, hengine]
  · exact ⟨h.plain.schemas_eq, h.plain.queue_eq⟩

theorem Stores.scanned (h : Stores env engine db) (now : DateTime) (hmap : StandsFor db docs map) :
    ∃ found, DocumentCommand.scanned env now engine legacyKvCollection = .ok found ∧
      Scanned docs found := by
  have ⟨found, hscan, hfound⟩ := hmap.scanCollection h.represents now
  refine ⟨found, ?_, hfound⟩
  rw [DocumentCommand.scanned, HybridStorageEngine.scanCollection, hscan]

theorem Stores.query (h : Stores env engine db) (regex : RegexCrate) (now : DateTime) (key : String)
    (hmap : StandsFor db docs map) :
    ∃ found, Scanned docs found ∧
      DocumentCommand.query env regex now engine
        { collection := legacyKvCollection, filter := some (keyFilter key), projection := none,
          sort := none, skip := none, limit := some 1 } =
        .ok (.array ((found.filter (hasKey key)).map DocumentCommand.answered)) := by
  have ⟨found, hscan, hfound⟩ := h.scanned now hmap
  refine ⟨found, hfound, ?_⟩
  have hmatched : executeCollectionScan regex (.eq "key" (.string key)) found =
      .ok (found.filter (hasKey key)) :=
    executeCollectionScan_eq_filter fun doc _ => matchesFilter_key regex doc key
  simp only [DocumentCommand.query, DocumentCommand.found, Option.map_some, Option.getD_some,
    keyFilter_toPlainJson, parseFilter_key, hscan, hmatched, Except.map]

theorem deleteMatching_eq (key : String) (found : List Document) (count : Nat)
    (engine : HybridStorageEngine C) :
    DocumentCommand.deleteMatching env regex now legacyKvCollection (.eq "key" (.string key)) found
        count engine =
      DocumentCommand.deleteMatching env regex now legacyKvCollection (.eq "key" (.string key))
        (found.filter (hasKey key)) count engine := by
  induction found generalizing count engine with
  | nil => rfl
  | cons doc found ih =>
    cases hkey : hasKey key doc with
    | false =>
      rw [List.filter_cons_of_neg (by rw [hkey]; decide), ← ih,
        DocumentCommand.deleteMatching, matchesFilter_key, hkey]
    | true =>
      rw [List.filter_cons_of_pos hkey, DocumentCommand.deleteMatching,
        DocumentCommand.deleteMatching, matchesFilter_key, hkey]
      dsimp only
      split
      · exact ih _ _
      · exact ih _ _

theorem Stores.delete (h : Stores env engine db) (regex : RegexCrate) (now : DateTime)
    (hmap : StandsFor db docs map)
    (hheld : map.get (utf8 key) = some value) :
    ∃ id engine', docs id = some (key, value) ∧
      DocumentCommand.delete env regex now engine
        { collection := legacyKvCollection, filter := keyFilter key } = (.ok 1, engine') ∧
      Stores env engine' (db.erase legacyKvCollection id) := by
  have ⟨found, hscan, hfound⟩ := h.scanned now hmap
  have ⟨doc, hdoc, hdocs, _⟩ := filter_hasKey_of_held hmap hfound hheld
  have hexisted : (engine.persistentLayer.deleteDocument legacyKvCollection doc.id).1 = true := by
    show engine.persistentLayer.documents.contains _ = true
    rw [h.represents.contains, hmap.contents, hdocs]
    rfl
  have hdelete := h.plain.deleteDocument_eq env.cache now legacyKvCollection doc.id
  rw [hexisted] at hdelete
  have hkey : hasKey key doc = true :=
    (List.mem_filter.mp (hdoc ▸ List.mem_singleton_self doc)).2
  refine ⟨doc.id, { engine with
      persistentLayer := (engine.persistentLayer.deleteDocument legacyKvCollection doc.id).2 },
    hdocs, ?_, ⟨h.plain.schemas_eq, h.plain.queue_eq⟩,
    h.represents.deleteDocument legacyKvCollection doc.id⟩
  rw [DocumentCommand.delete, DocumentCommand.parsedFilter, keyFilter_toPlainJson,
    parseFilter_key]
  dsimp only
  rw [hscan]
  dsimp only
  rw [deleteMatching_eq, hdoc, DocumentCommand.deleteMatching, matchesFilter_key, hkey]
  dsimp only
  rw [hdelete]
  rfl

end

end LegacyKv

end VedDb
