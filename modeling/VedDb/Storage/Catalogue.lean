import Mathlib.Data.List.Dedup
import Mathlib.Data.List.Sort
import VedDb.Storage.Keys

/-!
# Collections and indexes

The scans and the catalogue operations of `storage/persistent.rs`.  The list of collections is never
read back from the metadata: `get_collections_list` derives it from the document keys.  What
`create_collection` and `drop_collection` save under the metadata key `collections` is written only.
-/

namespace VedDb

open LittleEndian (Bytes)

/-! ## Scans -/

namespace PersistentLayer

/-- The loop of `scan_collection` over the entries under the collection's key bytes. -/
def decodeDocuments (json : DocumentJson) (now : DateTime) :
    List (Bytes × Bytes) → Except StorageError (List Document)
  | [] => .ok []
  | (_, value) :: entries =>
    match json.fromSlice value with
    | .error e => .error (.deserializeDocument e)
    | .ok (id, fields) =>
      match decodeDocuments json now entries with
      | .error e => .error e
      | .ok documents =>
        .ok ({ id := id, fields := fields, metadata := DocumentMetadata.default now } ::
          documents)

/-- `scan_collection`: the documents whose key starts with the collection's name and a colon. -/
def scanCollection (json : DocumentJson) (now : DateTime) (layer : PersistentLayer)
    (collection : String) : Except StorageError (List Document) :=
  decodeDocuments json now
    (layer.documents.toList.filter fun entry => (utf8 (collection ++ ":")).isPrefixOf entry.1)

/-- The collection of a document key: what stands before its first colon, if the key is UTF-8. -/
def collectionOfKey (key : Bytes) : Option String :=
  match String.fromUTF8? ⟨⟨key⟩⟩ with
  | none => none
  | some text =>
    if ':' ∈ text.toList then some (String.ofList (text.toList.takeWhile (· ≠ ':'))) else none

/-- `get_collections_list`: the distinct collections of the document keys, sorted. -/
def listCollections (layer : PersistentLayer) : List String :=
  ((layer.documents.keys.filterMap collectionOfKey).dedup).insertionSort (· ≤ ·)

theorem listCollections_nodup (layer : PersistentLayer) : layer.listCollections.Nodup := by
  unfold listCollections
  rw [(List.perm_insertionSort _ _).nodup_iff]
  exact List.nodup_dedup _

end PersistentLayer

/-- `serde_json::Number`. -/
inductive JsonNumber where
  | posInt (n : UInt64)
  | negInt (i : Int64)
  | float (f : F64)
  deriving DecidableEq

/-- `serde_json::Value`.  An object is the sorted entry list of its `BTreeMap`. -/
inductive JsonValue where
  | null
  | bool (b : Bool)
  | number (n : JsonNumber)
  | string (s : String)
  | array (items : List JsonValue)
  | object (members : List (String × JsonValue))

/-- `Number::from(i32)`. -/
def JsonNumber.ofInt32 (i : Int32) : JsonNumber :=
  if 0 ≤ i.toInt then .posInt (UInt64.ofNat i.toInt.toNat) else .negInt (Int64.ofInt i.toInt)

/-- `value.get(key)`. -/
def JsonValue.get (value : JsonValue) (key : String) : Option JsonValue :=
  match value with
  | .object members => members.lookup key
  | _ => none

def JsonValue.asStr : JsonValue → Option String
  | .string s => some s
  | _ => none

/-- `value.as_u64()`. -/
def JsonValue.asUInt64 : JsonValue → Option UInt64
  | .number (.posInt n) => some n
  | _ => none

/-- `serde_json` on the two lists the catalogue stores. -/
structure CatalogueJson where
  collectionsToVec : List String → Except String Bytes
  indexesToVec : List JsonValue → Except String Bytes
  indexesFromSlice : Bytes → Except String (List JsonValue)

structure IndexField where
  field : String
  direction : Int32
  deriving DecidableEq

def IndexField.toJson (f : IndexField) : JsonValue :=
  .object [("direction", .number (.ofInt32 f.direction)), ("field", .string f.field)]

/-- The description `create_index` stores. -/
def indexJson (name : String) (fields : List IndexField) (unique : Bool) : JsonValue :=
  .object [("fields", .array (fields.map IndexField.toJson)), ("name", .string name),
    ("unique", .bool unique)]

/-- `idx.get("name").and_then(|v| v.as_str()) == Some(name)`. -/
def isIndexNamed (name : String) (idx : JsonValue) : Bool :=
  (idx.get "name").bind JsonValue.asStr == some name

/-! ## Catalogue operations -/

namespace PersistentLayer

variable (catalogue : CatalogueJson)

def saveCollectionsList (layer : PersistentLayer) (collections : List String) :
    Except StorageError PersistentLayer :=
  match catalogue.collectionsToVec collections with
  | .error e => .error (.serializeCollectionsList e)
  | .ok data => .ok (layer.storeMetadata "collections" data)

def createCollection (layer : PersistentLayer) (name : String) :
    Except StorageError PersistentLayer :=
  let collections := layer.listCollections
  if name ∈ collections then .ok layer
  else layer.saveCollectionsList catalogue (collections ++ [name])

/-- The first part of `drop_collection`: remove every document under the collection's name and a
colon. -/
def removeDocuments (layer : PersistentLayer) (collection : String) : PersistentLayer :=
  let keysToRemove := layer.documents.keys.filter fun key =>
    (utf8 (collection ++ ":")).isPrefixOf key
  { layer with documents := keysToRemove.foldl (fun docs key => docs.erase key) layer.documents }

/-- `drop_collection`.  A failure to save the list of collections comes after the documents are
gone. -/
def dropCollection (layer : PersistentLayer) (collection : String) :
    Except StorageError Unit × PersistentLayer :=
  let layer := (layer.removeDocuments collection).deleteMetadata ("collection:" ++ collection)
  let collections := layer.listCollections
  let saved :=
    if collection ∈ collections then
      layer.saveCollectionsList catalogue (collections.erase collection)
    else .ok layer
  match saved with
  | .error e => (.error e, layer)
  | .ok layer => (.ok (), layer.deleteMetadata ("indexes:" ++ collection))

def getIndexesList (layer : PersistentLayer) (collection : String) :
    Except StorageError (List JsonValue) :=
  match layer.metadata["indexes:" ++ collection]? with
  | none => .ok []
  | some data =>
    match catalogue.indexesFromSlice data with
    | .error e => .error (.parseIndexesList e)
    | .ok indexes => .ok indexes

def saveIndexesList (layer : PersistentLayer) (collection : String) (indexes : List JsonValue) :
    Except StorageError PersistentLayer :=
  match catalogue.indexesToVec indexes with
  | .error e => .error (.serializeIndexesList e)
  | .ok data => .ok (layer.storeMetadata ("indexes:" ++ collection) data)

def createIndex (layer : PersistentLayer) (collection name : String) (fields : List IndexField)
    (unique : Bool) : Except StorageError PersistentLayer :=
  match layer.getIndexesList catalogue collection with
  | .error e => .error e
  | .ok indexes =>
    if indexes.any (isIndexNamed name) then .ok layer
    else
      layer.saveIndexesList catalogue collection (indexes ++ [indexJson name fields unique])

def dropIndex (layer : PersistentLayer) (collection name : String) :
    Except StorageError PersistentLayer :=
  match layer.getIndexesList catalogue collection with
  | .error e => .error e
  | .ok indexes =>
    match indexes.findIdx? (isIndexNamed name) with
    | none => .ok layer
    | some pos => layer.saveIndexesList catalogue collection (indexes.eraseIdx pos)

/-! ## What the catalogue operations do -/

theorem mem_listCollections {layer : PersistentLayer} {name : String} :
    name ∈ layer.listCollections ↔
      ∃ key ∈ layer.documents.keys, collectionOfKey key = some name := by
  rw [listCollections, List.mem_insertionSort, List.mem_dedup, List.mem_filterMap]

-- A key is listed under what stands before the first colon of its collection's name.
theorem collectionOfKey_eq (collection : String) (docId : DocumentId) :
    collectionOfKey (makeDocumentKey collection docId) =
      some (String.ofList (collection.toList.takeWhile (· ≠ ':'))) := by
  have hchars : (collection ++ ":" ++ docId.toString).toList =
      collection.toList ++ ':' :: docId.toString.toList := by
    simp
  rw [collectionOfKey, makeDocumentKey, fromUTF8?_utf8]
  dsimp only
  rw [hchars, if_pos (by simp), Separated.takeWhile_append_cons_eq]

-- A key names its collection when that name has no colon.
theorem collectionOfKey_makeDocumentKey {collection : String} (docId : DocumentId)
    (h : ':' ∉ collection.toList) :
    collectionOfKey (makeDocumentKey collection docId) = some collection := by
  rw [collectionOfKey_eq, Separated.takeWhile_eq_self h, String.ofList_toList]

-- The name a key is listed under is a prefix of it, and holds no colon.
theorem collectionOfKey_eq_some {key : Bytes} {name : String}
    (h : collectionOfKey key = some name) :
    ':' ∉ name.toList ∧ (utf8 (name ++ ":")).isPrefixOf key = true := by
  unfold collectionOfKey at h
  split at h
  · cases h
  · next text htext =>
      split at h
      · next hcolon =>
          cases h
          obtain ⟨hnot, rest, hrest⟩ := Separated.eq_takeWhile_append_cons hcolon
          rw [String.toList_ofList]
          refine ⟨hnot, ?_⟩
          have hname : String.ofList (text.toList.takeWhile (· ≠ ':')) ++ ":" ++
              String.ofList rest = text := by
            apply String.toList_injective
            simp only [String.toList_append, String.toList_ofList, List.append_assoc]
            exact hrest.symm
          rw [List.isPrefixOf_iff_prefix, ← utf8_of_fromUTF8? htext]
          refine ⟨utf8 (String.ofList rest), ?_⟩
          rw [← utf8_append, hname]
      · cases h

theorem getElem?_foldl_erase (keys : List Bytes) (docs : Std.ExtTreeMap Bytes Bytes)
    (key : Bytes) :
    (keys.foldl (fun docs key => docs.erase key) docs)[key]? =
      if key ∈ keys then none else docs[key]? := by
  induction keys generalizing docs with
  | nil => simp
  | cons own keys ih =>
    rw [List.foldl_cons, ih, lookup_erase]
    simp only [List.mem_cons]
    by_cases hkeys : key ∈ keys
    · rw [if_pos hkeys, if_pos (Or.inr hkeys)]
    · by_cases hown : own = key
      · rw [if_neg hkeys, if_pos hown, if_pos (Or.inl hown.symm)]
      · rw [if_neg hkeys, if_neg hown, if_neg (not_or.mpr ⟨Ne.symm hown, hkeys⟩)]

-- Exactly the documents under the collection's name and a colon are gone.
theorem getElem?_removeDocuments (layer : PersistentLayer) (collection : String) (key : Bytes) :
    (layer.removeDocuments collection).documents[key]? =
      if (utf8 (collection ++ ":")).isPrefixOf key then none else layer.documents[key]? := by
  unfold removeDocuments
  dsimp only
  rw [getElem?_foldl_erase]
  by_cases hpre : (utf8 (collection ++ ":")).isPrefixOf key = true
  · rw [if_pos hpre]
    by_cases hmem : key ∈ layer.documents.keys
    · rw [if_pos (List.mem_filter.mpr ⟨hmem, hpre⟩)]
    · rw [if_neg (fun h => hmem (List.mem_filter.mp h).1)]
      rw [Std.ExtTreeMap.mem_keys] at hmem
      exact Std.ExtTreeMap.getElem?_eq_none hmem
  · rw [if_neg hpre, if_neg (fun h => hpre (List.mem_filter.mp h).2)]

-- No key is listed under the name of a collection whose documents were removed.
theorem notMem_listCollections_removeDocuments (layer : PersistentLayer) (collection : String) :
    collection ∉ (layer.removeDocuments collection).listCollections := by
  rw [mem_listCollections]
  intro ⟨key, hkey, hname⟩
  have hpre := (collectionOfKey_eq_some hname).2
  have hnone := getElem?_removeDocuments layer collection key
  rw [if_pos hpre] at hnone
  rw [Std.ExtTreeMap.mem_keys] at hkey
  rw [Std.ExtTreeMap.getElem?_eq_some_getElem hkey] at hnone
  cases hnone

-- Dropping a collection never gets to save the list of collections, and so cannot fail.
theorem dropCollection_eq (layer : PersistentLayer) (collection : String) :
    layer.dropCollection catalogue collection =
      (.ok (), ((layer.removeDocuments collection).deleteMetadata
        ("collection:" ++ collection)).deleteMetadata ("indexes:" ++ collection)) := by
  have hlist : collection ∉ ((layer.removeDocuments collection).deleteMetadata
      ("collection:" ++ collection)).listCollections :=
    notMem_listCollections_removeDocuments layer collection
  unfold dropCollection
  dsimp only
  rw [if_neg hlist]

end PersistentLayer

/-! ## A concrete catalogue codec -/

/-- The JSON array of names that need no escape, and the empty list of indexes. -/
def plainCatalogue : CatalogueJson where
  collectionsToVec names :=
    .ok (utf8 ("[" ++ String.intercalate "," (names.map fun name => "\"" ++ name ++ "\"") ++ "]"))
  indexesToVec indexes :=
    if indexes.isEmpty then .ok (utf8 "[]") else .error "an index is stored"
  indexesFromSlice bytes :=
    if bytes = utf8 "[]" then .ok [] else .error "expected no indexes"

end VedDb
