import VedDb.Schema

/-!
# The persistent layer

`storage/persistent.rs`: documents under byte keys `collection:id` and metadata under string keys.
The store itself is a finite map, as both the RocksDB column families and the in-memory fallback
are.  Documents travel through `serde_json`, which is not part of the repository: it enters as the
structure `DocumentJson` of the functions the layer calls.
-/

namespace VedDb

open LittleEndian (Bytes)

/-- `serde_json::to_vec` and `serde_json::from_slice` on what the layer stores.  The metadata of a
document is `#[serde(skip)]`, so the codec sees the identifier and the fields only. -/
structure DocumentJson where
  toVec : DocumentId → Fields → Except String Bytes
  fromSlice : Bytes → Except String (DocumentId × Fields)
  schemaToVec : Schema → Except String Bytes
  indexToVec : IndexDefinition → Except String Bytes

structure PersistentLayer where
  documents : Std.ExtTreeMap Bytes Bytes
  metadata : Std.ExtTreeMap String Bytes

/-- The contexts under which an operation of the layer, or of the engine over it, fails. -/
inductive StorageError where
  | serializeDocument (cause : String)
  | deserializeDocument (cause : String)
  | serializeMetadata (cause : String)
  | serializeCollectionsList (cause : String)
  | parseIndexesList (cause : String)
  | serializeIndexesList (cause : String)
  | cache (cause : String)
  | schemaNotFound
  /-- The store refuses a write, which the in-memory fallback never does. -/
  | store (cause : String)
  deriving DecidableEq

/-- The document is read back as written. -/
def DocumentJson.RoundTrips (json : DocumentJson) (doc : Document) : Prop :=
  ∃ value, json.toVec doc.id doc.fields = .ok value ∧
    json.fromSlice value = .ok (doc.id, doc.fields)

namespace PersistentLayer

/-- `PersistentLayer::new` on an empty data directory. -/
def empty : PersistentLayer := { documents := ∅, metadata := ∅ }

/-- `make_document_key`: `format!("{}:{}", collection, doc_id).into_bytes()`. -/
def makeDocumentKey (collection : String) (docId : DocumentId) : Bytes :=
  utf8 (collection ++ ":" ++ docId.toString)

variable (json : DocumentJson)

def insertDocument (layer : PersistentLayer) (collection : String) (docId : DocumentId)
    (doc : Document) : Except StorageError PersistentLayer :=
  match json.toVec doc.id doc.fields with
  | .error e => .error (.serializeDocument e)
  | .ok value =>
    .ok { layer with
      documents := layer.documents.insert (makeDocumentKey collection docId) value }

/-- `get_document`; a decoded document gets the default metadata. -/
def getDocument (now : DateTime) (layer : PersistentLayer) (collection : String)
    (docId : DocumentId) : Except StorageError (Option Document) :=
  match layer.documents[makeDocumentKey collection docId]? with
  | none => .ok none
  | some value =>
    match json.fromSlice value with
    | .error e => .error (.deserializeDocument e)
    | .ok (id, fields) =>
      .ok (some { id := id, fields := fields, metadata := DocumentMetadata.default now })

/-- `update_document`: the same overwrite as an insert. -/
def updateDocument (layer : PersistentLayer) (collection : String) (docId : DocumentId)
    (doc : Document) : Except StorageError PersistentLayer :=
  insertDocument json layer collection docId doc

/-- `delete_document`: whether the document existed, and the layer without it. -/
def deleteDocument (layer : PersistentLayer) (collection : String) (docId : DocumentId) :
    Bool × PersistentLayer :=
  let key := makeDocumentKey collection docId
  (layer.documents.contains key, { layer with documents := layer.documents.erase key })

/-- `exists`. -/
def existsDocument (layer : PersistentLayer) (collection : String) (docId : DocumentId) : Bool :=
  layer.documents.contains (makeDocumentKey collection docId)

def storeMetadata (layer : PersistentLayer) (key : String) (value : Bytes) : PersistentLayer :=
  { layer with metadata := layer.metadata.insert key value }

def deleteMetadata (layer : PersistentLayer) (key : String) : PersistentLayer :=
  { layer with metadata := layer.metadata.erase key }

end PersistentLayer

/-! ## A concrete document codec

The JSON `serde_json` writes for a document without fields, or with the one field `n` holding
`Null`; anything else is written as an object without an identifier, which cannot be read back.  The
closed runs over the layer use it in place of the abstract codec. -/

def nullJson (id : DocumentId) (hasField : Bool) : Bytes :=
  utf8 "\x7b\"_id\":\"" ++ asciiBytes id.toChars ++
    utf8 (if hasField then "\",\"n\":\x7b\"type\":\"Null\"\x7d\x7d" else "\"\x7d")

def nullDocuments : DocumentJson where
  toVec id fields :=
    match fields.toList with
    | [] => .ok (nullJson id false)
    | [("n", .null)] => .ok (nullJson id true)
    | _ => .ok (utf8 "\x7b\"_id\":\"\"\x7d")
  fromSlice bytes :=
    let id := DocumentId.ofChars (asciiChars ((bytes.drop 8).take 36))
    if bytes = nullJson id false then .ok (id, ∅)
    else if bytes = nullJson id true then .ok (id, Std.ExtTreeMap.empty.insert "n" .null)
    else .error "expected a document with null fields"
  schemaToVec _ := .error "no schemas"
  indexToVec _ := .error "no indexes"

theorem DocumentId.toChars_ascii {id : DocumentId} {c : Char} (h : c ∈ id.toChars) :
    c.toNat < 128 := by
  by_cases hc : c = '-'
  · rw [hc]
    decide
  · have hmem : c ∈ id.toChars.filter (· ≠ '-') := by
      rw [List.mem_filter]
      exact ⟨h, by simpa using hc⟩
    rw [DocumentId.toChars_filter] at hmem
    exact (hexChars_mem hmem).2.2

theorem DocumentId.length_toChars (id : DocumentId) : id.toChars.length = 36 := by
  simp [DocumentId.toChars]

theorem nullDocuments_fromSlice_nullJson (id : DocumentId) (hasField : Bool) :
    nullDocuments.fromSlice (nullJson id hasField) =
      .ok (id, if hasField then Std.ExtTreeMap.empty.insert "n" .null else ∅) := by
  have hlen := id.length_toChars
  have hid : DocumentId.ofChars (asciiChars (((nullJson id hasField).drop 8).take 36)) = id := by
    have hslice : ((nullJson id hasField).drop 8).take 36 = asciiBytes id.toChars := by
      rw [nullJson, List.append_assoc, List.drop_left' (by decide), List.take_left']
      simp [asciiBytes, hlen]
    rw [hslice, asciiChars_asciiBytes (fun _ => DocumentId.toChars_ascii),
      DocumentId.ofChars_toChars]
  simp only [nullDocuments, hid]
  cases hasField with
  | false => simp
  | true =>
    have hne : nullJson id true ≠ nullJson id false := by
      intro h
      have hlast := (List.append_cancel_left h)
      exact absurd hlast (by decide)
    simp [hne]

/-- A document without fields, and one whose field `n` holds `Null`. -/
def emptyDocument (id : DocumentId) : Document :=
  { id := id, fields := ∅, metadata := .default 0 }

def nullDocument (id : DocumentId) : Document :=
  { id := id, fields := Std.ExtTreeMap.empty.insert "n" .null, metadata := .default 0 }

theorem nullDocuments_roundTrips_empty (id : DocumentId) :
    nullDocuments.RoundTrips (emptyDocument id) :=
  ⟨nullJson id false, rfl, nullDocuments_fromSlice_nullJson id false⟩

theorem nullDocuments_roundTrips_null (id : DocumentId) :
    nullDocuments.RoundTrips (nullDocument id) :=
  ⟨nullJson id true, rfl, nullDocuments_fromSlice_nullJson id true⟩

end VedDb
