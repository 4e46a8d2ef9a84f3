import Mathlib
import VedDb.Query.Filter
import VedDb.Serde.Document
import VedDb.Snapshot.Format
import VedDb.Storage.Refinement

/-!
# Records that cannot be read back

A scan decodes every record of a collection and fails on the first that it cannot.  Queries scan,
and a snapshot writes a collection whose scan fails as an empty one.  So a document must not be
stored in a form that is not read back.
-/

namespace VedDb

open LittleEndian (Bytes)
open PersistentLayer (makeDocumentKey)

/-! ## Reads of a whole collection -/

/-- How a query fails. -/
inductive QueryError where
  | storage (e : StorageError)
  | execution (e : QueryExecutionError)

variable (json : DocumentJson) (regex : RegexCrate) (now : DateTime)

/-- What `HybridStorageEngine::query` and the `Query` command select, before it is sorted, cut and
projected. -/
def queryDocuments (layer : PersistentLayer) (collection : String) (filter : Filter) :
    Except QueryError (List Document) :=
  match layer.scanCollection json now collection with
  | .error e => .error (.storage e)
  | .ok docs =>
    match executeCollectionScan regex filter docs with
    | .error e => .error (.execution e)
    | .ok results => .ok results

namespace PersistentLayer

/-- The records a scan of the collection goes through. -/
def records (layer : PersistentLayer) (collection : String) : List (Bytes × Bytes) :=
  layer.documents.toList.filter fun entry => (utf8 (collection ++ ":")).isPrefixOf entry.1

/-- A snapshot holds a document for every record of the collection. -/
def SnapshotComplete (env : SnapshotEnv) (layer : PersistentLayer) (collection : String) : Prop :=
  (scanOrDefault env now layer collection).length = (layer.records collection).length

/-- Every record of the collection satisfies the predicate. -/
def EachRecord (layer : PersistentLayer) (collection : String) (P : Bytes → Prop) : Prop :=
  ∀ key value, layer.documents[key]? = some value →
    (utf8 (collection ++ ":")).isPrefixOf key = true → P value

variable {json : DocumentJson} {regex : RegexCrate} {now : DateTime} {layer : PersistentLayer}
  {collection : String}

theorem eachRecord_iff {P : Bytes → Prop} :
    layer.EachRecord collection P ↔ ∀ entry ∈ layer.records collection, P entry.2 := by
  constructor
  · intro h entry hentry
    obtain ⟨hstored, hpre⟩ := mem_entries.mp hentry
    exact h entry.1 entry.2 hstored hpre
  · intro h key value hstored hpre
    exact h (key, value) (mem_entries.mpr ⟨hstored, hpre⟩)

-- The documents of a collection whose records all decode.
theorem exists_scan (h : layer.EachRecord collection fun value =>
      ∃ content, json.fromSlice value = .ok content) :
    ∃ docs, List.Forall₂ (Decodes json now) (layer.records collection) docs := by
  apply exists_forall₂
  intro entry hentry
  obtain ⟨content, hcontent⟩ := eachRecord_iff.mp h entry hentry
  exact ⟨⟨content.1, content.2, .default now⟩, hcontent, rfl⟩

theorem scanCollection_ok_iff :
    (∃ docs, layer.scanCollection json now collection = .ok docs) ↔
      layer.EachRecord collection fun value => ∃ content, json.fromSlice value = .ok content := by
  constructor
  · intro ⟨docs, hdocs⟩
    rw [eachRecord_iff]
    intro entry hentry
    obtain ⟨doc, -, hdoc⟩ := exists_of_forall₂_left (decodeDocuments_eq_ok_iff.mp hdocs) hentry
    exact ⟨(doc.id, doc.fields), hdoc.1⟩
  · intro h
    obtain ⟨docs, hdocs⟩ := exists_scan h
    exact ⟨docs, decodeDocuments_eq_ok_iff.mpr hdocs⟩

theorem snapshotComplete_iff {env : SnapshotEnv} :
    layer.SnapshotComplete now env collection ↔
      layer.EachRecord collection fun value =>
        ∃ content, env.json.fromSlice value = .ok content := by
  unfold SnapshotComplete scanOrDefault
  cases hscan : layer.scanCollection env.json now collection with
  | ok docs =>
    have hdocs := decodeDocuments_eq_ok_iff.mp hscan
    exact iff_of_true hdocs.length_eq.symm (scanCollection_ok_iff.mp ⟨docs, hscan⟩)
  | error e =>
    have hfails : ¬layer.EachRecord collection fun value =>
        ∃ content, env.json.fromSlice value = .ok content := by
      intro h
      obtain ⟨docs, hdocs⟩ := scanCollection_ok_iff.mpr h
      rw [hscan] at hdocs
      cases hdocs
    refine iff_of_false ?_ hfails
    intro hlength
    apply hfails
    rw [eachRecord_iff, List.length_eq_zero_iff.mp hlength.symm]
    exact nofun

theorem queryDocuments_ok_iff {filter : Filter} :
    (∃ results, queryDocuments json regex now layer collection filter = .ok results) ↔
      layer.EachRecord collection fun value => ∃ content, json.fromSlice value = .ok content ∧
        ∃ found, matchesFilter regex ⟨content.1, content.2, .default now⟩ filter = .ok found := by
  unfold queryDocuments
  cases hscan : layer.scanCollection json now collection with
  | error e =>
    refine iff_of_false nofun ?_
    intro h
    obtain ⟨docs, hdocs⟩ := scanCollection_ok_iff.mpr fun key value hstored hpre =>
      (h key value hstored hpre).imp fun _ => And.left
    rw [hscan] at hdocs
    cases hdocs
  | ok docs =>
    have hdocs := decodeDocuments_eq_ok_iff.mp hscan
    have hresults : (∃ results, (match executeCollectionScan regex filter docs with
          | .error e => .error (.execution e)
          | .ok results => .ok results : Except QueryError (List Document)) = .ok results) ↔
        ∃ results, executeCollectionScan regex filter docs = .ok results := by
      cases executeCollectionScan regex filter docs with
      | error e => simp
      | ok results => simp
    rw [hresults, executeCollectionScan_ok_iff, eachRecord_iff]
    constructor
    · intro h entry hentry
      obtain ⟨doc, hmem, hfrom, hmeta⟩ := exists_of_forall₂_left hdocs hentry
      refine ⟨(doc.id, doc.fields), hfrom, ?_⟩
      rw [← hmeta]
      exact h doc hmem
    · intro h doc hmem
      obtain ⟨entry, hentry, hfrom, hmeta⟩ := exists_of_forall₂_right hdocs hmem
      obtain ⟨content, hcontent, hfound⟩ := h entry hentry
      rw [hfrom, Except.ok.injEq] at hcontent
      rw [← hcontent, ← hmeta] at hfound
      exact hfound

-- One more record, or another value in a record.
theorem EachRecord.changed {before after : PersistentLayer} {own value : Bytes} {P : Bytes → Prop}
    (h : before.EachRecord collection P)
    (hother : ∀ key, key ≠ own → after.documents[key]? = before.documents[key]?)
    (hown : after.documents[own]? = some value) (hvalue : P value) :
    after.EachRecord collection P := by
  intro key stored hstored hpre
  by_cases hkey : key = own
  · rw [hkey, hown] at hstored
    rw [← Option.some.inj hstored]
    exact hvalue
  · rw [hother key hkey] at hstored
    exact h key stored hstored hpre

end PersistentLayer

/-! ## Storing one document -/

section

variable (json : DocumentJson) (collection : String) (doc : Document)

/-- The layers differ in the record of the document alone, which the second one has: the layers
before and after it is stored, or at any later time the layer as it would be without it and as it
is. -/
structure AddsDocument (before after : PersistentLayer) : Prop where
  other : ∀ key, key ≠ makeDocumentKey collection doc.id →
    after.documents[key]? = before.documents[key]?
  own : ∃ value, json.toVec doc.id doc.fields = .ok value ∧
    after.documents[makeDocumentKey collection doc.id]? = some value

theorem addsDocument_insertDocument {json : DocumentJson} {collection : String} {doc : Document}
    {layer layer' : PersistentLayer}
    (h : layer.insertDocument json collection doc.id doc = .ok layer') :
    AddsDocument json collection doc layer layer' := by
  unfold PersistentLayer.insertDocument at h
  cases hto : json.toVec doc.id doc.fields with
  | error e => simp only [hto, reduceCtorEq] at h
  | ok value =>
    simp only [hto, Except.ok.injEq] at h
    subst h
    constructor
    · intro key hkey
      rw [lookup_insert, if_neg (Ne.symm hkey)]
    · exact ⟨value, hto, Std.ExtTreeMap.getElem?_insert_self⟩

end

structure KeepsWorking (env : SnapshotEnv) (regex : RegexCrate) (filter : Filter)
    (collection : String) (before after : PersistentLayer) : Prop where
  scan : ∀ now, (∃ docs, before.scanCollection env.json now collection = .ok docs) →
    ∃ docs, after.scanCollection env.json now collection = .ok docs
  snapshot : ∀ now, before.SnapshotComplete now env collection →
    after.SnapshotComplete now env collection
  query : ∀ now,
    (∃ results, queryDocuments env.json regex now before collection filter = .ok results) →
    ∃ results, queryDocuments env.json regex now after collection filter = .ok results

/-- The document is read back as it was stored, and the collection works with it as without it. -/
structure Unpoisoned (env : SnapshotEnv) (regex : RegexCrate) (filter : Filter)
    (collection : String) (doc : Document) (layer : PersistentLayer) : Prop where
  read : ∀ now, ∃ found, layer.getDocument env.json now collection doc.id = .ok (some found) ∧
    found.content = doc.content
  works : ∀ before after, AddsDocument env.json collection doc before after →
    KeepsWorking env regex filter collection before after

theorem read_iff {json : DocumentJson} {collection : String} {doc : Document}
    {layer : PersistentLayer} {value : Bytes}
    (hown : layer.documents[makeDocumentKey collection doc.id]? = some value) :
    (∀ now, ∃ found, layer.getDocument json now collection doc.id = .ok (some found) ∧
        found.content = doc.content) ↔
      json.fromSlice value = .ok (doc.id, doc.fields) := by
  constructor
  · intro h
    obtain ⟨found, hfound, hcontent⟩ := h 0
    obtain ⟨value', hvalue', hdecodes⟩ := PersistentLayer.getDocument_eq_some_iff.mp hfound
    rw [hown, Option.some.injEq] at hvalue'
    rw [hvalue', hdecodes.1]
    exact congrArg Except.ok hcontent
  · intro h now
    refine ⟨⟨doc.id, doc.fields, .default now⟩, ?_, rfl⟩
    rw [PersistentLayer.getDocument_eq_some_iff]
    exact ⟨value, hown, h, rfl⟩

theorem keepsWorking_of_decodes {env : SnapshotEnv} {regex : RegexCrate} {filter : Filter}
    {collection : String} {doc : Document} {value : Bytes} {found : Bool}
    {before after : PersistentLayer}
    (hother : ∀ key, key ≠ makeDocumentKey collection doc.id →
      after.documents[key]? = before.documents[key]?)
    (hown : after.documents[makeDocumentKey collection doc.id]? = some value)
    (hfrom : env.json.fromSlice value = .ok (doc.id, doc.fields))
    (hfound : matchesFilter regex doc filter = .ok found) :
    KeepsWorking env regex filter collection before after where
  scan now hscan := by
    rw [PersistentLayer.scanCollection_ok_iff] at hscan ⊢
    exact hscan.changed hother hown ⟨_, hfrom⟩
  snapshot now hsnapshot := by
    rw [PersistentLayer.snapshotComplete_iff] at hsnapshot ⊢
    exact hsnapshot.changed hother hown ⟨_, hfrom⟩
  query now hquery := by
    rw [PersistentLayer.queryDocuments_ok_iff] at hquery ⊢
    refine hquery.changed hother hown ⟨_, hfrom, found, ?_⟩
    rw [← hfound]
    apply matchesFilter_congr
    rfl

/-- Every insert succeeds; the document poisons nothing exactly when it has no field `_id`, its
doubles are finite and its JSON is not too deep, and the filter can be decided on it. -/
theorem insert_unpoisoned_iff {serde : SerdeEnv} {doc : Document} (hserde : serde.Faithful doc)
    (hordered : doc.Ordered) (schemaToVec : Schema → Except String Bytes)
    (indexToVec : IndexDefinition → Except String Bytes) (snapshot : SnapshotJson)
    (sha256 : Bytes → Vector UInt8 32) (regex : RegexCrate) (filter : Filter)
    (collection : String) (layer : PersistentLayer) :
    let env : SnapshotEnv := ⟨serde.documentJson schemaToVec indexToVec, snapshot, sha256⟩
    ∃ layer', layer.insertDocument env.json collection doc.id doc = .ok layer' ∧
      (Unpoisoned env regex filter collection doc layer' ↔
        doc.isStorable = true ∧ ∃ found, matchesFilter regex doc filter = .ok found) := by
  intro env
  let key := makeDocumentKey collection doc.id
  let value := serde.text.write (encodeDocument serde doc.id doc.fields)
  have hown (layer : PersistentLayer) :
      (layer.documents.insert key value)[key]? = some value :=
    Std.ExtTreeMap.getElem?_insert_self
  have hpre : (utf8 (collection ++ ":")).isPrefixOf key = true :=
    PersistentLayer.isPrefixOf_makeDocumentKey_iff.mpr (.inl rfl)
  have hread := fromSlice_toVec hserde hordered schemaToVec indexToVec
  refine ⟨{ layer with documents := layer.documents.insert key value }, rfl, ?_⟩
  constructor
  · intro ⟨hget, hworks⟩
    have hfrom : env.json.fromSlice value = .ok (doc.id, doc.fields) :=
      (read_iff (hown layer)).mp hget
    constructor
    · by_contra hnot
      rw [Bool.not_eq_true] at hnot
      rw [hnot] at hread
      obtain ⟨e, he⟩ : ∃ e, env.json.fromSlice value = .error e := hread
      rw [hfrom] at he
      cases he
    · let alone : PersistentLayer :=
        { PersistentLayer.empty with documents := PersistentLayer.empty.documents.insert key value }
      have hadds : AddsDocument env.json collection doc .empty alone :=
        addsDocument_insertDocument rfl
      have hquery := (hworks .empty alone hadds).query doc.metadata.createdAt ⟨[], rfl⟩
      rw [PersistentLayer.queryDocuments_ok_iff] at hquery
      obtain ⟨content, hcontent, found, hfound⟩ := hquery key value (hown .empty) hpre
      rw [hfrom, Except.ok.injEq] at hcontent
      refine ⟨found, ?_⟩
      rw [← hfound, ← hcontent]
      apply matchesFilter_congr
      rfl
  · intro ⟨hstorable, found, hfound⟩
    rw [hstorable] at hread
    have hfrom : env.json.fromSlice value = .ok (doc.id, doc.fields) := hread
    refine ⟨(read_iff (hown layer)).mpr hfrom, ?_⟩
    intro before after hadds
    obtain ⟨value', hto, hstored⟩ := hadds.own
    obtain rfl : value = value' := Except.ok.inj hto
    exact keepsWorking_of_decodes hadds.other hstored hfrom hfound

/-! ## A document with one field -/

/-- The document whose only field, of the given name, is null; its JSON, and the text of that. -/
def fieldDocument (id : DocumentId) (name : String) : Document :=
  { id := id, fields := Std.ExtTreeMap.empty.insert name .null, metadata := .default 0 }

def fieldJson (id : DocumentId) (name : String) : Json F64 :=
  .object [("_id", .string id.toString), (name, .object [("type", .string "Null")])]

def fieldText (id : DocumentId) (name : String) : Bytes :=
  utf8 "\x7b\"_id\":\"" ++ asciiBytes id.toChars ++ utf8 "\",\"" ++ utf8 name ++
    utf8 "\":\x7b\"type\":\"Null\"\x7d\x7d"

/-- Codecs that know that text. -/
def fieldSerde (id : DocumentId) (name : String) : SerdeEnv where
  text :=
    { write := fun _ => fieldText id name
      read := fun bytes =>
        if bytes = fieldText id name then .ok (fieldJson id name) else .error "expected value" }
  describe _ _ := "duplicate field"
  parseUuid s := some (DocumentId.ofChars s.toList)
  formatDateTime := Int.repr
  parseDateTime := String.toInt?

theorem encodeDocument_fieldDocument (serde : SerdeEnv) (id : DocumentId) (name : String) :
    encodeDocument serde (fieldDocument id name).id (fieldDocument id name).fields =
      fieldJson id name := rfl

theorem fieldSerde_text (id : DocumentId) (name : String) :
    (fieldSerde id name).text.Faithful recursionLimit (fieldJson id name) := by
  have hdepth : (fieldJson id name).depth ≤ recursionLimit := by
    rw [← encodeDocument_fieldDocument (fieldSerde id name), depth_encodeDocument]
    show 2 ≤ 127
    decide
  rw [Json.Text.Faithful, if_pos hdepth]
  simp only [fieldSerde, if_true]

theorem fieldSerde_faithful (id : DocumentId) (name : String) :
    (fieldSerde id name).Faithful (fieldDocument id name) where
  text := by
    rw [encodeDocument_fieldDocument]
    exact fieldSerde_text id name
  uuid := by
    show some (DocumentId.ofChars (String.ofList id.toChars).toList) = some id
    rw [String.toList_ofList, DocumentId.ofChars_toChars]
  dates := by
    intro t
    show String.toInt? (Int.repr t) = some t
    rw [Int.toInt?_repr]

theorem fieldDocument_ordered (id : DocumentId) (name : String) :
    (fieldDocument id name).Ordered :=
  ⟨trivial, trivial⟩

def fieldEnv (id : DocumentId) (name : String) : SnapshotEnv :=
  { epochEnv with
    json := (fieldSerde id name).documentJson (fun _ => .error "no schemas")
      fun _ => .error "no indexes" }

theorem fieldEnv_json (id : DocumentId) (name : String) : (fieldEnv id name).json =
    (fieldSerde id name).documentJson (fun _ => .error "no schemas") fun _ => .error "no indexes" :=
  rfl

/-- No pattern compiles. -/
def noRegex : RegexCrate := { compile := fun _ => .error "regex parse error" }

/-- The layer that holds the document alone. -/
def fieldLayer (id : DocumentId) (name : String) : PersistentLayer :=
  { PersistentLayer.empty with
    documents := PersistentLayer.empty.documents.insert (makeDocumentKey "users" id)
      (fieldText id name) }

theorem insertDocument_fieldDocument (id : DocumentId) (name : String) :
    PersistentLayer.empty.insertDocument (fieldEnv id name).json "users" id
      (fieldDocument id name) = .ok (fieldLayer id name) := rfl

theorem fieldLayer_own (id : DocumentId) (name : String) :
    (fieldLayer id name).documents[makeDocumentKey "users" (fieldDocument id name).id]? =
      some (fieldText id name) :=
  Std.ExtTreeMap.getElem?_insert_self

theorem fromSlice_fieldText (id : DocumentId) (name : String) :
    ReadsBack (fieldDocument id name).isStorable
      ((fieldEnv id name).json.fromSlice (fieldText id name))
      ((fieldDocument id name).id, (fieldDocument id name).fields) := by
  have hread := fromSlice_toVec (fieldSerde_faithful id name) (fieldDocument_ordered id name)
    (fun _ => .error "no schemas") fun _ => .error "no indexes"
  have htext : (fieldSerde id name).text.write (encodeDocument (fieldSerde id name)
      (fieldDocument id name).id (fieldDocument id name).fields) = fieldText id name := rfl
  rw [htext] at hread
  rw [fieldEnv_json]
  exact hread

/-- A document with a field `_id` is stored, but neither it nor its collection can be read. -/
theorem id_field_poisons :
    (∃ docs, PersistentLayer.empty.scanCollection (fieldEnv ⟨1⟩ "_id").json 0 "users" = .ok docs) ∧
    ∃ layer, PersistentLayer.empty.insertDocument (fieldEnv ⟨1⟩ "_id").json "users" ⟨1⟩
        (fieldDocument ⟨1⟩ "_id") = .ok layer ∧
      ¬Unpoisoned (fieldEnv ⟨1⟩ "_id") noRegex .empty "users" (fieldDocument ⟨1⟩ "_id") layer ∧
      ¬∃ docs, layer.scanCollection (fieldEnv ⟨1⟩ "_id").json 0 "users" = .ok docs := by
  refine ⟨⟨[], rfl⟩, fieldLayer ⟨1⟩ "_id", insertDocument_fieldDocument ⟨1⟩ "_id", ?_⟩
  obtain ⟨e, he⟩ : ∃ e, (fieldEnv ⟨1⟩ "_id").json.fromSlice (fieldText ⟨1⟩ "_id") = .error e :=
    fromSlice_fieldText ⟨1⟩ "_id"
  constructor
  · intro h
    have hfrom := (read_iff (fieldLayer_own ⟨1⟩ "_id")).mp h.read
    rw [he] at hfrom
    cases hfrom
  · intro h
    obtain ⟨content, hcontent⟩ := PersistentLayer.scanCollection_ok_iff.mp h _ _
      (fieldLayer_own ⟨1⟩ "_id") (PersistentLayer.isPrefixOf_makeDocumentKey_iff.mpr (.inl rfl))
    rw [he] at hcontent
    cases hcontent

/-- Under another name the field poisons nothing. -/
theorem other_field_unpoisoned :
    ∃ layer, PersistentLayer.empty.insertDocument (fieldEnv ⟨1⟩ "n").json "users" ⟨1⟩
        (fieldDocument ⟨1⟩ "n") = .ok layer ∧
      Unpoisoned (fieldEnv ⟨1⟩ "n") noRegex (.fieldExists "n" true) "users" (fieldDocument ⟨1⟩ "n")
        layer := by
  obtain ⟨layer, hinsert, hiff⟩ := insert_unpoisoned_iff (fieldSerde_faithful ⟨1⟩ "n")
    (fieldDocument_ordered ⟨1⟩ "n") (fun _ => .error "no schemas") (fun _ => .error "no indexes")
    epochEnv.snapshot epochEnv.sha256 noRegex (.fieldExists "n" true) "users" .empty
  exact ⟨layer, hinsert, hiff.mpr ⟨rfl, matchesFilter_ok _ _ trivial⟩⟩

end VedDb
