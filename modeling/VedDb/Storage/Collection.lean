import VedDb.Limits
import VedDb.Storage.Reading
import VedDb.Validation

/-!
# Collections

`Collection` of `storage/collection.rs`: a schema in front of the documents of the persistent layer,
with two counters beside them.  The calls pass the collection along as a value.
-/

namespace VedDb

open LittleEndian (Bytes)

/-! ## Calls -/

/-- The contexts under which a call fails. -/
inductive CollectionError where
  /-- `Schema validation failed` -/
  | schema (cause : ValidationError)
  /-- `Document validation failed` -/
  | document (cause : DocumentError)
  /-- `Failed to insert document` -/
  | insert (cause : StorageError)
  /-- `Failed to update document` -/
  | update (cause : StorageError)
  /-- The error of `get`, passed on. -/
  | get (cause : StorageError)

/-- The counters are `AtomicU64`, which wrap. -/
structure Collection where
  name : String
  schema : Schema
  documentCount : UInt64
  totalSizeBytes : UInt64
  persistentLayer : PersistentLayer

/-- What a collection calls outside of the repository. -/
structure CollectionEnv where
  json : DocumentJson
  regex : RegexCrate
  texts : FieldTexts

namespace Collection

def new (name : String) (schema : Schema) (persistentLayer : PersistentLayer) : Collection :=
  { name, schema, documentCount := 0, totalSizeBytes := 0, persistentLayer }

variable (env : CollectionEnv) (now : DateTime)

def insert (c : Collection) (doc : Document) : Except CollectionError DocumentId × Collection :=
  let doc := c.schema.applyDefaults now doc
  match c.schema.validate env.regex env.texts doc with
  | .error e => (.error (.schema e), c)
  | .ok () =>
    match doc.validate with
    | .error e => (.error (.document e), c)
    | .ok () =>
      match c.persistentLayer.insertDocument env.json c.name doc.id doc with
      | .error e => (.error (.insert e), c)
      | .ok layer =>
        (.ok doc.id, { c with
          persistentLayer := layer
          documentCount := c.documentCount + 1
          totalSizeBytes := c.totalSizeBytes + UInt64.ofNat doc.sizeBytes })

def get (c : Collection) (docId : DocumentId) : Except StorageError (Option Document) :=
  c.persistentLayer.getDocument env.json now c.name docId

def update (c : Collection) (docId : DocumentId) (doc : Document) :
    Except CollectionError Unit × Collection :=
  match c.get env now docId with
  | .error e => (.error (.get e), c)
  | .ok oldDoc =>
    let oldSize := (oldDoc.map Document.sizeBytes).getD 0
    match c.schema.validate env.regex env.texts doc with
    | .error e => (.error (.schema e), c)
    | .ok () =>
      match doc.validate with
      | .error e => (.error (.document e), c)
      | .ok () =>
        match c.persistentLayer.updateDocument env.json c.name docId doc with
        | .error e => (.error (.update e), c)
        | .ok layer =>
          let newSize := doc.sizeBytes
          (.ok (), { c with
            persistentLayer := layer
            totalSizeBytes :=
              if oldSize < newSize then
                c.totalSizeBytes + UInt64.ofNat (newSize - oldSize)
              else c.totalSizeBytes - UInt64.ofNat (oldSize - newSize) })

def delete (c : Collection) (docId : DocumentId) : Except CollectionError Bool × Collection :=
  match c.get env now docId with
  | .error e => (.error (.get e), c)
  | .ok none => (.ok false, c)
  | .ok (some doc) =>
    let (deleted, layer) := c.persistentLayer.deleteDocument c.name docId
    if deleted then
      (.ok true, { c with
        persistentLayer := layer
        documentCount := c.documentCount - 1
        totalSizeBytes := c.totalSizeBytes - UInt64.ofNat doc.sizeBytes })
    else (.ok false, { c with persistentLayer := layer })

end Collection

/-- The calls that change a collection. -/
inductive CollectionOperation where
  | insert (doc : Document)
  | update (docId : DocumentId) (doc : Document)
  | delete (docId : DocumentId)

namespace Collection

variable (env : CollectionEnv)

/-- The collection after a call at an instant, whether the call succeeds or not. -/
def after (c : Collection) : DateTime × CollectionOperation → Collection
  | (now, .insert doc) => (c.insert env now doc).2
  | (now, .update docId doc) => (c.update env now docId doc).2
  | (now, .delete docId) => (c.delete env now docId).2

/-- The call succeeds and writes the document: an insertion with its defaults filled in. -/
def Stores (c : Collection) (d : Document) : DateTime × CollectionOperation → Prop
  | (now, .insert doc) =>
    (∃ docId, (c.insert env now doc).1 = .ok docId) ∧ d = c.schema.applyDefaults now doc
  | (now, .update docId doc) => (c.update env now docId doc).1 = .ok () ∧ d = doc
  | (_, .delete _) => False

/-! ## What a call does -/

/-- The document passes the checks of the collection and is encoded as the given value. -/
structure Writable (c : Collection) (d : Document) (value : Bytes) : Prop where
  schema : c.schema.validate env.regex env.texts d = .ok ()
  document : d.validate = .ok ()
  encoded : env.json.toVec d.id d.fields = .ok value

/-- What is stored under an identifier, if anything, can be decoded. -/
def Readable (c : Collection) (docId : DocumentId) : Prop :=
  ∀ stored, c.persistentLayer.documents[PersistentLayer.makeDocumentKey c.name docId]? =
    some stored → ∃ read, env.json.fromSlice stored = .ok read

def write (c : Collection) (docId : DocumentId) (value : Bytes) : PersistentLayer :=
  { c.persistentLayer with
    documents := c.persistentLayer.documents.insert
      (PersistentLayer.makeDocumentKey c.name docId) value }

variable {env} {now : DateTime} {c : Collection}

variable (env now c) in
/-- An insertion fails and changes nothing, or writes the document with its defaults. -/
theorem insert_cases (doc : Document) :
    ((¬∃ value, c.Writable env (c.schema.applyDefaults now doc) value) ∧
        ∃ e, c.insert env now doc = (.error e, c)) ∨
      ∃ value, c.Writable env (c.schema.applyDefaults now doc) value ∧
        c.insert env now doc =
          (.ok (c.schema.applyDefaults now doc).id, { c with
            persistentLayer := c.write (c.schema.applyDefaults now doc).id value
            documentCount := c.documentCount + 1
            totalSizeBytes := c.totalSizeBytes +
              UInt64.ofNat (c.schema.applyDefaults now doc).sizeBytes }) := by
  unfold insert PersistentLayer.insertDocument
  generalize c.schema.applyDefaults now doc = d
  cases hschema : c.schema.validate env.regex env.texts d with
  | error e =>
    left
    refine ⟨fun ⟨value, hw⟩ => ?_, _, by simp only [hschema]; rfl⟩
    rw [hw.schema] at hschema
    cases hschema
  | ok done =>
    cases hvalid : d.validate with
    | error e =>
      left
      refine ⟨fun ⟨value, hw⟩ => ?_, _, by simp only [hschema, hvalid]; rfl⟩
      rw [hw.document] at hvalid
      cases hvalid
    | ok done =>
      cases hvalue : env.json.toVec d.id d.fields with
      | error e =>
        left
        refine ⟨fun ⟨value, hw⟩ => ?_, _, by simp only [hschema, hvalid, hvalue]; rfl⟩
        rw [hw.encoded] at hvalue
        cases hvalue
      | ok value =>
        right
        refine ⟨value, ⟨hschema, hvalid, hvalue⟩, ?_⟩
        simp only [hschema, hvalid, hvalue]
        rfl

variable (env now c) in
theorem get_cases (docId : DocumentId) :
    (¬c.Readable env docId ∧ ∃ e, c.get env now docId = .error e) ∨
      c.Readable env docId ∧ ∃ oldDoc, c.get env now docId = .ok oldDoc ∧
        (oldDoc.map Document.sizeBytes).getD 0 = 0 ∧
        (oldDoc = none ↔
          c.persistentLayer.documents[PersistentLayer.makeDocumentKey c.name docId]? = none) := by
  unfold get PersistentLayer.getDocument Readable
  cases hstored : c.persistentLayer.documents[PersistentLayer.makeDocumentKey c.name docId]? with
  | none =>
    right
    exact ⟨fun stored h => absurd h (by simp), none, rfl, rfl, by simp⟩
  | some stored =>
    cases hread : env.json.fromSlice stored with
    | error e =>
      left
      refine ⟨fun h => ?_, _, by simp only [hread]; rfl⟩
      obtain ⟨read, hok⟩ := h stored rfl
      rw [hread] at hok
      cases hok
    | ok read =>
      right
      refine ⟨fun other h => ?_, some _, by simp only [hread]; rfl, rfl, by simp⟩
      rw [← Option.some.inj h]
      exact ⟨read, hread⟩

variable (env now c) in
/-- What is read back has no cached size, so an update adds the whole size of the new document. -/
theorem update_cases (docId : DocumentId) (doc : Document) :
    (¬(c.Readable env docId ∧ ∃ value, c.Writable env doc value) ∧
        ∃ e, c.update env now docId doc = (.error e, c)) ∨
      c.Readable env docId ∧ ∃ value, c.Writable env doc value ∧
        c.update env now docId doc =
          (.ok (), { c with
            persistentLayer := c.write docId value
            totalSizeBytes := c.totalSizeBytes + UInt64.ofNat doc.sizeBytes }) := by
  unfold update PersistentLayer.updateDocument PersistentLayer.insertDocument
  rcases get_cases env now c docId with
    ⟨hunread, e, hget⟩ | ⟨hreadable, oldDoc, hget, hsize, -⟩
  · left
    exact ⟨fun h => hunread h.1, _, by simp only [hget]; rfl⟩
  have htotal : (if 0 < doc.sizeBytes then c.totalSizeBytes + UInt64.ofNat (doc.sizeBytes - 0)
      else c.totalSizeBytes - UInt64.ofNat (0 - doc.sizeBytes)) =
      c.totalSizeBytes + UInt64.ofNat doc.sizeBytes := by
    split
    · rfl
    · next hpos =>
        rw [Nat.le_zero.mp (Nat.le_of_not_lt hpos)]
        simp
  simp only [hget, hsize]
  cases hschema : c.schema.validate env.regex env.texts doc with
  | error e =>
    left
    refine ⟨fun ⟨_, value, hw⟩ => ?_, _, rfl⟩
    rw [hw.schema] at hschema
    cases hschema
  | ok done =>
    cases hvalid : doc.validate with
    | error e =>
      left
      refine ⟨fun ⟨_, value, hw⟩ => ?_, _, rfl⟩
      rw [hw.document] at hvalid
      cases hvalid
    | ok done =>
      cases hvalue : env.json.toVec doc.id doc.fields with
      | error e =>
        left
        refine ⟨fun ⟨_, value, hw⟩ => ?_, _, rfl⟩
        rw [hw.encoded] at hvalue
        cases hvalue
      | ok value =>
        right
        refine ⟨hreadable, value, ⟨hschema, hvalid, hvalue⟩, ?_⟩
        dsimp only
        rw [htotal]
        rfl

variable (env now c) in
/-- A deletion takes nothing off the total size. -/
theorem delete_cases (docId : DocumentId) :
    ((¬c.Readable env docId ∨ c.persistentLayer.documents[
          PersistentLayer.makeDocumentKey c.name docId]? = none) ∧
        (c.delete env now docId).1 ≠ .ok true ∧ (c.delete env now docId).2 = c) ∨
      c.Readable env docId ∧ (∃ stored, c.persistentLayer.documents[
          PersistentLayer.makeDocumentKey c.name docId]? = some stored) ∧
        c.delete env now docId =
          (.ok true, { c with
            persistentLayer := { c.persistentLayer with
              documents := c.persistentLayer.documents.erase
                (PersistentLayer.makeDocumentKey c.name docId) }
            documentCount := c.documentCount - 1 }) := by
  unfold delete PersistentLayer.deleteDocument
  rcases get_cases env now c docId with
    ⟨hunread, e, hget⟩ | ⟨hreadable, oldDoc, hget, hsize, hnone⟩
  · left
    exact ⟨.inl hunread, by simp [hget], by simp only [hget]⟩
  cases oldDoc with
  | none =>
    left
    exact ⟨.inr (hnone.mp rfl), by simp [hget], by simp only [hget]⟩
  | some doc =>
    right
    have hstored : c.persistentLayer.documents[PersistentLayer.makeDocumentKey c.name docId]? ≠
        none := fun h => absurd (hnone.mpr h) (by simp)
    have hzero : doc.sizeBytes = 0 := hsize
    obtain ⟨stored, hsome⟩ := Option.ne_none_iff_exists'.mp hstored
    refine ⟨hreadable, ⟨stored, hsome⟩, ?_⟩
    simp only [hget, Std.ExtTreeMap.contains_eq_isSome_getElem?, hsome, Option.isSome_some,
      if_true, hzero]
    simp

theorem stored_after (c : Collection) (call : DateTime × CollectionOperation) {key value : Bytes}
    (h : (c.after env call).persistentLayer.documents[key]? = some value) :
    c.persistentLayer.documents[key]? = some value ∨
      ∃ d, c.Stores env d call ∧ c.Writable env d value := by
  obtain ⟨now, call⟩ := call
  cases call with
  | insert doc =>
    rcases insert_cases env now c doc with
      ⟨-, e, heq⟩ | ⟨value', hwritable, heq⟩
    · rw [after, heq] at h
      exact .inl h
    · rw [after, heq] at h
      simp only [write, lookup_insert] at h
      split at h
      · right
        obtain rfl := Option.some.inj h
        exact ⟨_, ⟨⟨_, congrArg Prod.fst heq⟩, rfl⟩, hwritable⟩
      · exact .inl h
  | update docId doc =>
    rcases update_cases env now c docId doc with
      ⟨-, e, heq⟩ | ⟨-, value', hwritable, heq⟩
    · rw [after, heq] at h
      exact .inl h
    · rw [after, heq] at h
      simp only [write, lookup_insert] at h
      split at h
      · right
        obtain rfl := Option.some.inj h
        exact ⟨doc, ⟨congrArg Prod.fst heq, rfl⟩, hwritable⟩
      · exact .inl h
  | delete docId =>
    left
    rcases delete_cases env now c docId with
      ⟨-, -, heq⟩ | ⟨-, -, heq⟩
    · rw [after, heq] at h
      exact h
    · rw [after, heq] at h
      simp only [lookup_erase] at h
      split at h
      · cases h
      · exact h

theorem validate_of_stores {call : DateTime × CollectionOperation} {d : Document}
    (h : c.Stores env d call) : c.schema.validate env.regex env.texts d = .ok () := by
  obtain ⟨now, call⟩ := call
  cases call with
  | insert doc =>
    obtain ⟨⟨docId, hok⟩, rfl⟩ := h
    rcases insert_cases env now c doc with
      ⟨-, e, heq⟩ | ⟨value, hwritable, -⟩
    · rw [heq] at hok
      cases hok
    · exact hwritable.schema
  | update docId doc =>
    obtain ⟨hok, rfl⟩ := h
    rcases update_cases env now c docId d with
      ⟨-, e, heq⟩ | ⟨-, value, hwritable, -⟩
    · rw [heq] at hok
      cases hok
    · exact hwritable.schema
  | delete docId => exact h.elim

/-! ## The guard of the schema -/

/-- The validation of a document is complete, and no call stores it unless it is what the schema
declares. -/
def DecidesExactly (env : CollectionEnv) (c : Collection) (doc : Document) : Prop :=
  (c.schema.validate env.regex env.texts doc = .ok () ↔ c.schema.Accepts env.regex doc) ∧
    ∀ call, c.Stores env doc call → c.schema.Accepts env.regex doc

def StoresValidated (env : CollectionEnv) (c : Collection) : Prop :=
  ∀ (call : DateTime × CollectionOperation) (key value : Bytes),
    (c.after env call).persistentLayer.documents[key]? = some value →
      c.persistentLayer.documents[key]? = some value ∨
        ∃ d, c.schema.validate env.regex env.texts d = .ok () ∧
          env.json.toVec d.id d.fields = .ok value

/-- A document is decided exactly unless all that is checked of it is right and, somewhere in it, a
string is too long for its type or a validator declared for a nested field fails. -/
theorem decidesExactly_iff (env : CollectionEnv) (c : Collection) (doc : Document) :
    (c.DecidesExactly env doc ↔
      (c.schema.Passes env.regex doc → c.schema.Constrains env.regex doc)) ∧
      c.StoresValidated env := by
  refine ⟨?_, ?_⟩
  · unfold DecidesExactly
    constructor
    · intro h hpasses
      have haccepted := h.1.mp (Schema.validate_eq_ok_iff _ _ |>.mpr hpasses)
      exact ((Schema.accepts_iff _ _).mp haccepted).2
    · intro h
      have hiff : c.schema.validate env.regex env.texts doc = .ok () ↔
          c.schema.Accepts env.regex doc := by
        rw [Schema.validate_eq_ok_iff, Schema.accepts_iff]
        exact (and_iff_left_of_imp h).symm
      exact ⟨hiff, fun call hstores => hiff.mp (validate_of_stores hstores)⟩
  · intro call key value hvalue
    rcases c.stored_after call hvalue with hsame | ⟨d, -, hwritable⟩
    · exact .inl hsame
    · exact .inr ⟨d, hwritable.schema, hwritable.encoded⟩

end Collection

/-- Names of at most one byte. -/
def shortNames : Collection :=
  .new "users" (.ofFields [("name", .new (.string (some 1)))]) .empty

def twoLetters : Document :=
  { emptyDocument ⟨7⟩ with fields := (∅ : Fields).insert "name" (.string "ab") }

/-- No regular expression compiles, and types and values are printed as nothing. -/
def plainCollectionEnv : CollectionEnv :=
  { json := nullDocuments
    regex := ⟨fun _ => .error "unsupported"⟩
    texts := ⟨fun _ => "", fun _ => ""⟩ }

/-- A name of two bytes is accepted where the schema allows one. -/
theorem shortNames_accept_two : ¬shortNames.DecidesExactly plainCollectionEnv twoLetters := by
  intro h
  have hvalid : shortNames.schema.validate plainCollectionEnv.regex plainCollectionEnv.texts
      twoLetters = .ok () := by
    rfl
  have haccepted := h.1.mp hvalid
  have hfield : shortNames.schema.fields["name"]? = some (.new (.string (some 1))) := by rfl
  have hname : twoLetters.fields["name"]? = some (.string "ab") := by rfl
  have hparts := ((haccepted "name" _ hfield).2 _ hname).2 _ _ (.here _ _)
  exact absurd (hparts.2.maxLength 1 "ab" rfl rfl) (by decide)

end VedDb
