import VedDb.Lib.Runs
import VedDb.Serde.Document
import VedDb.SetByPath

/-!
# The limits of a document

`Document::validate` compares a cached size with the limit.  `insert`, `remove`, `from_fields` and
`set_by_path` refresh it; an edit through `get_mut` and an assignment to `fields` leave it as it is,
and a document that is decoded starts with 0, since the metadata is not part of its JSON.
-/

namespace VedDb

open LittleEndian (Bytes)

/-- `MAX_DOCUMENT_SIZE`. -/
def maxDocumentSize : Nat := 16 * 1024 * 1024

/-- `MAX_NESTING_DEPTH`. -/
def maxNestingDepth : Nat := 16

mutual

def Value.nestingDepth : Value → Nat
  | .array vs => 1 + Value.nestingDepthItems vs
  | .object kvs => 1 + Value.nestingDepthMembers kvs
  | _ => 0

def Value.nestingDepthItems : List Value → Nat
  | [] => 0
  | v :: vs => max v.nestingDepth (Value.nestingDepthItems vs)

def Value.nestingDepthMembers : List (String × Value) → Nat
  | [] => 0
  | (_, v) :: kvs => max v.nestingDepth (Value.nestingDepthMembers kvs)

end

namespace Document

def sizeBytes (doc : Document) : Nat := doc.metadata.sizeBytes

def validate (doc : Document) : Except DocumentError Unit :=
  if maxDocumentSize < doc.sizeBytes then
    .error (.documentTooLarge doc.sizeBytes maxDocumentSize)
  else
    let maxDepth := Value.nestingDepthMembers doc.fields.toList
    if maxNestingDepth < maxDepth then .error (.nestingTooDeep maxDepth maxNestingDepth)
    else .ok ()

/-! ## The ways to make and to change a document -/

/-- `Document::new` and `Document::with_id`: the identifier is drawn, or given. -/
def new (now : DateTime) (id : DocumentId) : Document :=
  { id, fields := ∅, metadata := .default now }

def fromFields (now : DateTime) (id : DocumentId) (fields : Fields) : Document :=
  updateMetadata now { new now id with fields }

def remove (now : DateTime) (doc : Document) (key : String) : Document :=
  updateMetadata now { doc with fields := doc.fields.erase key }

/-- `*doc.get_mut(key)? = value`. -/
def editField (doc : Document) (key : String) (value : Value) : Document :=
  if doc.fields.contains key then { doc with fields := doc.fields.insert key value } else doc

/-- `Document::from_json`.  The metadata is skipped: it is the default. -/
def fromJson (env : SerdeEnv) (now : DateTime) (json : Bytes) : Except DocumentError Document :=
  match env.text.read json with
  | .error e => .error (.deserializationError e)
  | .ok value =>
    match decodeDocument env value with
    | .error e => .error (.deserializationError (env.describe json e))
    | .ok (id, fields) => .ok { new now id with fields }

end Document

/-- A call that makes a document or changes the one at hand. -/
inductive DocumentEdit where
  | new (id : DocumentId)
  | fromFields (id : DocumentId) (fields : Fields)
  | insert (key : String) (value : Value)
  | remove (key : String)
  | getMut (key : String) (value : Value)
  | setByPath (path : String) (value : Value)
  | replaceFields (fields : Fields)
  | fromJson (json : Bytes)

namespace Document

/-- The document after a call, at the instant the clock shows.  Where the JSON is refused, there is
no other document. -/
def after (env : SerdeEnv) (doc : Document) : DateTime × DocumentEdit → Document
  | (now, .new id) => new now id
  | (now, .fromFields id fields) => fromFields now id fields
  | (now, .insert key value) => doc.insert now key value
  | (now, .remove key) => doc.remove now key
  | (_, .getMut key value) => doc.editField key value
  | (now, .setByPath path value) => (doc.setByPath now path value).2
  | (_, .replaceFields fields) => { doc with fields }
  | (now, .fromJson json) =>
    match fromJson env now json with
    | .ok decoded => decoded
    | .error _ => doc

/-! ## What is to be accepted -/

def WithinLimits (fields : Fields) : Prop :=
  Value.sizeBytesObject fields.toList ≤ maxDocumentSize ∧
    ∀ (name : String) (value : Value), fields[name]? = some value →
      value.nestingDepth ≤ maxNestingDepth

/-- `validate` accepts the document exactly when it is within the limits. -/
def ValidatesExactly (doc : Document) : Prop := doc.validate = .ok () ↔ WithinLimits doc.fields

def SameSide (cached : Nat) (fields : Fields) : Prop :=
  (cached ≤ maxDocumentSize ↔ Value.sizeBytesObject fields.toList ≤ maxDocumentSize) ∨
    ∃ (name : String) (value : Value), fields[name]? = some value ∧
      maxNestingDepth < value.nestingDepth

/-- A call that does not refresh the cached size leaves it on the right side of the limit. -/
def KeepsSide (env : SerdeEnv) (doc : Document) : DateTime × DocumentEdit → Prop
  | (_, .getMut key value) => SameSide doc.sizeBytes (doc.editField key value).fields
  | (_, .replaceFields fields) => SameSide doc.sizeBytes fields
  | (now, .fromJson json) => ∀ decoded, fromJson env now json = .ok decoded →
      SameSide 0 decoded.fields
  | _ => True

theorem nestingDepthMembers_le_iff {kvs : List (String × Value)} {limit : Nat} :
    Value.nestingDepthMembers kvs ≤ limit ↔ ∀ kv ∈ kvs, kv.2.nestingDepth ≤ limit := by
  induction kvs with
  | nil => simp [Value.nestingDepthMembers]
  | cons kv kvs ih =>
    rw [Value.nestingDepthMembers, Nat.max_le, ih, List.forall_mem_cons]

theorem nestingDepth_le_iff {fields : Fields} {limit : Nat} :
    Value.nestingDepthMembers fields.toList ≤ limit ↔
      ∀ (name : String) (value : Value), fields[name]? = some value →
        value.nestingDepth ≤ limit := by
  rw [nestingDepthMembers_le_iff]
  constructor
  · intro h name value hvalue
    exact h (name, value) (Std.ExtTreeMap.mem_toList_iff_getElem?_eq_some.mpr hvalue)
  · intro h kv hkv
    exact h kv.1 kv.2 (Std.ExtTreeMap.mem_toList_iff_getElem?_eq_some.mp hkv)

theorem validate_eq_ok_iff {doc : Document} : doc.validate = .ok () ↔
    doc.sizeBytes ≤ maxDocumentSize ∧
      Value.nestingDepthMembers doc.fields.toList ≤ maxNestingDepth := by
  rw [validate]
  split
  next h => simp [Nat.not_le.mpr h]
  next h =>
    dsimp only
    split
    next hdeep => simp [Nat.not_le.mpr hdeep]
    next hdeep => simp [Nat.not_lt.mp h, Nat.not_lt.mp hdeep]

/-- The size that is cached is all that can go wrong. -/
theorem validatesExactly_iff {doc : Document} :
    doc.ValidatesExactly ↔ SameSide doc.sizeBytes doc.fields := by
  rw [ValidatesExactly, validate_eq_ok_iff, WithinLimits, SameSide, nestingDepth_le_iff]
  by_cases hdeep : ∀ (name : String) (value : Value), doc.fields[name]? = some value →
      value.nestingDepth ≤ maxNestingDepth
  · have hnot : ¬∃ (name : String) (value : Value), doc.fields[name]? = some value ∧
        maxNestingDepth < value.nestingDepth := by
      rintro ⟨name, value, hvalue, hlt⟩
      exact Nat.not_le.mpr hlt (hdeep name value hvalue)
    rw [or_iff_left hnot]
    constructor
    · intro h
      exact ⟨fun hle => (h.mp ⟨hle, hdeep⟩).1, fun hle => (h.mpr ⟨hle, hdeep⟩).1⟩
    · intro h
      exact ⟨fun hle => ⟨h.mp hle.1, hdeep⟩, fun hle => ⟨h.mpr hle.1, hdeep⟩⟩
  · have hsome : ∃ (name : String) (value : Value), doc.fields[name]? = some value ∧
        maxNestingDepth < value.nestingDepth := by
      simpa [not_forall] using hdeep
    exact iff_of_true (iff_of_false (fun h => hdeep h.2) fun h => hdeep h.2) (.inr hsome)

theorem validatesExactly_updateMetadata (now : DateTime) (doc : Document) :
    (updateMetadata now doc).ValidatesExactly :=
  validatesExactly_iff.mpr (.inl Iff.rfl)

theorem validatesExactly_new (now : DateTime) (id : DocumentId) :
    (new now id).ValidatesExactly := by
  refine validatesExactly_iff.mpr (.inl ?_)
  have hsize : Value.sizeBytesObject (∅ : Fields).toList = 0 := by rfl
  show 0 ≤ maxDocumentSize ↔ Value.sizeBytesObject (∅ : Fields).toList ≤ maxDocumentSize
  rw [hsize]

/-- A step keeps the verdict right exactly when it keeps the cached size on its side. -/
theorem validatesExactly_after_iff {env : SerdeEnv} {doc : Document} (h : doc.ValidatesExactly)
    (call : DateTime × DocumentEdit) :
    (doc.after env call).ValidatesExactly ↔ KeepsSide env doc call := by
  obtain ⟨now, call⟩ := call
  cases call with
  | new id => exact iff_of_true (validatesExactly_new now id) trivial
  | fromFields id fields => exact iff_of_true (validatesExactly_updateMetadata now _) trivial
  | insert key value => exact iff_of_true (validatesExactly_updateMetadata now _) trivial
  | remove key => exact iff_of_true (validatesExactly_updateMetadata now _) trivial
  | getMut key value =>
    rw [validatesExactly_iff]
    have hsize : (doc.editField key value).sizeBytes = doc.sizeBytes := by
      rw [editField]
      split
      · rfl
      · rfl
    show SameSide (doc.editField key value).sizeBytes (doc.editField key value).fields ↔
      SameSide doc.sizeBytes (doc.editField key value).fields
    rw [hsize]
  | setByPath path value =>
    refine iff_of_true ?_ trivial
    show (doc.setByPath now path value).2.ValidatesExactly
    obtain ⟨part, parts, hparts⟩ := List.exists_cons_of_ne_nil (pathParts_ne_nil path)
    cases hwrite : (fieldsLens part parts).put value doc.fields with
    | some written =>
      rw [setByPath_of_put hparts hwrite]
      exact validatesExactly_updateMetadata now _
    | none =>
      obtain ⟨e, he⟩ := setByPath_of_refused hparts hwrite now
      rw [he]
      exact h
  | replaceFields fields => exact validatesExactly_iff
  | fromJson json =>
    simp only [after, KeepsSide]
    cases hdecode : fromJson env now json with
    | error e => exact iff_of_true h fun decoded hok => by cases hok
    | ok decoded =>
      have hsize : decoded.sizeBytes = 0 := by
        rw [fromJson] at hdecode
        split at hdecode
        · cases hdecode
        · split at hdecode
          · cases hdecode
          · cases hdecode
            rfl
      rw [validatesExactly_iff, hsize]
      constructor
      · intro hside other hother
        rw [← Except.ok.inj hother]
        exact hside
      · intro hside
        exact hside decoded rfl

/-- In a run from a new document `validate` is right about every document that is reached exactly
when every edit of the fields that bypasses the cached size leaves it on its side of the limit. -/
theorem run_validatesExactly_iff (env : SerdeEnv) (start : DateTime) (id : DocumentId)
    (calls : List (DateTime × DocumentEdit)) :
    (∀ n, ((calls.take n).foldl (after env) (new start id)).ValidatesExactly) ↔
      MeetsAlong (after env) (KeepsSide env) (new start id) calls :=
  forall_take_iff_meetsAlong ValidatesExactly (fun _ => True) (fun _ h => h)
    (fun _ h => validatesExactly_after_iff h _) trivial (validatesExactly_new start id)

/-- The field `a` of a new document is set to null and then edited to more bytes than a document
may have. -/
def grownInPlace : List (DateTime × DocumentEdit) :=
  [(0, .insert "a" .null), (0, .getMut "a" (.binary (List.replicate maxDocumentSize 0)))]

/-- What has grown in place is accepted. -/
theorem grownInPlace_accepted :
    ¬∀ n, ((grownInPlace.take n).foldl (after (JsonText.serde []))
      (new 0 ⟨0⟩)).ValidatesExactly := by
  intro h
  have hgrown (value : Value) :
      ((new 0 ⟨0⟩).insert 0 "a" .null).editField "a" value =
        { (new 0 ⟨0⟩).insert 0 "a" .null with
          fields := ((∅ : Fields).insert "a" .null).insert "a" value } := if_pos rfl
  have hsize (value : Value) : Value.sizeBytesObject
      (((∅ : Fields).insert "a" .null).insert "a" value).toList = 1 + value.sizeBytes := by
    rfl
  have hdoc : ((grownInPlace.take 2).foldl (after (JsonText.serde [])) (new 0 ⟨0⟩)) =
      ((new 0 ⟨0⟩).insert 0 "a" .null).editField "a"
        (.binary (List.replicate maxDocumentSize 0)) := rfl
  have hexact := h 2
  rw [hdoc, hgrown, validatesExactly_iff] at hexact
  rcases hexact with hside | ⟨name, value, hvalue, hdeep⟩
  · rw [hsize, Value.sizeBytes, List.length_replicate] at hside
    have hover := hside.mp (by decide)
    omega
  · rw [lookup_insert, lookup_insert, Std.ExtTreeMap.getElem?_empty] at hvalue
    by_cases hname : "a" = name
    · rw [if_pos hname] at hvalue
      cases hvalue
      exact Nat.not_lt_zero _ hdeep
    · rw [if_neg hname, if_neg hname] at hvalue
      cases hvalue

end Document

end VedDb
