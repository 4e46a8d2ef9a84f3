import VedDb.Serde.Value
import VedDb.Storage.Persistent

/-!
# Documents in JSON

The JSON form that `serde` derives for `Document`: the identifier as the member `_id`, and beside it
the fields, flattened into the same object.  A field of that name makes a second `_id`, which the
derived reader refuses.
-/

namespace VedDb

open LittleEndian (Bytes)

variable (env : SerdeEnv)

/-- `Serialize for Document`. -/
def encodeDocument (id : DocumentId) (fields : Fields) : Json F64 :=
  .object (("_id", .string id.toString) :: encodeMembers env fields.toList)

/-- `Deserialize for DocumentId`. -/
def decodeId : Json F64 → Except SerdeError DocumentId
  | .string s =>
    match env.parseUuid s with
    | none => .error (.invalidValue "UUID string")
    | some id => .ok id
  | _ => .error (.invalidType "UUID string")

/-- `Deserialize for Document`.  The members other than the identifier are collected first. -/
def decodeDocument : Json F64 → Except SerdeError (DocumentId × Fields)
  | .object members =>
    match members.filter fun member => member.1 = "_id" with
    | [] => .error (.missingField "_id")
    | (_, id) :: others =>
      match decodeId env id with
      | .error e => .error e
      | .ok id =>
        if others.isEmpty then
          (decodeMembers env (members.filter fun member => member.1 ≠ "_id")).map fun kvs =>
            (id, Json.lastMembers kvs)
        else .error (.duplicateField "_id")
  | _ => .error (.invalidType "struct Document")

/-- `serde_json::to_vec` and `serde_json::from_slice` of documents. -/
def SerdeEnv.documentJson (schemaToVec : Schema → Except String Bytes)
    (indexToVec : IndexDefinition → Except String Bytes) : DocumentJson where
  toVec id fields := .ok (env.text.write (encodeDocument env id fields))
  fromSlice bytes :=
    match env.text.read bytes with
    | .error e => .error e
    | .ok value =>
      match decodeDocument env value with
      | .error e => .error (env.describe bytes e)
      | .ok content => .ok content
  schemaToVec := schemaToVec
  indexToVec := indexToVec

/-! ## Which documents are read back -/

/-- The containers that `serde_json` enters before it gives up. -/
def recursionLimit : Nat := 127

/-- The document has no field `_id`, its doubles are finite, and its JSON is not too deep. -/
def Document.isStorable (doc : Document) : Bool :=
  !doc.fields.contains "_id" && Value.membersFinite doc.fields.toList &&
    Value.containersMembers doc.fields.toList + 1 ≤ recursionLimit

/-- The objects in the fields list their entries as a `BTreeMap` does. -/
def Document.Ordered (doc : Document) : Prop := Value.OrderedMembers doc.fields.toList

/-- The codecs outside the repository behave on the document as documented. -/
structure SerdeEnv.Faithful (doc : Document) : Prop where
  text : env.text.Faithful recursionLimit (encodeDocument env doc.id doc.fields)
  uuid : env.parseUuid doc.id.toString = some doc.id
  dates : env.ReadsDates

variable {env}

theorem names_encodeMembers (kvs : List (String × Value)) :
    (encodeMembers env kvs).map Prod.fst = kvs.map Prod.fst := by
  induction kvs with
  | nil => rfl
  | cons kv kvs ih => rw [encodeMembers, List.map_cons, List.map_cons, ih]

theorem depth_encodeDocument (id : DocumentId) (fields : Fields) :
    (encodeDocument env id fields).depth = Value.containersMembers fields.toList + 1 := by
  rw [encodeDocument, Json.depth, Json.depthMembers, depth_encodeMembers]
  show max 0 _ + 1 = _
  rw [Nat.zero_max]

-- Whether a field of the name is among the members.
theorem mem_names_toList {fields : Fields} {name : String} :
    name ∈ fields.toList.map Prod.fst ↔ fields.contains name = true := by
  rw [Std.ExtTreeMap.map_fst_toList_eq_keys, Std.ExtTreeMap.mem_keys]
  exact Std.ExtTreeMap.mem_iff_contains

theorem decodeId_toString {id : DocumentId} (h : env.parseUuid id.toString = some id) :
    decodeId env (.string id.toString) = .ok id := by
  rw [decodeId, h]

/-- Without a field `_id` the members are divided as they were put together. -/
theorem decodeDocument_encodeDocument {doc : Document} (h : env.Faithful doc)
    (hordered : doc.Ordered) (hname : doc.fields.contains "_id" = false) :
    ReadsBack (Value.membersFinite doc.fields.toList)
      (decodeDocument env (encodeDocument env doc.id doc.fields)) (doc.id, doc.fields) := by
  have hother : ∀ member ∈ encodeMembers env doc.fields.toList, member.1 ≠ "_id" := by
    intro member hmember heq
    have hmem : "_id" ∈ (encodeMembers env doc.fields.toList).map Prod.fst :=
      List.mem_map.mpr ⟨member, hmember, heq⟩
    rw [names_encodeMembers, mem_names_toList, hname] at hmem
    cases hmem
  have hown : (encodeMembers env doc.fields.toList).filter
      (fun member => member.1 = "_id") = [] := by
    rw [List.filter_eq_nil_iff]
    intro member hmember
    simpa using hother member hmember
  have hrest : (encodeMembers env doc.fields.toList).filter (fun member => member.1 ≠ "_id") =
      encodeMembers env doc.fields.toList := by
    rw [List.filter_eq_self]
    intro member hmember
    simpa using hother member hmember
  have hread := (decodeMembers_encodeMembers h.dates doc.fields.toList hordered).map fun kvs =>
    (doc.id, Json.lastMembers kvs)
  rw [Json.lastMembers_toList] at hread
  rw [encodeDocument, decodeDocument, List.filter_cons_of_pos (by simp),
    List.filter_cons_of_neg (by simp), hown, hrest]
  dsimp only
  rw [decodeId_toString h.uuid]
  exact hread

theorem decodeDocument_duplicate {doc : Document} (h : env.Faithful doc)
    (hname : doc.fields.contains "_id" = true) :
    decodeDocument env (encodeDocument env doc.id doc.fields) = .error (.duplicateField "_id") := by
  obtain ⟨member, hmember, heq⟩ : ∃ member ∈ encodeMembers env doc.fields.toList,
      member.1 = "_id" := by
    rw [← mem_names_toList, ← names_encodeMembers, List.mem_map] at hname
    exact hname
  have hothers : ((encodeMembers env doc.fields.toList).filter
      fun member => member.1 = "_id").isEmpty = false := by
    rw [List.isEmpty_eq_false_iff]
    apply List.ne_nil_of_mem
    rw [List.mem_filter]
    exact ⟨hmember, by simpa using heq⟩
  rw [encodeDocument, decodeDocument, List.filter_cons_of_pos (by simp)]
  dsimp only
  rw [decodeId_toString h.uuid, hothers]
  rfl

theorem fromSlice_toVec {doc : Document} (h : env.Faithful doc) (hordered : doc.Ordered)
    (schemaToVec : Schema → Except String Bytes)
    (indexToVec : IndexDefinition → Except String Bytes) :
    ReadsBack doc.isStorable
      ((env.documentJson schemaToVec indexToVec).fromSlice
        (env.text.write (encodeDocument env doc.id doc.fields))) (doc.id, doc.fields) := by
  have htext := h.text
  rw [Json.Text.Faithful, depth_encodeDocument] at htext
  by_cases hdepth : Value.containersMembers doc.fields.toList + 1 ≤ recursionLimit
  · rw [if_pos hdepth] at htext
    simp only [SerdeEnv.documentJson, htext]
    cases hname : doc.fields.contains "_id" with
    | true =>
      rw [decodeDocument_duplicate h hname]
      simp [ReadsBack, Document.isStorable, hname]
    | false =>
      have hread := decodeDocument_encodeDocument h hordered hname
      cases hfinite : Value.membersFinite doc.fields.toList with
      | true =>
        rw [hfinite] at hread
        have hok : decodeDocument env (encodeDocument env doc.id doc.fields) =
            .ok (doc.id, doc.fields) := hread
        simp [ReadsBack, Document.isStorable, hname, hfinite, hdepth, hok]
      | false =>
        rw [hfinite] at hread
        obtain ⟨e, he⟩ : ∃ e, decodeDocument env (encodeDocument env doc.id doc.fields) =
          .error e := hread
        simp [ReadsBack, Document.isStorable, hfinite, he]
  · rw [if_neg hdepth] at htext
    obtain ⟨e, he⟩ := htext
    simp [SerdeEnv.documentJson, he, ReadsBack, Document.isStorable, hdepth]

/-!
## A concrete text

The text that `serde_json` writes for values whose strings need no escapes, and a reader that knows
the texts of some values.  The closed runs over servers use them in place of the abstract codecs.
-/

namespace JsonText

/-- A text in quotation marks. -/
def quoted (s : String) : Bytes := utf8 "\"" ++ utf8 s ++ utf8 "\""

def separated : List Bytes → Bytes
  | [] => []
  | [item] => item
  | item :: items => item ++ utf8 "," ++ separated items

mutual

/-- The text without blanks.  Doubles are left to the caller. -/
def compact (real : F64 → Bytes) : Json F64 → Bytes
  | .null => utf8 "null"
  | .bool true => utf8 "true"
  | .bool false => utf8 "false"
  | .integer n => utf8 (toString n)
  | .real r => real r
  | .string s => quoted s
  | .array items => utf8 "[" ++ separated (compactItems real items) ++ utf8 "]"
  | .object members => utf8 "\x7b" ++ separated (compactMembers real members) ++ utf8 "\x7d"

def compactItems (real : F64 → Bytes) : List (Json F64) → List Bytes
  | [] => []
  | item :: items => compact real item :: compactItems real items

def compactMembers (real : F64 → Bytes) : List (String × Json F64) → List Bytes
  | [] => []
  | (name, value) :: members =>
    (quoted name ++ utf8 ":" ++ compact real value) :: compactMembers real members

end

/-- The text of a value without doubles. -/
def write (value : Json F64) : Bytes := compact (fun _ => []) value

def knowing (known : List (Json F64)) : Json.Text F64 where
  write := write
  read bytes :=
    match known.find? fun value => write value = bytes with
    | none => .error "expected value"
    | some value => .ok value

def serde (known : List (Json F64)) : SerdeEnv where
  text := knowing known
  describe _ _ := "invalid document"
  parseUuid s := some (DocumentId.ofChars s.toList)
  formatDateTime := Int.repr
  parseDateTime := String.toInt?

def documents (known : List (Json F64)) : DocumentJson :=
  (serde known).documentJson (fun _ => .error "no schemas") fun _ => .error "no indexes"

example : write (.object [("n", .array [.integer 10, .null])]) =
    utf8 "\x7b\"n\":[10,null]\x7d" := by
  decide +kernel

end JsonText

end VedDb
