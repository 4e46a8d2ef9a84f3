import VedDb.Floats
import VedDb.Lib.Postings
import VedDb.Paths

/-!
# One index

`BTreeIndex` of `index/btree.rs`: a tree of keys, each with the identifiers of the documents that
have it, and two counters.  `Exact` says what the tree is for: under each key it lists exactly the
documents that have the key.
-/

namespace VedDb

open LittleEndian (Bytes)

/-!
## Index keys

The keys of `index/btree.rs` and how a document gets one.  The order of the keys is the derived one:
an `IndexValue` compares by the place of its variant and then by its payload, a key by its values in
turn.
-/

/-! ## Values -/

structure OrderedFloat where
  value : F64
  deriving DecidableEq

/-- `Ord for OrderedFloat`: a NaN is equal to everything. -/
def OrderedFloat.cmp (a b : OrderedFloat) : Ordering := (a.value.partialCmp b.value).getD .eq

inductive IndexValue where
  | null
  | bool (b : Bool)
  | int (i : Int64)
  | float (f : OrderedFloat)
  | string (s : String)
  | binary (b : Bytes)
  | objectId (o : ObjectId)
  | dateTime (seconds : Int)
  deriving DecidableEq

structure IndexKey where
  values : List IndexValue
  deriving DecidableEq

/-- `IndexError`.  A key and a value are kept as they are; the source prints them with `Debug`. -/
inductive IndexError where
  | uniqueConstraintViolation (index : String) (key : IndexKey)
  | missingField (field : String)
  | unsupportedValueType (value : Value)
  | operationFailed (message : String)

namespace IndexValue

/-- `IndexValue::from_value`.  A `DateTime` is cut to whole seconds. -/
def fromValue : Value → Except IndexError IndexValue
  | .null => .ok .null
  | .bool b => .ok (.bool b)
  | .int32 i => .ok (.int i.toInt64)
  | .int64 i => .ok (.int i)
  | .float64 f => .ok (.float ⟨f⟩)
  | .string s => .ok (.string s)
  | .binary b => .ok (.binary b)
  | .objectId o => .ok (.objectId o)
  | .dateTime t => .ok (.dateTime (t / 1000000000))
  | .array vs => .error (.unsupportedValueType (.array vs))
  | .object kvs => .error (.unsupportedValueType (.object kvs))

/-- A variant and its payload as numbers that compare like them. -/
def code : IndexValue → List Int
  | .null => [0]
  | .bool b => [1, if b then 1 else 0]
  | .int i => [2, i.toInt]
  | .float f => [3, f.value.rank]
  | .string s => 4 :: (utf8 s).map fun b => Int.ofNat b.toNat
  | .binary bytes => 5 :: bytes.map fun b => Int.ofNat b.toNat
  | .objectId o => 6 :: o.bytes.map fun b => Int.ofNat b.toNat
  | .dateTime seconds => [7, seconds]

/-- The derived order.  Only a NaN compares otherwise in the source, which makes it equal to every
float, and so no order at all. -/
def cmp (a b : IndexValue) : Ordering := compare a.code b.code

def isNaN : IndexValue → Bool
  | .float f => f.value.isNaN
  | _ => false

-- On numbers the order is that of `OrderedFloat`.
theorem cmp_float {a b : OrderedFloat} (ha : a.value.isNaN = false) (hb : b.value.isNaN = false) :
    (IndexValue.float a).cmp (.float b) = a.cmp b := by
  rw [OrderedFloat.cmp, F64.partialCmp_of_number ha hb]
  show compare [3, a.value.rank] [3, b.value.rank] = compare a.value.rank b.value.rank
  simp only [List.compare_eq_compareLex, List.compareLex_cons_cons,
    Std.ReflCmp.compare_self, Ordering.then]
  cases compare a.value.rank b.value.rank with
  | lt => rfl
  | eq => rfl
  | gt => rfl

end IndexValue

/-! ## Entries -/

structure IndexEntry where
  fields : Fields

namespace IndexEntry

def new : IndexEntry := { fields := ∅ }

def addField (entry : IndexEntry) (name : String) (value : Value) : IndexEntry :=
  { fields := entry.fields.insert name value }

def getField (entry : IndexEntry) (name : String) : Option Value := entry.fields[name]?

def sizeEstimate (entry : IndexEntry) : Nat := Value.sizeBytesObject entry.fields.toList

end IndexEntry

/-- `create_index_entry`, of the manager and of the builder: a field the document lacks is null. -/
def createIndexEntry (document : Document) (fields : List String) : IndexEntry :=
  fields.foldl (fun entry field => entry.addField field ((document.getByPath field).getD .null))
    IndexEntry.new

/-! ## Keys -/

namespace IndexKey

/-- The key of the values, or the first error among them. -/
def collect : List (Except IndexError IndexValue) → Except IndexError IndexKey
  | [] => .ok { values := [] }
  | .error e :: _ => .error e
  | .ok value :: rest =>
    match collect rest with
    | .error e => .error e
    | .ok key => .ok { values := value :: key.values }

def fromEntry (entry : IndexEntry) (fields : List String) : Except IndexError IndexKey :=
  collect (fields.map fun field =>
    match entry.getField field with
    | none => .error (.missingField field)
    | some value => IndexValue.fromValue value)

def fromValues (values : List Value) : Except IndexError IndexKey :=
  collect (values.map IndexValue.fromValue)

def hasNull (key : IndexKey) : Bool := key.values.any (· == .null)

def hasNaN (key : IndexKey) : Bool := key.values.any IndexValue.isNaN

def cmp : IndexKey → IndexKey → Ordering := compareOn fun key => key.values.map IndexValue.code

instance : Std.TransCmp cmp :=
  inferInstanceAs (Std.TransCmp (compareOn fun key : IndexKey => key.values.map IndexValue.code))

end IndexKey

/-! ## The key of a document -/

/-- The key of a document under the given fields: the values at their paths, null where there is
none. -/
def Fields.indexKey (fields : Fields) (names : List String) : Except IndexError IndexKey :=
  IndexKey.fromValues (names.map fun name => (fields.getByPath name).getD .null)

-- The entry made for a document has every field that is asked for.
theorem createIndexEntry_getField {document : Document} {fields : List String} {field : String}
    (h : field ∈ fields) : (createIndexEntry document fields).getField field =
      some ((document.getByPath field).getD .null) := by
  let add := fun (entry : IndexEntry) field =>
    entry.addField field ((document.getByPath field).getD .null)
  have hfold (names : List String) (entry : IndexEntry) :
      (names.foldl add entry).getField field = if field ∈ names
        then some ((document.getByPath field).getD .null) else entry.getField field := by
    induction names generalizing entry with
    | nil => rfl
    | cons name names ih =>
      rw [List.foldl_cons, ih]
      by_cases hnames : field ∈ names
      · rw [if_pos hnames, if_pos (List.mem_cons_of_mem _ hnames)]
      · rw [if_neg hnames]
        show (entry.fields.insert name _)[field]? = _
        rw [lookup_insert]
        by_cases hname : name = field
        · rw [if_pos hname, if_pos (by rw [hname]; exact List.mem_cons_self), hname]
        · rw [if_neg hname, if_neg (by simpa [hnames] using Ne.symm hname)]
          rfl
  have hown := hfold fields IndexEntry.new
  rw [if_pos h] at hown
  exact hown

theorem fromEntry_createIndexEntry (document : Document) (fields : List String) :
    IndexKey.fromEntry (createIndexEntry document fields) fields =
      document.fields.indexKey fields := by
  rw [IndexKey.fromEntry, Fields.indexKey, IndexKey.fromValues, List.map_map]
  congr 1
  apply List.map_congr_left
  intro field hfield
  rw [createIndexEntry_getField hfield]
  rfl

/-- The fields of the documents of a collection, by their identifiers. -/
abbrev CurrentDocuments := DocumentId → Option Fields

/-- `IndexStats`, of which only these two counters ever change. -/
structure IndexStats where
  totalEntries : UInt64
  totalSizeBytes : UInt64
  deriving DecidableEq

def IndexStats.default : IndexStats := { totalEntries := 0, totalSizeBytes := 0 }

structure BTreeIndex where
  name : String
  fields : List String
  unique : Bool
  sparse : Bool
  tree : Std.ExtTreeMap IndexKey (List DocumentId) IndexKey.cmp
  stats : IndexStats

namespace BTreeIndex

def new (name : String) (fields : List String) (unique sparse : Bool) : BTreeIndex :=
  { name := name, fields := fields, unique := unique, sparse := sparse, tree := ∅,
    stats := .default }

def insert (index : BTreeIndex) (docId : DocumentId) (entry : IndexEntry) :
    Except IndexError BTreeIndex :=
  match IndexKey.fromEntry entry index.fields with
  | .error e => .error e
  | .ok key =>
    if index.sparse && key.hasNull then .ok index
    else
      let existing := Postings.idsAt index.tree key
      if index.unique && !existing.isEmpty && !existing.contains docId then
        .error (.uniqueConstraintViolation index.name key)
      else
        .ok { index with
          tree :=
            -- a unique index stores a single document
            if index.unique then index.tree.insert key [docId]
            else Postings.push index.tree key docId
          stats :=
            { totalEntries := index.stats.totalEntries + 1
              totalSizeBytes :=
                index.stats.totalSizeBytes + UInt64.ofNat entry.sizeEstimate } }

/-- `remove`: whether the document was found under its key, and the index without it. -/
def remove (index : BTreeIndex) (docId : DocumentId) (entry : IndexEntry) :
    Except IndexError (Bool × BTreeIndex) :=
  match IndexKey.fromEntry entry index.fields with
  | .error e => .error e
  | .ok key =>
    if index.sparse && key.hasNull then .ok (false, index)
    else if (Postings.idsAt index.tree key).contains docId then
      .ok (true, { index with
        tree := Postings.remove index.tree key docId
        stats :=
          { totalEntries := index.stats.totalEntries - 1
            totalSizeBytes := index.stats.totalSizeBytes - UInt64.ofNat entry.sizeEstimate } })
    else .ok (false, index)

def findExact (index : BTreeIndex) (key : IndexKey) : List DocumentId :=
  Postings.idsAt index.tree key

/-- `find_range`, over the entries in the order of their keys. -/
def findRange (index : BTreeIndex) (start stop : Option IndexKey)
    (includeStart includeEnd : Bool) : List DocumentId :=
  let aboveStart (key : IndexKey) : Bool :=
    match start with
    | none => true
    | some s => if includeStart then IndexKey.cmp key s != .lt else IndexKey.cmp key s == .gt
  let belowEnd (key : IndexKey) : Bool :=
    match stop with
    | none => true
    | some e => if includeEnd then IndexKey.cmp key e != .gt else IndexKey.cmp key e == .lt
  (index.tree.toList.filter fun entry => aboveStart entry.1 && belowEnd entry.1).flatMap Prod.snd

def isEmpty (index : BTreeIndex) : Bool := index.tree.isEmpty

def clear (index : BTreeIndex) : BTreeIndex := { index with tree := ∅, stats := .default }

/-! ## The key of a document in an index -/

/-- The key a document is listed under, if any: a sparse index leaves out keys with a null. -/
def keyOf (index : BTreeIndex) (fields : Fields) : Option IndexKey :=
  match fields.indexKey index.fields with
  | .error _ => none
  | .ok key => if index.sparse && key.hasNull then none else some key

/-- The two indexes are over the same fields, with the same options. -/
structure SameKind (index index' : BTreeIndex) : Prop where
  name : index'.name = index.name
  fields : index'.fields = index.fields
  unique : index'.unique = index.unique
  sparse : index'.sparse = index.sparse

theorem SameKind.refl (index : BTreeIndex) : SameKind index index := ⟨rfl, rfl, rfl, rfl⟩

theorem SameKind.trans {a b c : BTreeIndex} (hab : SameKind a b) (hbc : SameKind b c) :
    SameKind a c :=
  ⟨hbc.name.trans hab.name, hbc.fields.trans hab.fields, hbc.unique.trans hab.unique,
    hbc.sparse.trans hab.sparse⟩

theorem SameKind.keyOf {index index' : BTreeIndex} (h : SameKind index index') (fields : Fields) :
    index'.keyOf fields = index.keyOf fields := by
  rw [BTreeIndex.keyOf, BTreeIndex.keyOf, h.fields, h.sparse]

/-- All an insertion can do. -/
theorem insert_cases {index index' : BTreeIndex} {docId : DocumentId} {document : Document}
    (h : index.insert docId (createIndexEntry document index.fields) = .ok index') :
    SameKind index index' ∧
      ((index.keyOf document.fields = none ∧ index' = index) ∨
        ∃ key, index.keyOf document.fields = some key ∧
          (index.unique = true → index'.tree = index.tree.insert key [docId] ∧
            (Postings.idsAt index.tree key = [] ∨ docId ∈ Postings.idsAt index.tree key)) ∧
          (index.unique = false → index'.tree = Postings.push index.tree key docId)) := by
  rw [insert, fromEntry_createIndexEntry] at h
  rw [keyOf]
  cases hkey : document.fields.indexKey index.fields with
  | error e => simp only [hkey, reduceCtorEq] at h
  | ok key =>
    simp only [hkey] at h
    dsimp only
    by_cases hsparse : (index.sparse && key.hasNull) = true
    · rw [if_pos hsparse, Except.ok.injEq] at h
      rw [if_pos hsparse, ← h]
      exact ⟨.refl index, .inl ⟨rfl, rfl⟩⟩
    · rw [if_neg hsparse] at h
      rw [if_neg hsparse]
      split at h
      · cases h
      · next hfree =>
          rw [Except.ok.injEq] at h
          rw [← h]
          refine ⟨⟨rfl, rfl, rfl, rfl⟩, .inr ⟨key, rfl, ?_, ?_⟩⟩
          · intro hunique
            rw [hunique]
            refine ⟨rfl, ?_⟩
            rw [hunique] at hfree
            by_cases hempty : Postings.idsAt index.tree key = []
            · exact .inl hempty
            · exact .inr (by simpa [hempty] using hfree)
          · intro hunique
            rw [hunique]
            rfl

/-- All a removal can do. -/
theorem remove_cases {index index' : BTreeIndex} {docId : DocumentId} {document : Document}
    {found : Bool}
    (h : index.remove docId (createIndexEntry document index.fields) = .ok (found, index')) :
    SameKind index index' ∧
      ((found = true ∧ ∃ key, index.keyOf document.fields = some key ∧
          docId ∈ Postings.idsAt index.tree key ∧
          index'.tree = Postings.remove index.tree key docId) ∨
        (found = false ∧ index' = index ∧
          ∀ key, index.keyOf document.fields = some key →
            docId ∉ Postings.idsAt index.tree key)) := by
  rw [remove, fromEntry_createIndexEntry] at h
  rw [keyOf]
  cases hkey : document.fields.indexKey index.fields with
  | error e => simp only [hkey, reduceCtorEq] at h
  | ok key =>
    simp only [hkey] at h
    dsimp only
    by_cases hsparse : (index.sparse && key.hasNull) = true
    · rw [if_pos hsparse, Except.ok.injEq, Prod.mk.injEq] at h
      rw [if_pos hsparse, ← h.1, ← h.2]
      refine ⟨.refl index, .inr ⟨rfl, rfl, ?_⟩⟩
      intro own hown
      cases hown
    · rw [if_neg hsparse] at h
      rw [if_neg hsparse]
      by_cases hmem : (Postings.idsAt index.tree key).contains docId = true
      · rw [if_pos hmem, Except.ok.injEq, Prod.mk.injEq] at h
        rw [← h.1, ← h.2]
        exact ⟨⟨rfl, rfl, rfl, rfl⟩,
          .inl ⟨rfl, key, rfl, List.contains_iff_mem.mp hmem, rfl⟩⟩
      · rw [if_neg hmem, Except.ok.injEq, Prod.mk.injEq] at h
        rw [← h.1, ← h.2]
        refine ⟨.refl index, .inr ⟨rfl, rfl, ?_⟩⟩
        intro own hown
        rw [← Option.some.inj hown]
        exact fun hin => hmem (List.contains_iff_mem.mpr hin)

/-! ## Exact indexes -/

structure Exact (index : BTreeIndex) (documents : CurrentDocuments) : Prop where
  inverts : Postings.Inverts index.tree fun id => (documents id).bind index.keyOf
  single : index.unique = true → ∀ key, (Postings.idsAt index.tree key).length ≤ 1

-- The keys of the documents after one of them has changed.
theorem SameKind.keyOf_update {index index' : BTreeIndex} (hkind : SameKind index index')
    (documents : CurrentDocuments) (docId : DocumentId) (value : Option Fields) (id : DocumentId) :
    (Function.update documents docId value id).bind index'.keyOf =
      Function.update (fun id => (documents id).bind index.keyOf) docId
        (value.bind index.keyOf) id := by
  have hkeys : index'.keyOf = index.keyOf := funext hkind.keyOf
  rw [hkeys]
  by_cases hid : id = docId
  · rw [hid, Function.update_self, Function.update_self]
  · rw [Function.update_of_ne hid, Function.update_of_ne hid]

namespace Exact

theorem new (name : String) (fields : List String) (unique sparse : Bool) :
    (BTreeIndex.new name fields unique sparse).Exact fun _ => none where
  inverts := .empty
  single _ key := by
    show (Postings.idsAt (∅ : Std.ExtTreeMap _ _ _) key).length ≤ 1
    rw [Postings.idsAt_empty]
    exact Nat.zero_le 1

variable {index index' : BTreeIndex} {documents : CurrentDocuments} {docId : DocumentId}
  {document : Document} (h : index.Exact documents)

include h

theorem insert (hnew : (documents docId).bind index.keyOf = none)
    (hinsert : index.insert docId (createIndexEntry document index.fields) = .ok index') :
    index'.Exact (Function.update documents docId (some document.fields)) := by
  obtain ⟨hkind, hcases⟩ := insert_cases hinsert
  have hkeys := hkind.keyOf_update documents docId (some document.fields)
  rw [Option.bind_some] at hkeys
  obtain ⟨hnone, rfl⟩ | ⟨key, hkey, hunique, hmany⟩ := hcases
  · refine ⟨h.inverts.congr fun id => ?_, h.single⟩
    rw [hkeys, hnone, ← hnew]
    exact congrFun (Function.update_eq_self docId _) id
  · rw [hkey] at hkeys
    have hpush : index'.tree = Postings.push index.tree key docId := by
      cases hindex : index.unique with
      | false => exact hmany hindex
      | true =>
        obtain ⟨htree, hfree⟩ := hunique hindex
        have hempty := hfree.resolve_right (h.inverts.notMem hnew)
        rw [htree, Postings.push, hempty, List.nil_append]
    refine ⟨?_, ?_⟩
    · rw [hpush]
      exact (h.inverts.push hnew).congr hkeys
    · intro hindex other
      rw [hkind.unique] at hindex
      rw [(hunique hindex).1, Postings.idsAt_insert]
      by_cases hother : IndexKey.cmp key other = .eq
      · rw [if_pos hother]
        exact Nat.le_refl 1
      · rw [if_neg hother]
        exact h.single hindex other

theorem congr {documents' : CurrentDocuments}
    (hkeys : ∀ id, (documents' id).bind index.keyOf = (documents id).bind index.keyOf) :
    index.Exact documents' :=
  ⟨h.inverts.congr hkeys, h.single⟩

theorem bind_eq_none (hnot : ∀ key, docId ∉ Postings.idsAt index.tree key) :
    (documents docId).bind index.keyOf = none := by
  cases hkey : (documents docId).bind index.keyOf with
  | none => rfl
  | some key =>
    refine absurd ?_ (hnot key)
    rw [h.inverts.mem_iff]
    exact ⟨key, hkey, Std.ReflCmp.compare_self⟩

theorem remove {found : Bool}
    (hkey : ∀ key, (documents docId).bind index.keyOf = some key →
      index.keyOf document.fields = some key)
    (hremove : index.remove docId (createIndexEntry document index.fields) = .ok (found, index')) :
    index'.Exact (Function.update documents docId none) := by
  obtain ⟨hkind, hcases⟩ := remove_cases hremove
  have hkeys := hkind.keyOf_update documents docId none
  rw [Option.bind_none] at hkeys
  obtain ⟨-, key, hown, hmem, htree⟩ | ⟨-, rfl, hnot⟩ := hcases
  · refine ⟨?_, ?_⟩
    · obtain ⟨listed, hlisted, -⟩ := (h.inverts.mem_iff key docId).mp hmem
      have hsame : listed = key := Option.some.inj ((hkey listed hlisted).symm.trans hown)
      rw [htree]
      exact (h.inverts.remove (hsame ▸ hlisted)).congr hkeys
    · intro hindex other
      rw [hkind.unique] at hindex
      rw [htree, Postings.idsAt_remove]
      by_cases hother : IndexKey.cmp key other = .eq
      · rw [if_pos hother]
        exact (List.erase_sublist.length_le).trans (h.single hindex other)
      · rw [if_neg hother]
        exact h.single hindex other
  · refine h.congr fun id => ?_
    -- what is not found under its key is not listed
    have hnone : (documents docId).bind index'.keyOf = none := by
      cases hlisted : (documents docId).bind index'.keyOf with
      | none => rfl
      | some key =>
        refine absurd ?_ (hnot key (hkey key hlisted))
        rw [h.inverts.mem_iff]
        exact ⟨key, hlisted, Std.ReflCmp.compare_self⟩
    rw [hkeys, ← hnone]
    exact congrFun (Function.update_eq_self docId _) id

theorem insert_again (hunique : index.unique = true)
    (hkey : (documents docId).bind index.keyOf = index.keyOf document.fields)
    (hinsert : index.insert docId (createIndexEntry document index.fields) = .ok index') :
    index'.Exact documents := by
  obtain ⟨hkind, ⟨-, rfl⟩ | ⟨key, hown, hsame, -⟩⟩ := insert_cases hinsert
  · exact h
  · obtain ⟨htree, -⟩ := hsame hunique
    -- the document is the only one under its key
    have hmem : docId ∈ Postings.idsAt index.tree key :=
      (h.inverts.mem_iff key docId).mpr ⟨key, hkey.trans hown, Std.ReflCmp.compare_self⟩
    have hids : Postings.idsAt index.tree key = [docId] := by
      have hlength := h.single hunique key
      cases hlist : Postings.idsAt index.tree key with
      | nil => simp [hlist] at hmem
      | cons other ids =>
        rw [hlist, List.length_cons] at hlength
        have hnil : ids = [] := List.length_eq_zero_iff.mp (by omega)
        rw [hlist, hnil, List.mem_singleton] at hmem
        rw [hnil, hmem]
    rw [← hids] at htree
    have hkeys : index'.keyOf = index.keyOf := funext hkind.keyOf
    refine ⟨?_, ?_⟩
    · rw [htree, hkeys]
      exact h.inverts.insert_same (by rw [hids]; exact List.cons_ne_nil _ _)
    · intro _ other
      rw [htree, Postings.idsAt_insert]
      by_cases hother : IndexKey.cmp key other = .eq
      · rw [if_pos hother]
        exact h.single hunique key
      · rw [if_neg hother]
        exact h.single hunique other

theorem clear_of_isEmpty (hempty : index.isEmpty = true) : index.clear.Exact documents := by
  have htree : index.tree = ∅ := Std.ExtTreeMap.isEmpty_iff.mp hempty
  refine ⟨?_, ?_⟩
  · have hinverts := h.inverts
    rw [htree] at hinverts
    exact hinverts
  · have hsingle := h.single
    rw [htree] at hsingle
    exact hsingle

omit h in
-- A document without a key may come and go.
theorem of_removed (hkind : SameKind index index')
    (hgone : (documents docId).bind index.keyOf = none)
    (h : index'.Exact (Function.update documents docId none)) : index'.Exact documents := by
  refine h.congr fun id => ?_
  have hkeys := hkind.keyOf_update documents docId none id
  rw [Option.bind_none] at hkeys
  rw [hkeys]
  by_cases hid : id = docId
  · rw [hid, Function.update_self, show index'.keyOf = index.keyOf from funext hkind.keyOf, hgone]
  · rw [Function.update_of_ne hid, show index'.keyOf = index.keyOf from funext hkind.keyOf]

end Exact

end BTreeIndex

end VedDb
