import VedDb.Lib.RegisterLog
import VedDb.Storage.Persistent
import VedDb.Wal.Directory

/-!
# Replaying the log

`wal/replay.rs`: the interpreter of logged operations over the persistent layer, and the loops that
feed it the entries of a file and of a directory.  An operation that fails is counted and skipped.

Every operation acts on each key of the layer on its own: it leaves the key alone, overwrites or
removes it, or merges changes into the document stored there.  Replay is therefore an instance of
`RegisterLog`, whose prefix theorem gives idempotence.
-/

namespace VedDb

open LittleEndian (Bytes)
open RegisterLog

/-- `for (key, value) in changes { doc.insert(key, value) }`. -/
def Document.applyChanges (now : DateTime) (doc : Document) (changes : Fields) : Document :=
  changes.toList.foldl (fun d kv => d.insert now kv.1 kv.2) doc

section

variable (json : DocumentJson)

def applyOperation (now : DateTime) (operation : Operation) (layer : PersistentLayer) :
    Except StorageError PersistentLayer :=
  match operation with
  | .insert collection id fields =>
    layer.insertDocument json collection id
      { id := id, fields := fields, metadata := DocumentMetadata.default now }
  | .update collection id changes =>
    match layer.getDocument json now collection id with
    | .error e => .error e
    | .ok none => .ok layer
    | .ok (some doc) => layer.updateDocument json collection id (doc.applyChanges now changes)
  | .delete collection id => .ok (layer.deleteDocument collection id).2
  | .createCollection name schema =>
    match json.schemaToVec schema with
    | .error e => .error (.serializeMetadata e)
    | .ok schemaJson => .ok (layer.storeMetadata ("collection:" ++ name) schemaJson)
  | .dropCollection name =>
    -- the documents of the collection stay
    .ok (layer.deleteMetadata ("collection:" ++ name))
  | .createIndex collection index =>
    match json.indexToVec index with
    | .error e => .error (.serializeMetadata e)
    | .ok indexJson =>
      .ok (layer.storeMetadata ("index:" ++ collection ++ ":" ++ index.name) indexJson)
  | .dropIndex collection indexName =>
    .ok (layer.deleteMetadata ("index:" ++ collection ++ ":" ++ indexName))

/-- What replay does with one operation: an error leaves the layer as it was. -/
def applyOrSkip (now : DateTime) (layer : PersistentLayer) (operation : Operation) :
    PersistentLayer :=
  match applyOperation json now operation layer with
  | .error _ => layer
  | .ok layer => layer

/-- Apply a list of operations in order, skipping those that fail. -/
def applyAll (now : DateTime) (operations : List Operation) (layer : PersistentLayer) :
    PersistentLayer :=
  operations.foldl (applyOrSkip json now) layer

structure ReplayStats where
  entriesReplayed : Nat
  entriesSkipped : Nat
  errors : Nat
  lastSequence : Nat
  deriving DecidableEq

def ReplayStats.default : ReplayStats :=
  { entriesReplayed := 0, entriesSkipped := 0, errors := 0, lastSequence := 0 }

/-- The loop of `replay_wal` over what the reader answers. -/
def replayLoop (now : DateTime) (fromSequence : Nat) :
    List (Except WalError WalEntry) → PersistentLayer → ReplayStats →
      Except WalError ReplayStats × PersistentLayer
  | [], layer, stats => (.ok stats, layer)
  | .error e :: _, layer, _ => (.error e, layer)
  | .ok entry :: results, layer, stats =>
    if entry.sequence < fromSequence then
      replayLoop now fromSequence results layer
        { stats with entriesSkipped := stats.entriesSkipped + 1 }
    else
      match applyOperation json now entry.operation layer with
      | .error _ =>
        replayLoop now fromSequence results layer { stats with errors := stats.errors + 1 }
      | .ok layer =>
        replayLoop now fromSequence results layer
          { stats with
            entriesReplayed := stats.entriesReplayed + 1
            lastSequence := entry.sequence }

/-- `replay_wal` on a file with the given contents. -/
def replayWal (codec : WalCodec) (now : DateTime) (content : Bytes) (layer : PersistentLayer)
    (fromSequence : Nat) : Except WalError ReplayStats × PersistentLayer :=
  replayLoop json now fromSequence (WalReader.fileResults codec content) layer .default

def ReplayStats.add (total stats : ReplayStats) : ReplayStats :=
  { entriesReplayed := total.entriesReplayed + stats.entriesReplayed
    entriesSkipped := total.entriesSkipped + stats.entriesSkipped
    errors := total.errors + stats.errors
    lastSequence := max total.lastSequence stats.lastSequence }

/-- The loop of `replay_all_wals`: the first file that fails to replay ends it. -/
def replayFiles (codec : WalCodec) (now : DateTime) (fromSequence : Nat) :
    List WalFile → PersistentLayer → ReplayStats → Except WalError ReplayStats × PersistentLayer
  | [], layer, total => (.ok total, layer)
  | file :: files, layer, total =>
    match replayWal json codec now file.content layer fromSequence with
    | (.error e, layer) => (.error e, layer)
    | (.ok stats, layer) => replayFiles codec now fromSequence files layer (total.add stats)

def replayAllWals (codec : WalCodec) (now : DateTime) (dir : WalDir) (layer : PersistentLayer)
    (fromSequence : Nat) : Except WalError ReplayStats × PersistentLayer :=
  replayFiles json codec now fromSequence (scanWalFiles dir) layer .default

end

/-! ## Files of whole frames -/

section

variable (json : DocumentJson) {codec : WalCodec} (now : DateTime) (fromSequence : Nat)

theorem applyAll_append (ops ops' : List Operation) (layer : PersistentLayer) :
    applyAll json now (ops ++ ops') layer =
      applyAll json now ops' (applyAll json now ops layer) :=
  List.foldl_append

def replayedOperations (entries : List WalEntry) : List Operation :=
  (entries.filter (fun entry => fromSequence ≤ entry.sequence)).map WalEntry.operation

theorem replayedOperations_append (entries entries' : List WalEntry) :
    replayedOperations fromSequence (entries ++ entries') =
      replayedOperations fromSequence entries ++ replayedOperations fromSequence entries' := by
  simp only [replayedOperations, List.filter_append, List.map_append]

-- Over entries that were all read, the loop ends well and has applied them in order.
theorem replayLoop_ok_append (entries : List WalEntry) (results : List (Except WalError WalEntry))
    (layer : PersistentLayer) (stats : ReplayStats) :
    ∃ stats', replayLoop json now fromSequence (entries.map .ok ++ results) layer stats =
      replayLoop json now fromSequence results
        (applyAll json now (replayedOperations fromSequence entries) layer) stats' := by
  induction entries generalizing layer stats with
  | nil => exact ⟨stats, rfl⟩
  | cons entry entries ih =>
    rw [List.map_cons, List.cons_append, replayLoop]
    by_cases hskip : entry.sequence < fromSequence
    · have hfilter : replayedOperations fromSequence (entry :: entries) =
          replayedOperations fromSequence entries := by
        simp [replayedOperations, hskip]
      rw [if_pos hskip, hfilter]
      exact ih _ _
    · have hfilter : replayedOperations fromSequence (entry :: entries) =
          entry.operation :: replayedOperations fromSequence entries := by
        simp [replayedOperations, Nat.le_of_not_lt hskip]
      rw [if_neg hskip, hfilter]
      unfold applyAll
      rw [List.foldl_cons]
      cases happly : applyOperation json now entry.operation layer with
      | error e =>
        have hsame : applyOrSkip json now layer entry.operation = layer := by
          simp only [applyOrSkip, happly]
        rw [hsame]
        exact ih _ _
      | ok layer' =>
        have hnext : applyOrSkip json now layer entry.operation = layer' := by
          simp only [applyOrSkip, happly]
        rw [hnext]
        exact ih _ _

-- A file of whole frames replays without an error.
theorem replayWal_of_holds {content : Bytes} {entries : List WalEntry}
    (h : codec.Holds content entries) (layer : PersistentLayer) :
    ∃ stats, replayWal json codec now content layer fromSequence =
      (.ok stats, applyAll json now (replayedOperations fromSequence entries) layer) := by
  obtain ⟨stats, hloop⟩ := replayLoop_ok_append json now fromSequence entries [] layer
    .default
  refine ⟨stats, ?_⟩
  rw [replayWal, h.fileResults]
  rw [List.append_nil] at hloop
  exact hloop

-- A file whose entries end in a failed read fails to replay.
theorem replayWal_error {content : Bytes} {entries : List WalEntry} {e : WalError}
    {results : List (Except WalError WalEntry)}
    (h : WalReader.fileResults codec content = entries.map .ok ++ .error e :: results)
    (layer : PersistentLayer) :
    (replayWal json codec now content layer fromSequence).1 = .error e := by
  obtain ⟨stats, hloop⟩ := replayLoop_ok_append json now fromSequence entries
    (.error e :: results) layer .default
  rw [replayWal, h, hloop, replayLoop]

theorem replayFiles_of_framed {files : List WalFile}
    (h : ∀ file ∈ files, codec.Holds file.content (file.entries codec)) (layer : PersistentLayer)
    (total : ReplayStats) :
    ∃ stats, replayFiles json codec now fromSequence files layer total =
      (.ok stats, applyAll json now
        (replayedOperations fromSequence (files.flatMap (WalFile.entries codec))) layer) := by
  induction files generalizing layer total with
  | nil => exact ⟨total, rfl⟩
  | cons file files ih =>
    obtain ⟨stats, hfile⟩ := replayWal_of_holds json now fromSequence
      (h file List.mem_cons_self) layer
    obtain ⟨stats', hfiles⟩ := ih (fun f hf => h f (List.mem_cons_of_mem _ hf))
      (applyAll json now (replayedOperations fromSequence (file.entries codec)) layer)
      (total.add stats)
    refine ⟨stats', ?_⟩
    simp only [replayFiles, hfile, hfiles, List.flatMap_cons, replayedOperations_append,
      applyAll_append]

-- A directory of whole frames replays without an error, file by file.
theorem replayAllWals_of_framed {dir : WalDir} (h : dir.Framed codec) (layer : PersistentLayer) :
    ∃ stats, replayAllWals json codec now dir layer fromSequence =
      (.ok stats, applyAll json now
        (replayedOperations fromSequence (WalDir.entries codec (scanWalFiles dir))) layer) :=
  replayFiles_of_framed json now fromSequence
    (fun file hfile => h file ((scanWalFiles_perm dir).mem_iff.mp hfile)) layer .default

end

/-! ## What an operation does to each key -/

@[simp] theorem Document.applyChanges_id (now : DateTime) (doc : Document) (changes : Fields) :
    (doc.applyChanges now changes).id = doc.id := by
  unfold Document.applyChanges
  induction changes.toList generalizing doc with
  | nil => rfl
  | cons kv kvs ih => rw [List.foldl_cons, ih, Document.insert_id]

theorem Document.applyChanges_fields (now : DateTime) (doc : Document) (changes : Fields) :
    (doc.applyChanges now changes).fields = doc.fields.insertMany changes.toList := by
  rw [Std.ExtTreeMap.insertMany_list_eq_foldl]
  unfold Document.applyChanges
  induction changes.toList generalizing doc with
  | nil => rfl
  | cons kv kvs ih => rw [List.foldl_cons, List.foldl_cons, ih, Document.insert_fields]

-- A merged field is the changed one, or else the one already there.
theorem Fields.getElem?_insertMany (fields changes : Fields) (k : String) :
    (fields.insertMany changes.toList)[k]? = (changes[k]?).or fields[k]? := by
  rcases hk : changes[k]? with - | v
  · rw [Option.none_or]
    apply Std.ExtTreeMap.getElem?_insertMany_list_of_contains_eq_false
    rw [Std.ExtTreeMap.map_fst_toList_eq_keys, List.contains_eq_mem, decide_eq_false_iff_not,
      Std.ExtTreeMap.mem_keys]
    intro hmem
    rw [Std.ExtTreeMap.getElem?_eq_some_getElem hmem] at hk
    cases hk
  · rw [Option.some_or]
    exact Std.ExtTreeMap.getElem?_insertMany_list_of_mem (Std.ReflCmp.compare_self)
      Std.ExtTreeMap.distinct_keys_toList
      (Std.ExtTreeMap.mem_toList_iff_getElem?_eq_some.mpr hk)

def PersistentLayer.stored (layer : PersistentLayer) : Bytes ⊕ String → Option Bytes
  | .inl key => layer.documents[key]?
  | .inr key => layer.metadata[key]?

theorem PersistentLayer.ext_stored {a b : PersistentLayer}
    (h : ∀ key, a.stored key = b.stored key) : a = b := by
  cases a with
  | mk docs meta_ =>
    cases b with
    | mk docs' meta' =>
      have hdocs : docs = docs' := Std.ExtTreeMap.ext_getElem? (fun k => h (.inl k))
      have hmeta : meta_ = meta' := Std.ExtTreeMap.ext_getElem? (fun k => h (.inr k))
      rw [hdocs, hmeta]

variable (json : DocumentJson)

def Operation.register (operation : Operation) (key : Bytes ⊕ String) : RegisterOp Bytes Fields :=
  let overwrite (own : Bytes ⊕ String) (value : Except String Bytes) : RegisterOp Bytes Fields :=
    match value with
    | .ok bytes => if own = key then .set (some bytes) else .keep
    | .error _ => .keep
  let remove (own : Bytes ⊕ String) : RegisterOp Bytes Fields :=
    if own = key then .set none else .keep
  match operation with
  | .insert collection id fields =>
    overwrite (.inl (PersistentLayer.makeDocumentKey collection id)) (json.toVec id fields)
  | .update collection id changes =>
    if .inl (PersistentLayer.makeDocumentKey collection id) = key then .amend changes else .keep
  | .delete collection id => remove (.inl (PersistentLayer.makeDocumentKey collection id))
  | .createCollection name schema =>
    overwrite (.inr ("collection:" ++ name)) (json.schemaToVec schema)
  | .dropCollection name => remove (.inr ("collection:" ++ name))
  | .createIndex collection index =>
    overwrite (.inr ("index:" ++ collection ++ ":" ++ index.name)) (json.indexToVec index)
  | .dropIndex collection indexName =>
    remove (.inr ("index:" ++ collection ++ ":" ++ indexName))

def DocumentJson.IsRead (k : String) (v : Value) : Prop :=
  ∃ bytes id, ∃ fields : Fields, json.fromSlice bytes = .ok (id, fields) ∧ fields[k]? = some v

/-- What the layer relies on of `serde_json`.  Writing a document never fails.  Every field is
written and read back on its own: as the value `reread` gives, or else the whole document is refused
(for a double that is not finite, which is written as `null`, or a field named like the identifier,
which stands there twice).  A double may be read back as one of its neighbours.  Two values that
were read are not written alike. -/
structure DocumentJson.ReadsFields (reread : String → Value → Option Value) : Prop where
  toVec_ok : ∀ id fields, ∃ bytes, json.toVec id fields = .ok bytes
  fromSlice_toVec : ∀ {id} {fields : Fields} {bytes},
    (∀ k v, fields[k]? = some v → reread k v ≠ none) → json.toVec id fields = .ok bytes →
      ∃ fields' : Fields, json.fromSlice bytes = .ok (id, fields') ∧
        ∀ k, fields'[k]? = readBack reread k fields[k]?
  fromSlice_error : ∀ {id} {fields : Fields} {bytes k v}, fields[k]? = some v →
    reread k v = none → json.toVec id fields = .ok bytes → ∃ e, json.fromSlice bytes = .error e
  toVec_inj : ∀ {id id'} {fields fields' : Fields} {bytes k v v'},
    json.toVec id fields = .ok bytes → json.toVec id' fields' = .ok bytes →
      fields[k]? = some v → fields'[k]? = some v' →
      json.IsRead k v → json.IsRead k v' → v = v'

variable {json} {reread : String → Value → Option Value}

def mergeFields (doc : DocumentId × Fields) (changes : Fields) : DocumentId × Fields :=
  (doc.1, doc.2.insertMany changes.toList)

theorem eq_ok_of_toOption {ε α : Type} {read : Except ε α} {a : α}
    (h : read.toOption = some a) : read = .ok a := by
  cases read with
  | error e => cases h
  | ok b => exact congrArg Except.ok (Option.some.inj h)

def DocumentJson.ReadsFields.cell (h : json.ReadsFields reread) :
    Cell Bytes (DocumentId × Fields) Fields String Value DocumentId where
  decode bytes := (json.fromSlice bytes).toOption
  encode doc := (json.toVec doc.1 doc.2).toOption.getD []
  merge := mergeFields
  owner := Prod.fst
  field doc k := doc.2[k]?
  change changes k := changes[k]?
  reread := reread
  ext howner hfields := Prod.ext howner (Std.ExtTreeMap.ext_getElem? hfields)
  owner_merge _ _ := rfl
  field_merge doc changes k := Fields.getElem?_insertMany doc.2 changes k
  decode_encode := by
    intro doc hread
    obtain ⟨bytes, hto⟩ := h.toVec_ok doc.1 doc.2
    obtain ⟨fields', hfrom, hfields⟩ := h.fromSlice_toVec hread hto
    refine ⟨(doc.1, fields'), ?_, rfl, hfields⟩
    rw [hto, Except.toOption, Option.getD_some, hfrom]
    rfl
  decode_encode_none := by
    intro doc k v hk hv
    obtain ⟨bytes, hto⟩ := h.toVec_ok doc.1 doc.2
    obtain ⟨e, hfrom⟩ := h.fromSlice_error hk hv hto
    rw [hto, Except.toOption, Option.getD_some, hfrom]
    rfl
  encode_inj := by
    intro doc doc' k v v' hencode hk hk' hread hread'
    obtain ⟨bytes, hto⟩ := h.toVec_ok doc.1 doc.2
    obtain ⟨bytes', hto'⟩ := h.toVec_ok doc'.1 doc'.2
    rw [hto, hto'] at hencode
    obtain rfl : bytes = bytes' := hencode
    obtain ⟨b, e, hdecode, he⟩ := hread
    obtain ⟨b', e', hdecode', he'⟩ := hread'
    exact h.toVec_inj hto hto' hk hk' ⟨b, e.1, e.2, eq_ok_of_toOption hdecode, he⟩
      ⟨b', e'.1, e'.2, eq_ok_of_toOption hdecode', he'⟩

-- What an unrepresentable document is written as is too short for a document.
theorem placeholder_ne_nullJson (id : DocumentId) (hasField : Bool) :
    utf8 "\x7b\"_id\":\"\"\x7d" ≠ nullJson id hasField := by
  intro h
  have hlen := congrArg List.length h
  have hshort : (utf8 "\x7b\"_id\":\"\"\x7d").length = 10 := by decide
  rw [hshort, nullJson, List.length_append, List.length_append, asciiBytes, List.length_map,
    id.length_toChars] at hlen
  omega

/-- The concrete codec reads back the field `n` holding `Null`, and nothing else. -/
def nullReread : String → Value → Option Value
  | "n", .null => some .null
  | _, _ => none

theorem nullReread_eq_some {k : String} {v v' : Value} (h : nullReread k v = some v') :
    k = "n" ∧ v = .null ∧ v' = .null := by
  unfold nullReread at h
  split at h
  · exact ⟨rfl, rfl, (Option.some.inj h).symm⟩
  · cases h

theorem nullDocuments_fromSlice {bytes : Bytes} {id : DocumentId} {fields : Fields} {k : String}
    {v : Value} (h : nullDocuments.fromSlice bytes = .ok (id, fields)) (hk : fields[k]? = some v) :
    k = "n" ∧ v = .null := by
  simp only [nullDocuments] at h
  split at h
  · cases h
    simp at hk
  · split at h
    · cases h
      rw [lookup_insert] at hk
      split at hk
      · next hn => exact ⟨hn.symm, (Option.some.inj hk).symm⟩
      · exact absurd (Std.ExtTreeMap.getElem?_empty.symm.trans hk) (by simp)
    · cases h

theorem nullDocuments_readsFields : nullDocuments.ReadsFields nullReread where
  toVec_ok := by
    intro id fields
    unfold nullDocuments
    dsimp only
    split <;> exact ⟨_, rfl⟩
  fromSlice_toVec := by
    intro id fields bytes hrep hto
    have hnull : ∀ k v, fields[k]? = some v → k = "n" ∧ v = .null := by
      intro k v hk
      obtain ⟨v', hread⟩ := Option.ne_none_iff_exists'.mp (hrep k v hk)
      exact ⟨(nullReread_eq_some hread).1, (nullReread_eq_some hread).2.1⟩
    have hsame : ∀ k, fields[k]? = readBack nullReread k fields[k]? := by
      intro k
      rcases hk : fields[k]? with - | v
      · rfl
      · obtain ⟨rfl, rfl⟩ := hnull k v hk
        rfl
    refine ⟨fields, ?_, hsame⟩
    -- the fields are none at all, or the field `n` alone
    rcases hn : fields["n"]? with - | v
    · have hempty : fields = ∅ := by
        apply Std.ExtTreeMap.ext_getElem?
        intro k
        rcases hk : fields[k]? with - | w
        · rw [Std.ExtTreeMap.getElem?_empty]
        · rw [← (hnull k w hk).1, hk] at hn
          cases hn
      subst hempty
      cases hto
      exact nullDocuments_fromSlice_nullJson id false
    · obtain ⟨-, rfl⟩ := hnull _ _ hn
      have hone : fields = Std.ExtTreeMap.empty.insert "n" .null := by
        apply Std.ExtTreeMap.ext_getElem?
        intro k
        show _ = (Std.ExtTreeMap.insert ∅ "n" Value.null)[k]?
        rw [lookup_insert]
        split
        · next hk => rw [← hk, hn]
        · next hk =>
            rcases hw : fields[k]? with - | w
            · exact Std.ExtTreeMap.getElem?_empty.symm
            · exact absurd (hnull k w hw).1.symm hk
      subst hone
      cases hto
      exact nullDocuments_fromSlice_nullJson id true
  fromSlice_error := by
    intro id fields bytes k v hk hread hto
    have hmem : (k, v) ∈ fields.toList := Std.ExtTreeMap.mem_toList_iff_getElem?_eq_some.mpr hk
    unfold nullDocuments at hto
    dsimp only at hto
    split at hto
    · next hlist => simp [hlist] at hmem
    · next hlist =>
        rw [hlist, List.mem_singleton, Prod.mk.injEq] at hmem
        obtain ⟨rfl, rfl⟩ := hmem
        cases hread
    · cases hto
      refine ⟨"expected a document with null fields", ?_⟩
      simp only [nullDocuments, if_neg (placeholder_ne_nullJson _ _)]
  toVec_inj := by
    rintro id id' fields fields' bytes k v v' - - - - ⟨b, i, f, hread, hk⟩ ⟨b', i', f', hread', hk'⟩
    rw [(nullDocuments_fromSlice hread hk).2, (nullDocuments_fromSlice hread' hk').2]

/-! ## One operation on one key -/

theorem PersistentLayer.stored_insert_document (layer : PersistentLayer) (own : Bytes)
    (value : Bytes) (key : Bytes ⊕ String) :
    PersistentLayer.stored { layer with documents := layer.documents.insert own value } key =
      if .inl own = key then some value else layer.stored key := by
  cases key with
  | inl key =>
    simp only [stored, lookup_insert, Sum.inl.injEq]
  | inr key => simp only [stored, reduceCtorEq, if_false]

theorem PersistentLayer.stored_deleteDocument (layer : PersistentLayer) (collection : String)
    (docId : DocumentId) (key : Bytes ⊕ String) :
    (layer.deleteDocument collection docId).2.stored key =
      if .inl (makeDocumentKey collection docId) = key then none else layer.stored key := by
  cases key with
  | inl key =>
    simp only [stored, deleteDocument, lookup_erase, Sum.inl.injEq]
  | inr key => simp only [stored, deleteDocument, reduceCtorEq, if_false]

theorem PersistentLayer.stored_storeMetadata (layer : PersistentLayer) (own : String)
    (value : Bytes) (key : Bytes ⊕ String) :
    (layer.storeMetadata own value).stored key =
      if .inr own = key then some value else layer.stored key := by
  cases key with
  | inl key => simp only [stored, storeMetadata, reduceCtorEq, if_false]
  | inr key =>
    simp only [stored, storeMetadata, lookup_insert, Sum.inr.injEq]

theorem PersistentLayer.stored_deleteMetadata (layer : PersistentLayer) (own : String)
    (key : Bytes ⊕ String) :
    (layer.deleteMetadata own).stored key =
      if .inr own = key then none else layer.stored key := by
  cases key with
  | inl key => simp only [stored, deleteMetadata, reduceCtorEq, if_false]
  | inr key =>
    simp only [stored, deleteMetadata, lookup_erase, Sum.inr.injEq]

-- An update merges into the stored document when it can be read, and else does nothing.
theorem stored_applyOrSkip_update (h : json.ReadsFields reread) (now : DateTime)
    (layer : PersistentLayer) (collection : String) (id : DocumentId) (changes : Fields)
    (key : Bytes ⊕ String) :
    (applyOrSkip json now layer (.update collection id changes)).stored key =
      if .inl (PersistentLayer.makeDocumentKey collection id) = key
      then (layer.stored key).map (h.cell.amendValue changes) else layer.stored key := by
  unfold applyOrSkip applyOperation
  dsimp only
  unfold PersistentLayer.getDocument
  by_cases hkey : .inl (PersistentLayer.makeDocumentKey collection id) = key
  · subst hkey
    rw [if_pos rfl]
    rcases hold : layer.documents[PersistentLayer.makeDocumentKey collection id]? with - | value
    · simp only [PersistentLayer.stored, hold, Option.map_none]
    · rcases hfrom : json.fromSlice value with e | ⟨docId, fields⟩
      · -- `get_document` fails, and the operation is skipped
        have hstuck : h.cell.amendValue changes value = value := by
          simp only [Cell.amendValue, DocumentJson.ReadsFields.cell, hfrom, Except.toOption]
        simp only [PersistentLayer.stored, hold, hfrom, Option.map_some, hstuck]
      · obtain ⟨bytes, hto⟩ := h.toVec_ok docId (fields.insertMany changes.toList)
        have hamend : h.cell.amendValue changes value = bytes := by
          simp only [Cell.amendValue, DocumentJson.ReadsFields.cell, hfrom, Except.toOption,
            mergeFields, hto, Option.getD_some]
        simp only [hfrom, PersistentLayer.updateDocument, PersistentLayer.insertDocument,
          Document.applyChanges_id, Document.applyChanges_fields, hto,
          PersistentLayer.stored_insert_document, if_true]
        simp only [PersistentLayer.stored, hold, Option.map_some, hamend]
  · rw [if_neg hkey]
    rcases layer.documents[PersistentLayer.makeDocumentKey collection id]? with - | value
    · rfl
    · rcases hfrom : json.fromSlice value with e | ⟨docId, fields⟩
      · simp only [hfrom]
      · obtain ⟨bytes, hto⟩ := h.toVec_ok docId (fields.insertMany changes.toList)
        simp only [hfrom, PersistentLayer.updateDocument, PersistentLayer.insertDocument,
          Document.applyChanges_id, Document.applyChanges_fields, hto,
          PersistentLayer.stored_insert_document, if_neg hkey]

-- **The step lemma.** An operation acts on each key as its register says.
theorem stored_applyOrSkip (h : json.ReadsFields reread) (now : DateTime)
    (layer : PersistentLayer) (operation : Operation) (key : Bytes ⊕ String) :
    (applyOrSkip json now layer operation).stored key =
      h.cell.act (operation.register json key) (layer.stored key) := by
  cases operation with
  | insert collection id fields =>
    cases hto : json.toVec id fields with
    | error e =>
      simp only [applyOrSkip, applyOperation, PersistentLayer.insertDocument,
        Operation.register, hto, Cell.act]
    | ok bytes =>
      simp only [applyOrSkip, applyOperation, PersistentLayer.insertDocument,
        Operation.register, hto, PersistentLayer.stored_insert_document]
      split <;> rfl
  | update collection id changes =>
    rw [stored_applyOrSkip_update h, Operation.register]
    split <;> rfl
  | delete collection id =>
    simp only [applyOrSkip, applyOperation, Operation.register,
      PersistentLayer.stored_deleteDocument]
    split <;> rfl
  | createCollection name schema =>
    cases hto : json.schemaToVec schema with
    | error e => simp only [applyOrSkip, applyOperation, Operation.register, hto, Cell.act]
    | ok bytes =>
      simp only [applyOrSkip, applyOperation, Operation.register, hto,
        PersistentLayer.stored_storeMetadata]
      split <;> rfl
  | dropCollection name =>
    simp only [applyOrSkip, applyOperation, Operation.register,
      PersistentLayer.stored_deleteMetadata]
    split <;> rfl
  | createIndex collection index =>
    cases hto : json.indexToVec index with
    | error e => simp only [applyOrSkip, applyOperation, Operation.register, hto, Cell.act]
    | ok bytes =>
      simp only [applyOrSkip, applyOperation, Operation.register, hto,
        PersistentLayer.stored_storeMetadata]
      split <;> rfl
  | dropIndex collection indexName =>
    simp only [applyOrSkip, applyOperation, Operation.register,
      PersistentLayer.stored_deleteMetadata]
    split <;> rfl

-- The clock only shows in the metadata of a document, which is not stored.
theorem applyAll_now (h : json.ReadsFields reread) (now now' : DateTime)
    (ops : List Operation) (layer : PersistentLayer) :
    applyAll json now ops layer = applyAll json now' ops layer := by
  apply PersistentLayer.ext_stored
  intro key
  unfold applyAll
  rw [h.cell.get_foldl PersistentLayer.stored _ _ (stored_applyOrSkip h now),
    h.cell.get_foldl PersistentLayer.stored _ _ (stored_applyOrSkip h now')]

/-! ## Logs and stores -/

/-- The operation replaces or removes what is stored under the key of a document. -/
def Operation.Overwrites (key : Bytes) : Operation → Prop
  | .insert collection id _ => PersistentLayer.makeDocumentKey collection id = key
  | .delete collection id => PersistentLayer.makeDocumentKey collection id = key
  | _ => False

def updatesOf (key : Bytes) (log : List Operation) : List Fields :=
  log.filterMap fun operation =>
    match operation with
    | .update collection id changes =>
      if PersistentLayer.makeDocumentKey collection id = key then some changes else none
    | _ => none

variable (json)

def OnlyUpdated (log : List Operation) (layer : PersistentLayer) (key : Bytes) (fields : Fields) :
    Prop :=
  (∀ operation ∈ log, ¬operation.Overwrites key) ∧
    ∃ bytes id, layer.documents[key]? = some bytes ∧ json.fromSlice bytes = .ok (id, fields)

/-- Of the documents that are only updated, no field as it is stored or set is refused after it was
once read back; the updates may set values that are refused at once. -/
def SteadyUnder (reread : String → Value → Option Value) (log : List Operation)
    (layer : PersistentLayer) : Prop :=
  ∀ key fields, OnlyUpdated json log layer key fields → updatesOf key log ≠ [] →
    (∀ k v, fields[k]? = some v → Lasting reread k v) ∧
      ∀ changes ∈ updatesOf key log, Clean reread (fun (set : Fields) k => set[k]?) changes ∨
        Refused reread (fun (set : Fields) k => set[k]?) changes

def SettledUnder (reread : String → Value → Option Value) (log : List Operation)
    (layer : PersistentLayer) : Prop :=
  ∀ key fields, OnlyUpdated json log layer key fields →
    Settles reread (fun (set : Fields) k => set[k]?) (fun k => fields[k]?) (updatesOf key log)

/-- Applying any prefix of the log and then the whole log gives the store that the log alone gives,
whatever the clock shows at each pass. -/
def ReplaysAlike (log : List Operation) (layer : PersistentLayer) : Prop :=
  ∀ ops, ops <+: log → ∀ now now' now'',
    applyAll json now' log (applyAll json now ops layer) = applyAll json now'' log layer

variable {json}

theorem updatesOf_cons (key : Bytes) (operation : Operation) (log : List Operation) :
    updatesOf key (operation :: log) = updatesOf key [operation] ++ updatesOf key log := by
  rw [← List.singleton_append, updatesOf, List.filterMap_append]
  rfl

-- What an operation does to the key of a document.
theorem Operation.register_cases (h : json.ReadsFields reread) (operation : Operation)
    (key : Bytes) :
    (operation.Overwrites key ∧ updatesOf key [operation] = [] ∧
        ∃ value, operation.register json (.inl key) = .set value) ∨
      (¬operation.Overwrites key ∧ updatesOf key [operation] = [] ∧
        operation.register json (.inl key) = .keep) ∨
      ¬operation.Overwrites key ∧ ∃ changes, updatesOf key [operation] = [changes] ∧
        operation.register json (.inl key) = .amend changes := by
  cases operation with
  | insert collection id fields =>
    obtain ⟨bytes, hto⟩ := h.toVec_ok id fields
    by_cases hkey : PersistentLayer.makeDocumentKey collection id = key
    · exact .inl ⟨hkey, rfl, some bytes, by simp [register, hto, hkey]⟩
    · exact .inr (.inl ⟨hkey, rfl, by simp [register, hto, hkey]⟩)
  | update collection id changes =>
    by_cases hkey : PersistentLayer.makeDocumentKey collection id = key
    · exact .inr (.inr ⟨not_false, changes, by simp [updatesOf, hkey], by simp [register, hkey]⟩)
    · exact .inr (.inl ⟨not_false, by simp [updatesOf, hkey], by simp [register, hkey]⟩)
  | delete collection id =>
    by_cases hkey : PersistentLayer.makeDocumentKey collection id = key
    · exact .inl ⟨hkey, rfl, none, by simp [register, hkey]⟩
    · exact .inr (.inl ⟨hkey, rfl, by simp [register, hkey]⟩)
  | createCollection name schema =>
    refine .inr (.inl ⟨not_false, rfl, ?_⟩)
    cases hto : json.schemaToVec schema <;> simp [register, hto]
  | dropCollection name => exact .inr (.inl ⟨not_false, rfl, by simp [register]⟩)
  | createIndex collection index =>
    refine .inr (.inl ⟨not_false, rfl, ?_⟩)
    cases hto : json.indexToVec index <;> simp [register, hto]
  | dropIndex collection indexName => exact .inr (.inl ⟨not_false, rfl, by simp [register]⟩)

theorem changes_register_inl (h : json.ReadsFields reread) (key : Bytes) (log : List Operation) :
    changes (log.map (·.register json (.inl key))) = updatesOf key log := by
  induction log with
  | nil => rfl
  | cons operation log ih =>
    rw [List.map_cons, updatesOf_cons, ← ih]
    rcases operation.register_cases h key with
      ⟨-, hnone, value, hset⟩ | ⟨-, hnone, hkeep⟩ | ⟨-, changed, hone, hamend⟩
    · rw [hnone, hset]
      rfl
    · rw [hnone, hkeep]
      rfl
    · rw [hone, hamend]
      rfl

-- Metadata is never amended.
theorem changes_register_inr (key : String) (log : List Operation) :
    changes (log.map (·.register json (.inr key))) = [] := by
  induction log with
  | nil => rfl
  | cons operation log ih =>
    rw [List.map_cons]
    cases hregister : operation.register json (.inr key) with
    | keep => exact ih
    | set value => exact ih
    | amend changed =>
      cases operation <;> simp only [Operation.register, reduceCtorEq, if_false] at hregister
      all_goals split at hregister <;> try split at hregister
      all_goals cases hregister

theorem not_set_register_iff (h : json.ReadsFields reread) (key : Bytes) (log : List Operation) :
    (∀ value, .set value ∉ log.map (·.register json (.inl key))) ↔
      ∀ operation ∈ log, ¬operation.Overwrites key := by
  constructor
  · intro hno operation hmem hover
    rcases operation.register_cases h key with ⟨-, -, value, hset⟩ | ⟨hnot, -⟩ | ⟨hnot, -⟩
    · exact hno value (List.mem_map.mpr ⟨operation, hmem, hset⟩)
    · exact hnot hover
    · exact hnot hover
  · intro hnot value hmem
    obtain ⟨operation, hoperation, hset⟩ := List.mem_map.mp hmem
    rcases operation.register_cases h key with ⟨hover, -⟩ | ⟨-, -, hkeep⟩ | ⟨-, changed, -, hamend⟩
    · exact hnot operation hoperation hover
    · rw [hkeep] at hset
      cases hset
    · rw [hamend] at hset
      cases hset

theorem onlyUpdated_of_stored (h : json.ReadsFields reread) {log : List Operation}
    {layer : PersistentLayer} {key : Bytes} {bytes : Bytes} {doc : DocumentId × Fields}
    (hno : ∀ value, .set value ∉ log.map (·.register json (.inl key)))
    (hstored : layer.stored (.inl key) = some bytes) (hread : h.cell.decode bytes = some doc) :
    OnlyUpdated json log layer key doc.2 :=
  ⟨(not_set_register_iff h key log).mp hno, bytes, doc.1, hstored, eq_ok_of_toOption hread⟩

theorem SteadyUnder.steady (h : json.ReadsFields reread) {log : List Operation}
    {layer : PersistentLayer} (hsteady : SteadyUnder json reread log layer)
    (key : Bytes ⊕ String) :
    h.cell.Steady (log.map (·.register json key)) (layer.stored key) := by
  intro hno hsome bytes doc hstored hread
  cases key with
  | inl key =>
    rw [changes_register_inl h] at hsome ⊢
    exact hsteady key doc.2 (onlyUpdated_of_stored h hno hstored hread) hsome
  | inr key => exact absurd (changes_register_inr key log) hsome

theorem settled_iff (h : json.ReadsFields reread) (log : List Operation)
    (layer : PersistentLayer) :
    (∀ key, h.cell.Settled (log.map (·.register json key)) (layer.stored key)) ↔
      SettledUnder json reread log layer := by
  constructor
  · rintro hsettled key fields ⟨hnot, bytes, id, hstored, hread⟩
    have hdecode : h.cell.decode bytes = some (id, fields) := by
      show (json.fromSlice bytes).toOption = _
      rw [hread]
      rfl
    rw [← changes_register_inl h]
    exact hsettled (.inl key) ((not_set_register_iff h key log).mpr hnot) bytes (id, fields)
      hstored hdecode
  · intro hsettled key hno bytes doc hstored hread
    cases key with
    | inl key =>
      rw [changes_register_inl h]
      exact hsettled key doc.2 (onlyUpdated_of_stored h hno hstored hread)
    | inr key =>
      rw [changes_register_inr]
      trivial

/-- **When replay is idempotent.**  A log can be replayed over what any prefix of it left exactly
when the documents it only updates have settled at its end. -/
theorem applyAll_prefix_iff (h : json.ReadsFields reread) (log : List Operation)
    (layer : PersistentLayer) (hsteady : SteadyUnder json reread log layer) :
    ReplaysAlike json log layer ↔ SettledUnder json reread log layer := by
  have hreplay := h.cell.foldl_prefix_iff PersistentLayer.stored (applyOrSkip json 0)
    (Operation.register json) (fun _ _ => PersistentLayer.ext_stored) (stored_applyOrSkip h 0)
    (hsteady.steady h)
  rw [← settled_iff h, ← hreplay]
  constructor
  · intro hall ops hops
    exact hall ops hops 0 0 0
  · intro hall ops hops now now' now''
    rw [applyAll_now h now' 0, applyAll_now h now 0, applyAll_now h now'' 0]
    exact hall ops hops

/-- A store in which users 1 holds a `Null` in its field `n`. -/
def storedNull : PersistentLayer :=
  { PersistentLayer.empty with
    documents := PersistentLayer.empty.documents.insert
      (PersistentLayer.makeDocumentKey "users" ⟨1⟩) (nullJson ⟨1⟩ true) }

/-- One document updated twice and never overwritten, the second time by a value that cannot be read
back, and another inserted, updated, deleted and inserted again. -/
def mixedLog : List Operation :=
  let one : Fields := Std.ExtTreeMap.empty.insert "n" .null
  let two : Fields := Std.ExtTreeMap.empty.insert "m" (.bool true)
  [.insert "users" ⟨2⟩ ∅, .update "users" ⟨1⟩ ∅, .update "users" ⟨2⟩ one, .delete "users" ⟨2⟩,
   .update "users" ⟨1⟩ two, .insert "users" ⟨2⟩ one, .dropCollection "users"]

theorem mixedLog_replays : ReplaysAlike nullDocuments mixedLog storedNull := by
  have hfixed : ∀ k v v', nullReread k v = some v' → v' = v := by
    intro k v v' hread
    obtain ⟨-, rfl, rfl⟩ := nullReread_eq_some hread
    rfl
  have hread : ∀ key (fields : Fields), OnlyUpdated nullDocuments mixedLog storedNull key fields →
      ∀ k v, fields[k]? = some v → nullReread k v = some v := by
    rintro key fields ⟨-, bytes, id, -, hdecode⟩ k v hk
    obtain ⟨rfl, rfl⟩ := nullDocuments_fromSlice hdecode hk
    rfl
  refine (applyAll_prefix_iff nullDocuments_readsFields mixedLog storedNull ?_).mpr ?_
  · rintro key fields honly -
    exact ⟨fun k v hk => lasting_of_fixed (hread key fields honly k v hk),
      fun changes _ => clean_or_refused_of_fixed hfixed changes⟩
  · intro key fields honly
    exact settles_of_fixed (hread key fields honly) _

/-! ### A double that drifts

`serde_json` reads the number `1e-24` as the double next to it, whose text it reads as `1e-24`
again. -/

def small : F64 := ⟨0x3af357c299a88ea7⟩

def smallNext : F64 := ⟨0x3af357c299a88ea8⟩

/-- The document with the number in its field `x` and, as it may be, a `Null` in its field `n`. -/
def smallJson (hasField : Bool) (number : String) : Bytes :=
  utf8 "\x7b\"_id\":\"" ++ asciiBytes (DocumentId.toChars ⟨1⟩) ++
    utf8 (if hasField then "\",\"n\":\x7b\"type\":\"Null\"\x7d" else "\"") ++
    utf8 (",\"x\":\x7b\"type\":\"Float64\",\"value\":" ++ number ++ "\x7d\x7d")

def smallFields (hasField : Bool) (x : F64) : Fields :=
  let fields : Fields := Std.ExtTreeMap.empty.insert "x" (.float64 x)
  if hasField then fields.insert "n" .null else fields

/-- `serde_json` on the documents with one of the two doubles. -/
def smallDocuments : DocumentJson where
  toVec _ fields :=
    match fields["x"]? with
    | some (.float64 x) =>
      .ok (smallJson (fields.contains "n")
        (if x = small then "1e-24" else "1.0000000000000001e-24"))
    | _ => .error "no number"
  fromSlice bytes :=
    if bytes = smallJson false "1e-24" then .ok (⟨1⟩, smallFields false smallNext)
    else if bytes = smallJson true "1e-24" then .ok (⟨1⟩, smallFields true smallNext)
    else if bytes = smallJson false "1.0000000000000001e-24" then
      .ok (⟨1⟩, smallFields false small)
    else if bytes = smallJson true "1.0000000000000001e-24" then .ok (⟨1⟩, smallFields true small)
    else .error "no such document"
  schemaToVec _ := .error "no schemas"
  indexToVec _ := .error "no indexes"

def storedSmall : PersistentLayer :=
  { PersistentLayer.empty with
    documents := PersistentLayer.empty.documents.insert
      (PersistentLayer.makeDocumentKey "users" ⟨1⟩) (smallJson false "1e-24") }

/-- An update of another field reads and writes the number again, at each replay. -/
theorem not_replaysAlike :
    ¬ReplaysAlike smallDocuments
      [.update "users" ⟨1⟩ (Std.ExtTreeMap.empty.insert "n" .null)] storedSmall := by
  intro h
  have hsame := h _ (List.prefix_refl _) 0 0 0
  have hbytes := congrArg
    (fun layer : PersistentLayer => layer.documents[PersistentLayer.makeDocumentKey "users" ⟨1⟩]?)
    hsame
  revert hbytes
  decide +kernel

end VedDb
