import VedDb.Snapshot.Loading
import VedDb.Snapshot.Written

/-!
# The snapshot round trip

When a snapshot of a store, loaded into an empty one, brings back every document.  A collection is
listed by what stands before the first colon of its keys, a failing scan is written as an empty
collection, a document is stored under the identifier it carries, and the header panics past its
256 bytes; each of these loses documents of some stores, and nothing else does.
-/

namespace VedDb

open LittleEndian (Bytes)

/-!
## The records of a snapshot

What a reader of a snapshot stores, as a function of the store the snapshot was taken of.  A
document is encoded for the file, decoded by the reader and encoded again for the store, under the
name its collection was listed by and the identifier it carries itself.
-/

/-- The write a reader makes of the JSON of a document. -/
def storedAs (json : DocumentJson) (name : String) (text : Bytes) : Option (Bytes × Bytes) :=
  match json.fromSlice text with
  | .error _ => none
  | .ok (id, fields) =>
    match json.toVec id fields with
    | .error _ => none
    | .ok value => some (PersistentLayer.makeDocumentKey name id, value)

/-- The write a reader makes of a document that the writer scanned. -/
def transported (json : DocumentJson) (name : String) (doc : Document) : Option (Bytes × Bytes) :=
  match json.toVec doc.id doc.fields with
  | .error _ => none
  | .ok text => storedAs json name text

/-- The writes of a load of the snapshot of a layer. -/
def snapshotRecords (env : SnapshotEnv) (now : DateTime) (layer : PersistentLayer) :
    List (Bytes × Bytes) :=
  layer.listCollections.flatMap fun name =>
    (scanOrDefault env now layer name).filterMap (transported env.json name)

/-- Every scanned document reaches the reader and can be stored there. -/
def Transportable (env : SnapshotEnv) (now : DateTime) (layer : PersistentLayer) : Prop :=
  ∀ name ∈ layer.listCollections, ∀ doc ∈ scanOrDefault env now layer name,
    (transported env.json name doc).isSome

/-! ## The walk over what was written -/

section

variable (env : SnapshotEnv) (now : DateTime)

theorem visitJsons_tracer (header : CollectionHeader) (jsons : List Bytes)
    (writes writes' : List (Bytes × Bytes)) :
    (snapshotTracer env).visitJsons env now header jsons writes = (.ok (), writes') ↔
      (∀ text ∈ jsons, (storedAs env.json header.name text).isSome) ∧
        writes' = writes ++ jsons.filterMap (storedAs env.json header.name) := by
  induction jsons generalizing writes with
  | nil =>
    simp only [SnapshotVisitor.visitJsons, Prod.mk.injEq, true_and, List.filterMap_nil,
      List.append_nil, List.not_mem_nil, false_implies, implies_true]
    exact eq_comm
  | cons text jsons ih =>
    have hstored : storedAs env.json header.name text =
        match env.json.fromSlice text with
        | .error _ => none
        | .ok (id, fields) =>
          match env.json.toVec id fields with
          | .error _ => none
          | .ok value => some (PersistentLayer.makeDocumentKey header.name id, value) := rfl
    rw [SnapshotVisitor.visitJsons, List.forall_mem_cons, List.filterMap_cons]
    cases hfrom : env.json.fromSlice text with
    | error e =>
      simp only [hfrom] at hstored
      simp [hstored]
    | ok read =>
      simp only [snapshotTracer]
      cases hto : env.json.toVec read.1 read.2 with
      | error e =>
        simp only [hfrom, hto] at hstored
        simp [hstored]
      | ok value =>
        simp only [hfrom, hto] at hstored
        have hrec := ih (writes ++ [(PersistentLayer.makeDocumentKey header.name read.1,
          value)])
        simp only [snapshotTracer] at hrec
        simp only [hstored, hrec, Option.isSome_some, true_and, List.append_assoc,
          List.singleton_append]

theorem visitWritten_tracer (cs : List WrittenCollection) (writes writes' : List (Bytes × Bytes)) :
    (snapshotTracer env).visitWritten env now cs writes = (.ok (), writes') ↔
      (∀ c ∈ cs, ∀ text ∈ c.documents, (storedAs env.json c.header.name text).isSome) ∧
        writes' = writes ++
          cs.flatMap fun c => c.documents.filterMap (storedAs env.json c.header.name) := by
  induction cs generalizing writes with
  | nil =>
    simp only [SnapshotVisitor.visitWritten, Prod.mk.injEq, true_and, List.flatMap_nil,
      List.append_nil, List.not_mem_nil, false_implies, implies_true]
    exact eq_comm
  | cons c cs ih =>
    have hcollection : (snapshotTracer env).collection writes c.header = writes := rfl
    rw [SnapshotVisitor.visitWritten, hcollection, List.forall_mem_cons, List.flatMap_cons]
    have hown := visitJsons_tracer env now c.header c.documents writes
    cases hvisit : (snapshotTracer env).visitJsons env now c.header c.documents writes with
    | mk result after =>
      cases result with
      | error e =>
        have hfails : ¬∀ text ∈ c.documents,
            (storedAs env.json c.header.name text).isSome := by
          intro hall
          have heq := (hown _).mpr ⟨hall, rfl⟩
          rw [hvisit] at heq
          simp at heq
        simp [hfails]
      | ok done =>
        obtain ⟨hall, hafter⟩ := (hown after).mp hvisit
        dsimp only
        rw [ih, hafter]
        simp only [eq_true hall, true_and, List.append_assoc]

end

/-! ## The snapshot of a layer -/

variable {env : SnapshotEnv} {now : DateTime} {layer : PersistentLayer} {walSequence : Nat}

-- The JSON of a collection's documents, as the writer leaves it and as the reader takes it.
theorem filterMap_storedAs (json : DocumentJson) (name : String) {docs : List Document}
    {jsons : List Bytes}
    (h : List.Forall₂ (fun doc text => json.toVec doc.id doc.fields = .ok text) docs jsons) :
    jsons.filterMap (storedAs json name) = docs.filterMap (transported json name) ∧
      ((∀ text ∈ jsons, (storedAs json name text).isSome) ↔
        ∀ doc ∈ docs, (transported json name doc).isSome) := by
  induction h with
  | nil => simp
  | @cons doc text docs jsons hto _ ih =>
    have hsame : transported json name doc = storedAs json name text := by
      simp only [transported, hto]
    simp only [List.filterMap_cons, List.forall_mem_cons, hsame, ih.1, ih.2, and_self]

theorem written_records {names : List String} {cs : List WrittenCollection}
    (h : List.Forall₂ (WritesCollection env now layer) names cs) :
    (cs.flatMap fun c => c.documents.filterMap (storedAs env.json c.header.name)) =
        (names.flatMap fun name =>
          (scanOrDefault env now layer name).filterMap (transported env.json name)) ∧
      ((∀ c ∈ cs, ∀ text ∈ c.documents, (storedAs env.json c.header.name text).isSome) ↔
        ∀ name ∈ names, ∀ doc ∈ scanOrDefault env now layer name,
          (transported env.json name doc).isSome) := by
  induction h with
  | nil => simp
  | @cons name c names cs hc _ ih =>
    have hname : c.header.name = name := by
      rw [hc.header_eq]
      rfl
    obtain ⟨hwrites, hall⟩ := filterMap_storedAs env.json name hc.documents_json
    simp only [List.flatMap_cons, List.forall_mem_cons, hname, hwrites, hall, ih.1, ih.2,
      and_self]

/-- The walk over the snapshot of a layer: it accepts the file exactly when every scanned document
can be transported, and stores the records of the layer. -/
theorem trace_createSnapshot (later : DateTime) {content : Bytes}
    (hcreate : createSnapshot env now layer walSequence = .ok content)
    (hr : Reproduces env now layer walSequence) (sequence : Nat)
    (writes : List (Bytes × Bytes)) :
    (snapshotTracer env).visitSnapshot env later content [] = (.ok sequence, writes) ↔
      Transportable env now layer ∧ sequence = walSequence ∧
        writes = snapshotRecords env now layer := by
  obtain ⟨w, hw, rfl⟩ := createSnapshot_eq_ok_iff.mp hcreate
  have hvisit := (hw.readable hr).visitSnapshot later (snapshotTracer env) []
  have hsequence : w.header.sequence = walSequence := by
    rw [hw.header_eq]
    rfl
  obtain ⟨hrecords, hall⟩ := written_records hw.collections
  have htrace := visitWritten_tracer env later w.collections []
  rw [hall, hrecords] at htrace
  rw [hvisit]
  cases hwritten : (snapshotTracer env).visitWritten env later w.collections [] with
  | mk result after =>
    cases result with
    | error e =>
      have hfails : ¬Transportable env now layer := by
        intro htransport
        have heq := (htrace _).mpr ⟨htransport, rfl⟩
        rw [hwritten] at heq
        simp at heq
      simp [hfails]
    | ok done =>
      obtain ⟨htransport, hafter⟩ := (htrace after).mp hwritten
      have hholds : Transportable env now layer := htransport
      rw [List.nil_append] at hafter
      simp only [Prod.mk.injEq, Except.ok.injEq, hsequence, hholds, true_and]
      rw [hafter]
      constructor
      · intro h
        exact ⟨h.1.symm, h.2.symm⟩
      · intro h
        exact ⟨h.1.symm, h.2.symm⟩

section

variable {content : Bytes} (later : DateTime)
  (hcreate : createSnapshot env now layer walSequence = .ok content)
  (hr : Reproduces env now layer walSequence)

include hcreate hr

theorem loadSnapshot_createSnapshot_iff (target : PersistentLayer) (sequence : Nat) :
    (loadSnapshot env later content target).1 = .ok sequence ↔
      Transportable env now layer ∧ sequence = walSequence := by
  have htrace := trace_createSnapshot later hcreate hr sequence
  rw [(loadSnapshot_alike env later content target).eq_ok_iff]
  constructor
  · intro hok
    obtain ⟨htransport, hsequence, -⟩ := (htrace _).mp (Prod.ext hok rfl)
    exact ⟨htransport, hsequence⟩
  · intro ⟨htransport, hsequence⟩
    rw [(htrace _).mpr ⟨htransport, hsequence, rfl⟩]

theorem snapshotWrites_createSnapshot (htransport : Transportable env now layer) :
    snapshotWrites env later content = snapshotRecords env now layer := by
  rw [snapshotWrites, (trace_createSnapshot later hcreate hr _ _).mpr ⟨htransport, rfl, rfl⟩]

end

/-- A document that is read back keeps its identifier. -/
def DocumentJson.KeepsId (json : DocumentJson) : Prop :=
  ∀ id fields text id' fields', json.toVec id fields = .ok text →
    json.fromSlice text = .ok (id', fields') → id' = id

/-- The document is the same after being written and read twice, once for the file and once for
the store. -/
def DocumentJson.Survives (json : DocumentJson) (id : DocumentId) (fields : Fields) : Prop :=
  ∃ text fields' value, json.toVec id fields = .ok text ∧ json.fromSlice text = .ok (id, fields') ∧
    json.toVec id fields' = .ok value ∧ json.fromSlice value = .ok (id, fields)

theorem transported_eq_some {json : DocumentJson} {name : String} {doc : Document}
    {write : Bytes × Bytes} (h : transported json name doc = some write) :
    ∃ text id fields, json.toVec doc.id doc.fields = .ok text ∧
      json.fromSlice text = .ok (id, fields) ∧ json.toVec id fields = .ok write.2 ∧
      write.1 = PersistentLayer.makeDocumentKey name id := by
  unfold transported at h
  cases hto : json.toVec doc.id doc.fields with
  | error e => simp only [hto, reduceCtorEq] at h
  | ok text =>
    simp only [hto, storedAs] at h
    cases hfrom : json.fromSlice text with
    | error e => simp only [hfrom, reduceCtorEq] at h
    | ok read =>
      simp only [hfrom] at h
      cases hagain : json.toVec read.1 read.2 with
      | error e => simp only [hagain, reduceCtorEq] at h
      | ok value =>
        simp only [hagain, Option.some.injEq] at h
        exact ⟨text, read.1, read.2, rfl, hfrom, by rw [← h]; exact hagain, by rw [← h]⟩

theorem DocumentJson.Survives.transported {json : DocumentJson} {doc : Document}
    (h : json.Survives doc.id doc.fields) (name : String) :
    ∃ value, transported json name doc =
        some (PersistentLayer.makeDocumentKey name doc.id, value) ∧
      json.fromSlice value = .ok (doc.id, doc.fields) := by
  obtain ⟨text, fields, value, hto, hfrom, hagain, hback⟩ := h
  refine ⟨value, ?_, hback⟩
  simp only [VedDb.transported, hto, storedAs, hfrom, hagain]

/-! ## Scans -/

section

variable {env : SnapshotEnv} {now : DateTime} {layer : PersistentLayer} {name : String}

-- A scanned document stands under a key with the collection's name and a colon.
theorem mem_scanOrDefault {doc : Document} (h : doc ∈ scanOrDefault env now layer name) :
    ∃ key value, layer.documents[key]? = some value ∧
      (utf8 (name ++ ":")).isPrefixOf key = true ∧
      env.json.fromSlice value = .ok (doc.id, doc.fields) := by
  unfold scanOrDefault PersistentLayer.scanCollection at h
  cases hscan : PersistentLayer.decodeDocuments env.json now (layer.documents.toList.filter
      fun entry => (utf8 (name ++ ":")).isPrefixOf entry.1) with
  | error e =>
    simp only [hscan] at h
    cases h
  | ok docs =>
    simp only [hscan] at h
    obtain ⟨entry, hentry, hdecodes, -⟩ :=
      exists_of_forall₂_right (decodeDocuments_eq_ok_iff.mp hscan) h
    obtain ⟨hstored, hpre⟩ := mem_entries.mp hentry
    exact ⟨entry.1, entry.2, hstored, hpre, hdecodes⟩

-- A scan that finds anything has decoded everything.
theorem exists_mem_scanOrDefault {doc : Document} (h : doc ∈ scanOrDefault env now layer name)
    {key value : Bytes} (hstored : layer.documents[key]? = some value)
    (hpre : (utf8 (name ++ ":")).isPrefixOf key = true) :
    ∃ doc ∈ scanOrDefault env now layer name,
      env.json.fromSlice value = .ok (doc.id, doc.fields) := by
  unfold scanOrDefault PersistentLayer.scanCollection at h ⊢
  cases hscan : PersistentLayer.decodeDocuments env.json now (layer.documents.toList.filter
      fun entry => (utf8 (name ++ ":")).isPrefixOf entry.1) with
  | error e =>
    simp only [hscan] at h
    cases h
  | ok docs =>
    obtain ⟨doc, hdoc, hdecodes, -⟩ :=
      exists_of_forall₂_left (decodeDocuments_eq_ok_iff.mp hscan)
        (mem_entries.mpr ⟨hstored, hpre⟩)
    exact ⟨doc, hdoc, hdecodes⟩

-- A scan finds every entry when all of them decode.
theorem exists_mem_scanOrDefault_of_decodes
    (hall : ∀ key value, layer.documents[key]? = some value →
      (utf8 (name ++ ":")).isPrefixOf key = true → ∃ id fields,
        env.json.fromSlice value = .ok (id, fields))
    {key value : Bytes} (hstored : layer.documents[key]? = some value)
    (hpre : (utf8 (name ++ ":")).isPrefixOf key = true) :
    ∃ doc ∈ scanOrDefault env now layer name,
      env.json.fromSlice value = .ok (doc.id, doc.fields) := by
  have hdocs : ∀ entry ∈ layer.documents.toList.filter fun entry =>
      (utf8 (name ++ ":")).isPrefixOf entry.1, ∃ doc, Decodes env.json now entry doc := by
    intro entry hentry
    obtain ⟨hown, hownPre⟩ := mem_entries.mp hentry
    obtain ⟨id, fields, hfrom⟩ := hall _ _ hown hownPre
    exact ⟨⟨id, fields, DocumentMetadata.default now⟩, hfrom, rfl⟩
  obtain ⟨docs, hforall⟩ := exists_forall₂ hdocs
  obtain ⟨doc, hdoc, hdecodes, -⟩ :=
    exists_of_forall₂_left hforall (mem_entries.mpr ⟨hstored, hpre⟩)
  refine ⟨doc, ?_, hdecodes⟩
  simp only [scanOrDefault, PersistentLayer.scanCollection, decodeDocuments_eq_ok_iff.mpr hforall]
  exact hdoc

end

/-! ## Stores that survive -/

/-- The snapshot of the layer can be written and holds every document: its header fits, and each
stored document lies in a collection without a colon in its name, decodes to the identifier of its
key and survives the codec. -/
structure Portable (env : SnapshotEnv) (now : DateTime) (layer : PersistentLayer)
    (walSequence : Nat) : Prop where
  header_fits : ∀ json,
    env.snapshot.headerToVec ((SnapshotHeader.new now walSequence).sealed env) = .ok json →
      json.length ≤ 256
  documents : ∀ collection id value,
    layer.documents[PersistentLayer.makeDocumentKey collection id]? = some value →
      ':' ∉ collection.toList ∧ ∃ fields, env.json.fromSlice value = .ok (id, fields) ∧
        env.json.Survives id fields

section

variable {env : SnapshotEnv} {now later : DateTime} {layer : PersistentLayer} {walSequence : Nat}

theorem mem_snapshotRecords {write : Bytes × Bytes} :
    write ∈ snapshotRecords env now layer ↔
      ∃ name ∈ layer.listCollections, ∃ doc ∈ scanOrDefault env now layer name,
        transported env.json name doc = some write := by
  simp only [snapshotRecords, List.mem_flatMap, List.mem_filterMap]

theorem colon_notMem_of_mem_listCollections {name : String} (h : name ∈ layer.listCollections) :
    ':' ∉ name.toList := by
  obtain ⟨key, -, hkey⟩ := PersistentLayer.mem_listCollections.mp h
  exact (PersistentLayer.collectionOfKey_eq_some hkey).1

namespace Portable

variable (hp : Portable env now layer walSequence) (hkeyed : layer.Keyed)

include hp hkeyed

-- An entry under a collection's name and a colon belongs to that collection.
theorem entry {name : String} {key value : Bytes}
    (hstored : layer.documents[key]? = some value)
    (hpre : (utf8 (name ++ ":")).isPrefixOf key = true) :
    ∃ id fields, key = PersistentLayer.makeDocumentKey name id ∧
      env.json.fromSlice value = .ok (id, fields) ∧ env.json.Survives id fields := by
  obtain ⟨collection, id, hkey⟩ := hkeyed key value hstored
  rw [hkey] at hstored hpre
  obtain ⟨hcolon, fields, hfrom, hsurvives⟩ := hp.documents collection id value hstored
  rw [(PersistentLayer.isPrefixOf_makeDocumentKey hcolon).mp hpre]
  exact ⟨id, fields, hkey, hfrom, hsurvives⟩

theorem scanned {name : String} {doc : Document}
    (hdoc : doc ∈ scanOrDefault env now layer name) :
    ∃ value, layer.documents[PersistentLayer.makeDocumentKey name doc.id]? = some value ∧
      env.json.fromSlice value = .ok (doc.id, doc.fields) ∧
      env.json.Survives doc.id doc.fields := by
  obtain ⟨key, value, hstored, hpre, hfrom⟩ := mem_scanOrDefault hdoc
  obtain ⟨id, fields, hkey, hown, hsurvives⟩ :=
    hp.entry hkeyed hstored hpre
  rw [hfrom, Except.ok.injEq, Prod.mk.injEq] at hown
  rw [hkey, ← hown.1] at hstored
  rw [← hown.1, ← hown.2] at hsurvives
  exact ⟨value, hstored, hfrom, hsurvives⟩

theorem transportable : Transportable env now layer := by
  intro name hname doc hdoc
  obtain ⟨-, -, -, hsurvives⟩ := hp.scanned hkeyed hdoc
  obtain ⟨value, htransported, -⟩ := hsurvives.transported name
  rw [htransported]
  rfl

-- A record decodes to what is stored under its key.
theorem record {key value : Bytes} (h : (key, value) ∈ snapshotRecords env now layer) :
    ∃ stored, layer.documents[key]? = some stored ∧
      env.json.fromSlice value = env.json.fromSlice stored := by
  obtain ⟨name, hname, doc, hdoc, htransported⟩ := mem_snapshotRecords.mp h
  obtain ⟨stored, hstored, hfrom, hsurvives⟩ := hp.scanned hkeyed hdoc
  obtain ⟨own, hown, hback⟩ := hsurvives.transported name
  rw [htransported, Option.some.injEq, Prod.mk.injEq] at hown
  rw [hown.1, hown.2, hback]
  exact ⟨stored, hstored, hfrom.symm⟩

-- Every stored document has a record.
theorem recorded {key stored : Bytes} (h : layer.documents[key]? = some stored) :
    ∃ value, (key, value) ∈ snapshotRecords env now layer := by
  obtain ⟨name, id, hkey⟩ := hkeyed key stored h
  rw [hkey] at h ⊢
  have hcolon := (hp.documents name id stored h).1
  have hname : name ∈ layer.listCollections := by
    refine PersistentLayer.mem_listCollections.mpr ⟨_, ?_,
      PersistentLayer.collectionOfKey_makeDocumentKey id hcolon⟩
    rw [Std.ExtTreeMap.mem_keys]
    exact Std.ExtTreeMap.mem_iff_isSome_getElem?.mpr (by rw [h]; rfl)
  have hpre : (utf8 (name ++ ":")).isPrefixOf (PersistentLayer.makeDocumentKey name id) = true :=
    (PersistentLayer.isPrefixOf_makeDocumentKey hcolon).mpr rfl
  have hscan : ∃ doc ∈ scanOrDefault env now layer name,
      env.json.fromSlice stored = .ok (doc.id, doc.fields) := by
    refine exists_mem_scanOrDefault_of_decodes ?_ h hpre
    intro key value hstored hunder
    obtain ⟨id, fields, -, hfrom, -⟩ := hp.entry hkeyed hstored hunder
    exact ⟨id, fields, hfrom⟩
  obtain ⟨doc, hdoc, hfrom⟩ := hscan
  obtain ⟨-, fields, hown, -⟩ := hp.documents name id stored h
  rw [hfrom, Except.ok.injEq, Prod.mk.injEq] at hown
  obtain ⟨-, -, -, hsurvives⟩ := hp.scanned hkeyed hdoc
  obtain ⟨value, htransported, -⟩ := hsurvives.transported name
  rw [hown.1] at htransported
  exact ⟨value, mem_snapshotRecords.mpr ⟨name, hname, doc, hdoc, htransported⟩⟩

-- The last record under a key reads as what is stored there.
theorem lookup_records (key : Bytes) :
    ((snapshotRecords env now layer).reverse.lookup key).map env.json.fromSlice =
      layer.documents[key]?.map env.json.fromSlice := by
  cases hlast : (snapshotRecords env now layer).reverse.lookup key with
  | some value =>
    obtain ⟨stored, hstored, hsame⟩ :=
      hp.record hkeyed (PersistentLayer.mem_of_lookup_reverse hlast)
    rw [hstored, Option.map_some, Option.map_some, hsame]
  | none =>
    cases hstored : layer.documents[key]? with
    | none => rfl
    | some stored =>
      obtain ⟨value, hmem⟩ := hp.recorded hkeyed hstored
      obtain ⟨last, hsome⟩ := PersistentLayer.exists_lookup_reverse hmem
      rw [hlast] at hsome
      cases hsome

-- The snapshot is written.
theorem createSnapshot (hr : Reproduces env now layer walSequence) :
    ∃ content, createSnapshot env now layer walSequence = .ok content := by
  obtain ⟨headerJson, hheader, -, -⟩ := hr.header
  obtain ⟨metadataJson, hmetadata, -, -⟩ := hr.metadata
  have hcollections : ∀ name ∈ layer.listCollections, ∃ c,
      WritesCollection env now layer name c := by
    intro name hname
    obtain ⟨json, hjson, -, -⟩ := hr.collections name hname
    have hdocs : ∀ doc ∈ scanOrDefault env now layer name, ∃ text,
        env.json.toVec doc.id doc.fields = .ok text := by
      intro doc hdoc
      obtain ⟨-, -, -, text, -, -, hto, -⟩ := hp.scanned hkeyed hdoc
      exact ⟨text, hto⟩
    obtain ⟨jsons, hjsons⟩ := exists_forall₂ hdocs
    exact ⟨⟨_, json, jsons⟩, rfl, hjson, hjsons⟩
  obtain ⟨cs, hcs⟩ := exists_forall₂ hcollections
  exact ⟨_, createSnapshot_eq_ok_iff.mpr ⟨⟨_, headerJson, metadataJson, cs⟩,
    ⟨rfl, hheader, hp.header_fits headerJson hheader, hmetadata, hcs⟩, rfl⟩⟩

end Portable

def RoundTrips (env : SnapshotEnv) (now later : DateTime) (layer : PersistentLayer)
    (walSequence : Nat) : Prop :=
  ∃ content, createSnapshot env now layer walSequence = .ok content ∧
    (loadSnapshot env later content .empty).1 = .ok walSequence ∧
    ∀ instant collection id,
      (loadSnapshot env later content .empty).2.getDocument env.json instant collection id =
        layer.getDocument env.json instant collection id

theorem getElem?_loadSnapshot_empty (later : DateTime) {content : Bytes}
    (hcreate : createSnapshot env now layer walSequence = .ok content)
    (hr : Reproduces env now layer walSequence) (htransport : Transportable env now layer)
    (key : Bytes) :
    (loadSnapshot env later content .empty).2.documents[key]? =
      (snapshotRecords env now layer).reverse.lookup key := by
  rw [loadSnapshot_snd, snapshotWrites_createSnapshot later hcreate hr htransport,
    PersistentLayer.getElem?_insertAll]
  simp [PersistentLayer.empty]

theorem Portable.roundTrips (hp : Portable env now layer walSequence) (hkeyed : layer.Keyed)
    (hr : Reproduces env now layer walSequence) :
    RoundTrips env now later layer walSequence := by
  obtain ⟨content, hcreate⟩ := hp.createSnapshot hkeyed hr
  have htransport := hp.transportable hkeyed
  refine ⟨content, hcreate,
    (loadSnapshot_createSnapshot_iff later hcreate hr _ _).mpr ⟨htransport, rfl⟩, ?_⟩
  intro instant collection id
  have hlookup := getElem?_loadSnapshot_empty later hcreate hr htransport
    (PersistentLayer.makeDocumentKey collection id)
  have hrecords := hp.lookup_records hkeyed (PersistentLayer.makeDocumentKey collection id)
  unfold PersistentLayer.getDocument
  rw [hlookup]
  cases hlast : (snapshotRecords env now layer).reverse.lookup
      (PersistentLayer.makeDocumentKey collection id) with
  | none =>
    rw [hlast, Option.map_none, eq_comm, Option.map_eq_none_iff] at hrecords
    rw [hrecords]
  | some value =>
    rw [hlast, Option.map_some, eq_comm, Option.map_eq_some_iff] at hrecords
    obtain ⟨stored, hstored, hsame⟩ := hrecords
    rw [hstored]
    dsimp only
    rw [hsame]

/-! ## Stores that do not -/

structure CameBack (env : SnapshotEnv) (now : DateTime) (layer : PersistentLayer)
    (collection : String) (id : DocumentId) (fields : Fields) (doc : Document) (value : Bytes) :
    Prop where
  colon : ':' ∉ collection.toList
  scanned : doc ∈ scanOrDefault env now layer collection
  transported_eq : transported env.json collection doc =
    some (PersistentLayer.makeDocumentKey collection id, value)
  back : env.json.fromSlice value = .ok (id, fields)

theorem RoundTrips.cameBack (hids : env.json.KeepsId) (hr : Reproduces env now layer walSequence)
    (h : RoundTrips env now later layer walSequence) {collection : String} {id : DocumentId}
    {stored : Bytes}
    (hstored : layer.documents[PersistentLayer.makeDocumentKey collection id]? = some stored) :
    ∃ fields doc value, env.json.fromSlice stored = .ok (id, fields) ∧
      CameBack env now layer collection id fields doc value := by
  obtain ⟨content, hcreate, hok, hsame⟩ := h
  have htransport := ((loadSnapshot_createSnapshot_iff later hcreate hr _ _).mp hok).1
  have hlookup := getElem?_loadSnapshot_empty later hcreate hr htransport
    (PersistentLayer.makeDocumentKey collection id)
  have hsame := hsame 0 collection id
  cases hlast : (snapshotRecords env now layer).reverse.lookup
      (PersistentLayer.makeDocumentKey collection id) with
  | none =>
    rw [hlast] at hlookup
    rw [PersistentLayer.getDocument_eq_none_iff.mpr hlookup, eq_comm,
      PersistentLayer.getDocument_eq_none_iff, hstored] at hsame
    cases hsame
  | some value =>
    rw [hlast] at hlookup
    obtain ⟨name, hname, doc, hdoc, htransported⟩ :=
      mem_snapshotRecords.mp (PersistentLayer.mem_of_lookup_reverse hlast)
    obtain ⟨text, own, fields, -, -, hto, hkey⟩ := transported_eq_some htransported
    obtain ⟨rfl, rfl⟩ := PersistentLayer.makeDocumentKey_injective hkey
    have hcolon := colon_notMem_of_mem_listCollections hname
    have hpre : (utf8 (collection ++ ":")).isPrefixOf
        (PersistentLayer.makeDocumentKey collection id) = true :=
      (PersistentLayer.isPrefixOf_makeDocumentKey hcolon).mpr rfl
    obtain ⟨found, -, hfound⟩ := exists_mem_scanOrDefault hdoc hstored hpre
    have hdocument : layer.getDocument env.json 0 collection id =
        .ok (some ⟨found.id, found.fields, DocumentMetadata.default 0⟩) :=
      PersistentLayer.getDocument_eq_some_iff.mpr ⟨stored, hstored, hfound, rfl⟩
    rw [hdocument, PersistentLayer.getDocument_eq_some_iff] at hsame
    obtain ⟨restored, hrestored, hback, -⟩ := hsame
    rw [hlookup, Option.some.injEq] at hrestored
    subst hrestored
    have hid : found.id = id := hids _ _ _ _ _ hto hback
    rw [hid] at hfound hback
    exact ⟨found.fields, doc, value, hfound, hcolon, hdoc, htransported, hback⟩

theorem RoundTrips.portable (hkeyed : layer.Keyed) (hids : env.json.KeepsId)
    (hr : Reproduces env now layer walSequence)
    (h : RoundTrips env now later layer walSequence) : Portable env now layer walSequence := by
  refine ⟨?_, ?_⟩
  · intro json hjson
    obtain ⟨content, hcreate, -, -⟩ := h
    obtain ⟨w, hw, -⟩ := createSnapshot_eq_ok_iff.mp hcreate
    have hown := hw.header_json
    rw [hw.header_eq, hjson, Except.ok.injEq] at hown
    rw [hown]
    exact hw.header_le
  · intro collection id stored hstored
    obtain ⟨fields, doc, value, hfrom, hback⟩ := h.cameBack hids hr hstored
    refine ⟨hback.colon, fields, hfrom, ?_⟩
    -- the document that came back under the key was scanned from the key itself
    obtain ⟨key, other, hother, hpre, hdoc⟩ := mem_scanOrDefault hback.scanned
    obtain ⟨collection', id', rfl⟩ := hkeyed key other hother
    obtain ⟨fields', doc', value', hfrom', hback'⟩ := h.cameBack hids hr hother
    have hcollection :=
      (PersistentLayer.isPrefixOf_makeDocumentKey hback'.colon).mp hpre
    rw [hdoc, Except.ok.injEq, Prod.mk.injEq] at hfrom'
    obtain ⟨text, own, fields'', hto, hread, hagain, hkey⟩ :=
      transported_eq_some hback.transported_eq
    obtain ⟨-, rfl⟩ := PersistentLayer.makeDocumentKey_injective hkey
    have hid : id = doc.id := hids _ _ _ _ _ hto hread
    rw [← hcollection, ← hfrom'.1, ← hid, hstored, Option.some.injEq] at hother
    subst hother
    rw [hdoc, Except.ok.injEq, Prod.mk.injEq] at hfrom
    rw [← hfrom.2]
    rw [← hid] at hto
    have hreturned := hback.back
    rw [← hfrom.2] at hreturned
    exact ⟨text, fields'', value, hto, hread, hagain, hreturned⟩

/-- The snapshot round trip holds exactly for the stores that survive it. -/
theorem createSnapshot_roundTrips_iff (hkeyed : layer.Keyed) (hids : env.json.KeepsId)
    (hr : Reproduces env now layer walSequence) :
    RoundTrips env now later layer walSequence ↔ Portable env now layer walSequence :=
  ⟨fun h => h.portable hkeyed hids hr, fun hp => hp.roundTrips hkeyed hr⟩

end

/-! ## Two small stores -/

theorem nullDocuments_toVec (id : DocumentId) (fields : Fields) :
    (∃ hasField, nullDocuments.toVec id fields = .ok (nullJson id hasField)) ∨
      nullDocuments.toVec id fields = .ok (utf8 "\x7b\"_id\":\"\"\x7d") := by
  simp only [nullDocuments]
  split
  · exact Or.inl ⟨false, rfl⟩
  · exact Or.inl ⟨true, rfl⟩
  · exact Or.inr rfl

theorem nullDocuments_keepsId : nullDocuments.KeepsId := by
  intro id fields text id' fields' hto hfrom
  rcases nullDocuments_toVec id fields with ⟨hasField, heq⟩ | heq
  · rw [hto, Except.ok.injEq] at heq
    rw [heq, nullDocuments_fromSlice_nullJson, Except.ok.injEq, Prod.mk.injEq] at hfrom
    exact hfrom.1.symm
  · rw [hto, Except.ok.injEq] at heq
    have hnone : (nullDocuments.fromSlice 
        (utf8 "\x7b\"_id\":\"\"\x7d")).toOption.isNone = true := by
      decide +kernel
    rw [heq] at hfrom
    rw [hfrom] at hnone
    cases hnone

theorem nullDocuments_length_lt {id : DocumentId} {fields : Fields} {text : Bytes}
    (h : nullDocuments.toVec id fields = .ok text) : text.length < 2 ^ 32 := by
  rcases nullDocuments_toVec id fields with ⟨hasField, heq⟩ | heq
  · rw [h, Except.ok.injEq] at heq
    have hlen := id.length_toChars
    rw [heq, nullJson, List.length_append, List.length_append, asciiBytes, List.length_map, hlen]
    cases hasField with
    | false => decide
    | true => decide
  · rw [h, Except.ok.injEq] at heq
    rw [heq]
    decide

theorem nullDocuments_survives (id : DocumentId) : nullDocuments.Survives id ∅ := by
  have hto : nullDocuments.toVec id ∅ = .ok (nullJson id false) := rfl
  have hfrom := nullDocuments_fromSlice_nullJson id false
  exact ⟨_, _, _, hto, hfrom, hto, hfrom⟩

theorem oneDocument_getElem? (collection : String) (key : Bytes) :
    (oneDocument collection).documents[key]? =
      if key = PersistentLayer.makeDocumentKey collection userId then
        some (nullJson userId false) else none := by
  rw [oneDocument, PersistentLayer.getElem?_insertAll, List.reverse_singleton, List.lookup_cons]
  by_cases hkey : key = PersistentLayer.makeDocumentKey collection userId
  · have hbeq : (key == PersistentLayer.makeDocumentKey collection userId) = true :=
      beq_iff_eq.mpr hkey
    rw [if_pos hkey, hbeq]
    rfl
  · have hbeq : (key == PersistentLayer.makeDocumentKey collection userId) = false :=
      beq_false_of_ne hkey
    rw [if_neg hkey, hbeq]
    simp [PersistentLayer.empty]

theorem oneDocument_keyed (collection : String) : (oneDocument collection).Keyed := by
  intro key value h
  rw [oneDocument_getElem?] at h
  split at h
  · next hkey => exact ⟨collection, userId, hkey⟩
  · cases h

theorem users_reproduces : Reproduces epochEnv 0 (oneDocument "users") 5 := by
  have hnames : (oneDocument "users").listCollections = ["users"] := by decide +kernel
  have hcount : (scanOrDefault epochEnv 0 (oneDocument "users") "users").length = 1 := by
    decide +kernel
  refine ⟨⟨epochHeaderJson 5 (((SnapshotHeader.new 0 5).sealed epochEnv).checksum), ?_⟩,
    ⟨metadataJson 1, ?_⟩, ?_, ?_, ?_⟩
  · decide +kernel
  · rw [hnames]
    decide +kernel
  · intro name hname
    rw [hnames, List.mem_singleton] at hname
    rw [hname, hcount]
    exact ⟨collectionJson "users" 1, by decide +kernel, by decide +kernel, by decide +kernel⟩
  · intro name _ doc _ json hto
    exact nullDocuments_length_lt hto
  · rw [hnames]
    decide

theorem users_portable : Portable epochEnv 0 (oneDocument "users") 5 := by
  refine ⟨?_, ?_⟩
  · intro json hjson
    have hto : epochEnv.snapshot.headerToVec ((SnapshotHeader.new 0 5).sealed epochEnv) =
        .ok (epochHeaderJson 5 (((SnapshotHeader.new 0 5).sealed epochEnv).checksum)) := by
      decide +kernel
    rw [hto, Except.ok.injEq] at hjson
    rw [← hjson]
    decide +kernel
  · intro collection id value hstored
    rw [oneDocument_getElem?] at hstored
    split at hstored
    · next hkey =>
        obtain ⟨rfl, rfl⟩ := PersistentLayer.makeDocumentKey_injective hkey
        cases hstored
        exact ⟨by decide, ∅, nullDocuments_fromSlice_nullJson userId false,
          nullDocuments_survives userId⟩
    · cases hstored

theorem users_createSnapshot : createSnapshot epochEnv 0 (oneDocument "users") 5 =
    .ok (snapshotBytes (createSnapshot epochEnv 0 (oneDocument "users") 5)) := by
  obtain ⟨content, hcreate⟩ :=
    users_portable.createSnapshot (oneDocument_keyed "users") users_reproduces
  rw [hcreate]
  rfl

theorem users_snapshot_roundTrips : RoundTrips epochEnv 0 1 (oneDocument "users") 5 :=
  (createSnapshot_roundTrips_iff (oneDocument_keyed "users") nullDocuments_keepsId
    users_reproduces).mpr users_portable

-- A document of the collection `a:b` comes back in the collection `a`.
theorem colon_collection_lost : ¬RoundTrips epochEnv 0 1 (oneDocument "a:b") 5 := by
  intro ⟨content, hcreate, _, hsame⟩
  have hcontent : snapshotBytes (createSnapshot epochEnv 0 (oneDocument "a:b") 5) = content := by
    rw [hcreate]
    rfl
  have hlost : (loadSnapshot epochEnv 1
      (snapshotBytes (createSnapshot epochEnv 0 (oneDocument "a:b") 5)) .empty).2.documents[
        PersistentLayer.makeDocumentKey "a:b" userId]? = none := by
    decide +kernel
  have hnone := hsame 0 "a:b" userId
  rw [← hcontent, PersistentLayer.getDocument_eq_none_iff.mpr hlost, eq_comm,
    PersistentLayer.getDocument_eq_none_iff, oneDocument_getElem?, if_pos rfl] at hnone
  cases hnone

end VedDb
