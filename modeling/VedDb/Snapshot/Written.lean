import VedDb.Snapshot.Format
import VedDb.Snapshot.Loading
import VedDb.Storage.Reading

/-!
# Reading what was written

The walk over a file that `create_snapshot` wrote meets exactly the records that were written, in
their order, and ends with a footer that verifies.  What the walk then does depends only on what the
JSON texts of the documents decode to.
-/

namespace VedDb

open LittleEndian
open Durable (Outcome)

/-! ## Records -/

namespace SnapshotReader

theorem readBytes_append (hashed a b : Bytes) :
    (SnapshotReader.mk hashed (a ++ b)).readBytes a.length = .ok (a, ⟨hashed ++ a, b⟩) := by
  simp only [readBytes, readExact_append]

-- A record that fits its length field is read as its JSON.
theorem readRecord_append {α : Type} (decode : Bytes → Except String α) {json : Bytes}
    (hlen : json.length < 2 ^ 32) (hashed rest : Bytes) :
    (SnapshotReader.mk hashed (snapshotRecord json ++ rest)).readRecord decode =
      match decode json with
      | .error e => .error (.deserializationError e)
      | .ok value => .ok (value, ⟨hashed ++ snapshotRecord json, rest⟩) := by
  have hfield := readBytes_append hashed (leBytes 4 json.length) (json ++ rest)
  rw [leBytes_length] at hfield
  have hbody := readBytes_append (hashed ++ leBytes 4 json.length) json rest
  have hvalue : ofLeBytes (leBytes 4 json.length) = json.length := ofLeBytes_leBytes_of_lt hlen
  rw [List.append_assoc] at hbody
  cases hdecode : decode json with
  | error e =>
    simp only [readRecord, snapshotRecord, List.append_assoc, hfield, hvalue, hbody, hdecode]
  | ok value =>
    simp only [readRecord, snapshotRecord, List.append_assoc, hfield, hvalue, hbody, hdecode]

/-- A text, padded with zeros to the size of a header. -/
def padded (json : Bytes) : Bytes := json ++ List.replicate (256 - json.length) 0

theorem length_padded {json : Bytes} (h : json.length ≤ 256) : (padded json).length = 256 := by
  rw [padded, List.length_append, List.length_replicate]
  omega

-- The padding ends the JSON of the header.
theorem takeWhile_padded {json : Bytes} (h : 0 ∉ json) :
    (padded json).takeWhile (· ≠ 0) = json := by
  have hall : ∀ b ∈ json, decide (b ≠ 0) = true := by
    intro b hb
    have hne : b ≠ 0 := fun hzero => h (hzero ▸ hb)
    simpa using hne
  rw [padded, List.takeWhile_append_of_pos hall, List.takeWhile_replicate]
  simp

theorem readHeader_padded {env : SnapshotEnv} {header : SnapshotHeader} {json : Bytes}
    (hjson : env.snapshot.headerFromSlice json = .ok header) (hlen : json.length ≤ 256)
    (hzero : 0 ∉ json) (hmagic : header.magic = snapshotMagic)
    (hversion : header.version = snapshotVersion) (hsum : header.verifyChecksum env = true)
    (rest : Bytes) :
    (SnapshotReader.ofBytes (padded json ++ rest)).readHeader env =
      .ok (header, ⟨padded json, rest⟩) := by
  have hread := readBytes_append [] (padded json) rest
  rw [length_padded hlen, List.nil_append] at hread
  simp only [readHeader, ofBytes, hread, takeWhile_padded hzero, hjson, hmagic, hversion, hsum,
    ne_eq, not_true_eq_false, if_false, Bool.true_eq_false]

end SnapshotReader

/-! ## Collections -/

structure WrittenCollection where
  header : CollectionHeader
  headerJson : Bytes
  documents : List Bytes

namespace WrittenCollection

def bytes (c : WrittenCollection) : Bytes :=
  snapshotRecord c.headerJson ++ c.documents.flatMap snapshotRecord

structure Readable (env : SnapshotEnv) (c : WrittenCollection) : Prop where
  header_eq : env.snapshot.collectionFromSlice c.headerJson = .ok c.header
  header_lt : c.headerJson.length < 2 ^ 32
  count_eq : c.header.documentCount = c.documents.length
  no_indexes : c.header.indexCount = 0
  documents_lt : ∀ json ∈ c.documents, json.length < 2 ^ 32

end WrittenCollection

namespace SnapshotVisitor

variable {S E : Type} (env : SnapshotEnv) (now : DateTime) (v : SnapshotVisitor S E)

def visitJsons (header : CollectionHeader) : List Bytes → S → Except E Unit × S
  | [], s => (.ok (), s)
  | json :: jsons, s =>
    match env.json.fromSlice json with
    | .error e => (.error (v.report (.deserializationError e)), s)
    | .ok (id, fields) =>
      match v.document s header
          { id := id, fields := fields, metadata := DocumentMetadata.default now } with
      | (.error e, s) => (.error e, s)
      | (.ok (), s) => visitJsons header jsons s

def visitWritten : List WrittenCollection → S → Except E Unit × S
  | [], s => (.ok (), s)
  | c :: cs, s =>
    match v.visitJsons env now c.header c.documents (v.collection s c.header) with
    | (.error e, s) => (.error e, s)
    | (.ok (), s) => visitWritten cs s

theorem visitDocuments_written (header : CollectionHeader) {jsons : List Bytes}
    (h : ∀ json ∈ jsons, json.length < 2 ^ 32) (hashed rest : Bytes) (s : S) :
    v.visitDocuments env now header jsons.length
        ⟨hashed, jsons.flatMap snapshotRecord ++ rest⟩ s =
      match v.visitJsons env now header jsons s with
      | (.error e, s) => (.error e, s)
      | (.ok (), s) => (.ok ⟨hashed ++ jsons.flatMap snapshotRecord, rest⟩, s) := by
  induction jsons generalizing hashed s with
  | nil => simp [visitDocuments, visitJsons]
  | cons json jsons ih =>
    have hread := SnapshotReader.readRecord_append env.json.fromSlice
      (h json List.mem_cons_self) hashed (jsons.flatMap snapshotRecord ++ rest)
    rw [List.length_cons, visitDocuments, List.flatMap_cons, List.append_assoc,
      SnapshotReader.readDocument, hread, visitJsons]
    rcases env.json.fromSlice json with e | ⟨id, fields⟩
    · rfl
    · dsimp only
      rcases v.document s header _ with ⟨e | -, s'⟩
      · rfl
      · dsimp only
        rw [ih (fun j hj => h j (List.mem_cons_of_mem _ hj)), List.append_assoc]

theorem visitCollections_written {cs : List WrittenCollection}
    (h : ∀ c ∈ cs, c.Readable env) (hashed rest : Bytes) (s : S) :
    v.visitCollections env now cs.length ⟨hashed, cs.flatMap WrittenCollection.bytes ++ rest⟩ s =
      match v.visitWritten env now cs s with
      | (.error e, s) => (.error e, s)
      | (.ok (), s) => (.ok ⟨hashed ++ cs.flatMap WrittenCollection.bytes, rest⟩, s) := by
  induction cs generalizing hashed s with
  | nil => simp [visitCollections, visitWritten]
  | cons c cs ih =>
    have hc := h c List.mem_cons_self
    have hread := SnapshotReader.readRecord_append env.snapshot.collectionFromSlice hc.header_lt
      hashed (c.documents.flatMap snapshotRecord ++ (cs.flatMap WrittenCollection.bytes ++ rest))
    rw [List.length_cons, visitCollections, List.flatMap_cons, WrittenCollection.bytes,
      List.append_assoc, List.append_assoc, SnapshotReader.readCollectionHeader, hread,
      hc.header_eq, visitWritten]
    dsimp only
    rw [hc.count_eq, visitDocuments_written env now v c.header hc.documents_lt]
    rcases v.visitJsons env now c.header c.documents (v.collection s c.header) with ⟨e | -, s'⟩
    · rfl
    · dsimp only
      rw [hc.no_indexes, visitIndexes]
      dsimp only
      rw [ih (fun c hc => h c (List.mem_cons_of_mem _ hc))]
      simp only [List.append_assoc]

/-! ## The whole file -/

-- The footer verifies over what was hashed before it.
theorem readFooter_footer (content : Bytes) :
    (SnapshotReader.mk content (snapshotFooter env content)).readFooter env = .ok () := by
  have hread : readExact 64 (snapshotFooter env content) =
      some (snapshotFooter env content, []) := by
    have happend := readExact_append (snapshotFooter env content) []
    rwa [List.append_nil, length_snapshotFooter] at happend
  have hmarker : (snapshotFooter env content).take 10 = snapshotEndMarker := by
    rw [snapshotFooter, List.append_assoc]
    exact List.take_left' rfl
  have hdigest : ((snapshotFooter env content).drop 10).take 32 = (env.sha256 content).toList := by
    rw [snapshotFooter, List.append_assoc,
      List.drop_left' (show snapshotEndMarker.length = 10 from rfl)]
    exact List.take_left' (by simp)
  simp only [SnapshotReader.readFooter, hread, hmarker, hdigest, ne_eq, not_true_eq_false, if_false]

end SnapshotVisitor

/-- A snapshot as it stands in a file. -/
structure WrittenSnapshot where
  header : SnapshotHeader
  headerJson : Bytes
  metadataJson : Bytes
  collections : List WrittenCollection

namespace WrittenSnapshot

variable (env : SnapshotEnv)

def headerBytes (w : WrittenSnapshot) : Bytes :=
  w.headerJson ++ List.replicate (256 - w.headerJson.length) 0

/-- What the footer hashes. -/
def content (w : WrittenSnapshot) : Bytes :=
  w.headerBytes ++
    (snapshotRecord w.metadataJson ++ w.collections.flatMap WrittenCollection.bytes)

def file (w : WrittenSnapshot) : Bytes := w.content ++ snapshotFooter env w.content

structure Readable (w : WrittenSnapshot) : Prop where
  header_eq : env.snapshot.headerFromSlice w.headerJson = .ok w.header
  header_le : w.headerJson.length ≤ 256
  header_nonzero : 0 ∉ w.headerJson
  magic_eq : w.header.magic = snapshotMagic
  version_eq : w.header.version = snapshotVersion
  checksum_eq : w.header.verifyChecksum env = true
  metadata_eq : ∃ metadata, env.snapshot.metadataFromSlice w.metadataJson = .ok metadata ∧
    metadata.collectionsCount = w.collections.length
  metadata_lt : w.metadataJson.length < 2 ^ 32
  collections_readable : ∀ c ∈ w.collections, c.Readable env

variable {env} {w : WrittenSnapshot}

theorem Readable.readHeader (h : w.Readable env) (rest : Bytes) :
    (SnapshotReader.ofBytes (w.headerBytes ++ rest)).readHeader env =
      .ok (w.header, ⟨w.headerBytes, rest⟩) :=
  SnapshotReader.readHeader_padded h.header_eq h.header_le h.header_nonzero h.magic_eq
    h.version_eq h.checksum_eq rest

-- The walk over a readable file visits its documents and accepts it.
theorem Readable.visitSnapshot (h : w.Readable env) {S E : Type} (now : DateTime)
    (v : SnapshotVisitor S E) (s : S) :
    v.visitSnapshot env now (w.file env) s =
      match v.visitWritten env now w.collections s with
      | (.error e, s) => (.error e, s)
      | (.ok (), s) => (.ok w.header.sequence, s) := by
  obtain ⟨metadata, hmetadata, hcount⟩ := h.metadata_eq
  have hfile : w.file env = w.headerBytes ++ (snapshotRecord w.metadataJson ++
      (w.collections.flatMap WrittenCollection.bytes ++ snapshotFooter env w.content)) := by
    simp only [file, content, List.append_assoc]
  have hread := SnapshotReader.readRecord_append env.snapshot.metadataFromSlice h.metadata_lt
    w.headerBytes (w.collections.flatMap WrittenCollection.bytes ++ snapshotFooter env w.content)
  rw [hfile, SnapshotVisitor.visitSnapshot, h.readHeader]
  dsimp only
  rw [SnapshotReader.readMetadata, hread, hmetadata]
  dsimp only
  rw [hcount, SnapshotVisitor.visitCollections_written env now v h.collections_readable]
  rcases v.visitWritten env now w.collections s with ⟨e | -, s'⟩
  · rfl
  · have hfooter := SnapshotVisitor.readFooter_footer env w.content
    have hcontent : w.headerBytes ++ snapshotRecord w.metadataJson ++
        w.collections.flatMap WrittenCollection.bytes = w.content := by
      rw [content, List.append_assoc]
    dsimp only
    rw [hcontent, hfooter]

end WrittenSnapshot

/-! ## What the writer writes -/

/-- The collection as `create_snapshot` writes it. -/
structure WritesCollection (env : SnapshotEnv) (now : DateTime) (layer : PersistentLayer)
    (name : String) (c : WrittenCollection) : Prop where
  header_eq : c.header = collectionHeader name (scanOrDefault env now layer name).length
  header_json : env.snapshot.collectionToVec c.header = .ok c.headerJson
  documents_json : List.Forall₂ (fun doc json => env.json.toVec doc.id doc.fields = .ok json)
    (scanOrDefault env now layer name) c.documents

section

variable {env : SnapshotEnv} {now : DateTime} {layer : PersistentLayer}

theorem writeRecord_eq_ok {json : Except String Bytes} {bytes : Bytes}
    (h : writeRecord json = .ok bytes) : ∃ text, json = .ok text ∧ bytes = snapshotRecord text := by
  cases json with
  | error e => cases h
  | ok text => exact ⟨text, rfl, (Except.ok.inj h).symm⟩

theorem writeDocuments_eq_ok {docs : List Document} {bytes : Bytes}
    (h : writeDocuments env docs = .ok bytes) :
    ∃ jsons, List.Forall₂ (fun doc json => env.json.toVec doc.id doc.fields = .ok json) docs jsons ∧
      bytes = jsons.flatMap snapshotRecord := by
  induction docs generalizing bytes with
  | nil =>
    cases h
    exact ⟨[], .nil, rfl⟩
  | cons doc docs ih =>
    rw [writeDocuments] at h
    cases hdoc : writeDocument env doc with
    | error e => simp only [hdoc, reduceCtorEq] at h
    | ok head =>
      cases hdocs : writeDocuments env docs with
      | error e => simp only [hdoc, hdocs, reduceCtorEq] at h
      | ok rest =>
        simp only [hdoc, hdocs, Except.ok.injEq] at h
        obtain ⟨json, hjson, rfl⟩ := writeRecord_eq_ok hdoc
        obtain ⟨jsons, hjsons, rfl⟩ := ih hdocs
        exact ⟨json :: jsons, .cons hjson hjsons, h.symm⟩

theorem writeCollections_eq_ok {names : List String} {bytes : Bytes}
    (h : writeCollections env now layer names = .ok bytes) :
    ∃ cs, List.Forall₂ (WritesCollection env now layer) names cs ∧
      bytes = cs.flatMap WrittenCollection.bytes := by
  induction names generalizing bytes with
  | nil =>
    cases h
    exact ⟨[], .nil, rfl⟩
  | cons name names ih =>
    rw [writeCollections] at h
    cases hname : writeCollection env now layer name with
    | error e => simp only [hname, reduceCtorEq] at h
    | ok head =>
      cases hnames : writeCollections env now layer names with
      | error e => simp only [hname, hnames, reduceCtorEq] at h
      | ok rest =>
        simp only [hname, hnames, Except.ok.injEq] at h
        obtain ⟨cs, hcs, rfl⟩ := ih hnames
        unfold writeCollection at hname
        dsimp only at hname
        cases hheader : writeCollectionHeader env
            (collectionHeader name (scanOrDefault env now layer name).length) with
        | error e => simp only [hheader, reduceCtorEq] at hname
        | ok headerBytes =>
          cases hdocs : writeDocuments env (scanOrDefault env now layer name) with
          | error e => simp only [hheader, hdocs, reduceCtorEq] at hname
          | ok docBytes =>
            simp only [hheader, hdocs, Except.ok.injEq] at hname
            obtain ⟨headerJson, hjson, rfl⟩ := writeRecord_eq_ok hheader
            obtain ⟨jsons, hjsons, rfl⟩ := writeDocuments_eq_ok hdocs
            refine ⟨⟨_, headerJson, jsons⟩ :: cs, .cons ⟨rfl, hjson, hjsons⟩ hcs, ?_⟩
            rw [← h, ← hname]
            rfl

theorem writeDocuments_of_jsons {docs : List Document} {jsons : List Bytes}
    (h : List.Forall₂ (fun doc json => env.json.toVec doc.id doc.fields = .ok json) docs jsons) :
    writeDocuments env docs = .ok (jsons.flatMap snapshotRecord) := by
  induction h with
  | nil => rfl
  | cons hjson _ ih => simp only [writeDocuments, writeDocument, hjson, writeRecord, ih,
      List.flatMap_cons]

theorem writeCollections_of_written {names : List String} {cs : List WrittenCollection}
    (h : List.Forall₂ (WritesCollection env now layer) names cs) :
    writeCollections env now layer names = .ok (cs.flatMap WrittenCollection.bytes) := by
  induction h with
  | nil => rfl
  | @cons name c names cs hc _ ih =>
    have hheader := hc.header_json
    rw [hc.header_eq] at hheader
    simp only [writeCollections, writeCollection, writeCollectionHeader, hheader, writeRecord,
      writeDocuments_of_jsons hc.documents_json, ih, List.flatMap_cons,
      WrittenCollection.bytes]

end

/-- The snapshot as `create_snapshot` writes it. -/
structure WritesSnapshot (env : SnapshotEnv) (now : DateTime) (layer : PersistentLayer)
    (walSequence : Nat) (w : WrittenSnapshot) : Prop where
  header_eq : w.header = (SnapshotHeader.new now walSequence).sealed env
  header_json : env.snapshot.headerToVec w.header = .ok w.headerJson
  header_le : w.headerJson.length ≤ 256
  metadata_json : env.snapshot.metadataToVec (snapshotMetadata layer.listCollections) =
    .ok w.metadataJson
  collections : List.Forall₂ (WritesCollection env now layer) layer.listCollections w.collections

variable {env : SnapshotEnv} {now : DateTime} {layer : PersistentLayer} {walSequence : Nat}

theorem createSnapshot_eq_ok_iff {content : Bytes} :
    createSnapshot env now layer walSequence = .ok content ↔
      ∃ w, WritesSnapshot env now layer walSequence w ∧ content = w.file env := by
  constructor
  · intro h
    unfold createSnapshot writeHeader at h
    cases hheader : env.snapshot.headerToVec ((SnapshotHeader.new now walSequence).sealed env) with
    | error e => simp only [hheader, reduceCtorEq] at h
    | ok headerJson =>
      simp only [hheader] at h
      by_cases hlen : 256 < headerJson.length
      · simp only [if_pos hlen, reduceCtorEq] at h
      · simp only [if_neg hlen] at h
        cases hmetadata : writeMetadata env (snapshotMetadata layer.listCollections) with
        | error e => simp only [hmetadata, reduceCtorEq] at h
        | ok metadataBytes =>
          cases hcollections : writeCollections env now layer layer.listCollections with
          | error e => simp only [hmetadata, hcollections, reduceCtorEq] at h
          | ok bytes =>
            simp only [hmetadata, hcollections, Outcome.ok.injEq] at h
            obtain ⟨metadataJson, hjson, rfl⟩ := writeRecord_eq_ok hmetadata
            obtain ⟨cs, hcs, rfl⟩ := writeCollections_eq_ok hcollections
            exact ⟨⟨_, headerJson, metadataJson, cs⟩,
              ⟨rfl, hheader, Nat.le_of_not_lt hlen, hjson, hcs⟩, h.symm⟩
  · intro ⟨w, hw, hcontent⟩
    have hheader := hw.header_json
    rw [hw.header_eq] at hheader
    have hmetadata : writeMetadata env (snapshotMetadata layer.listCollections) =
        .ok (snapshotRecord w.metadataJson) := by
      simp only [writeMetadata, hw.metadata_json, writeRecord]
    have hcollections := writeCollections_of_written hw.collections
    simp only [createSnapshot, writeHeader, hheader, if_neg (Nat.not_lt.mpr hw.header_le),
      hmetadata, hcollections, Outcome.ok.injEq]
    rw [hcontent]
    rfl

/-- What the round trip relies on of `serde_json` for this snapshot, and of its size: header,
metadata and collection headers are serialised and read back as they were, the JSON of the header
has no zero byte, there are fewer than `2 ^ 32` collections, and no record is longer than its length
field can say. -/
structure Reproduces (env : SnapshotEnv) (now : DateTime) (layer : PersistentLayer)
    (walSequence : Nat) : Prop where
  header : ∃ json,
    env.snapshot.headerToVec ((SnapshotHeader.new now walSequence).sealed env) = .ok json ∧
    env.snapshot.headerFromSlice json = .ok ((SnapshotHeader.new now walSequence).sealed env) ∧
    0 ∉ json
  metadata : ∃ json,
    env.snapshot.metadataToVec (snapshotMetadata layer.listCollections) = .ok json ∧
    env.snapshot.metadataFromSlice json = .ok (snapshotMetadata layer.listCollections) ∧
    json.length < 2 ^ 32
  collections : ∀ name ∈ layer.listCollections, ∃ json,
    env.snapshot.collectionToVec
      (collectionHeader name (scanOrDefault env now layer name).length) = .ok json ∧
    env.snapshot.collectionFromSlice json =
      .ok (collectionHeader name (scanOrDefault env now layer name).length) ∧
    json.length < 2 ^ 32
  documents : ∀ name ∈ layer.listCollections, ∀ doc ∈ scanOrDefault env now layer name, ∀ json,
    env.json.toVec doc.id doc.fields = .ok json → json.length < 2 ^ 32
  count : layer.listCollections.length < 2 ^ 32

-- What was written reads back.
theorem WritesSnapshot.readable {w : WrittenSnapshot}
    (hw : WritesSnapshot env now layer walSequence w)
    (hr : Reproduces env now layer walSequence) : w.Readable env := by
  obtain ⟨headerJson, hto, hfrom, hzero⟩ := hr.header
  obtain ⟨metadataJson, hmetaTo, hmetaFrom, hmetaLt⟩ := hr.metadata
  have hheaderJson : headerJson = w.headerJson := by
    have hjson := hw.header_json
    rw [hw.header_eq, hto] at hjson
    exact Except.ok.inj hjson
  have hmetadataJson : metadataJson = w.metadataJson := by
    have hjson := hw.metadata_json
    rw [hmetaTo] at hjson
    exact Except.ok.inj hjson
  subst hheaderJson
  subst hmetadataJson
  refine ⟨?_, hw.header_le, hzero, ?_, ?_, ?_, ⟨_, hmetaFrom, ?_⟩, hmetaLt, ?_⟩
  · rw [hw.header_eq]
    exact hfrom
  · rw [hw.header_eq]
    rfl
  · rw [hw.header_eq]
    rfl
  · rw [hw.header_eq]
    exact SnapshotHeader.verifyChecksum_sealed env _
  · rw [← hw.collections.length_eq]
    exact Nat.mod_eq_of_lt hr.count
  · intro c hc
    obtain ⟨name, hname, hwrites⟩ := exists_of_forall₂_right hw.collections hc
    obtain ⟨json, hcolTo, hcolFrom, hcolLt⟩ := hr.collections name hname
    have hjson : json = c.headerJson := by
      have hheader := hwrites.header_json
      rw [hwrites.header_eq, hcolTo] at hheader
      exact Except.ok.inj hheader
    subst hjson
    refine ⟨?_, hcolLt, ?_, ?_, ?_⟩
    · rw [hwrites.header_eq]
      exact hcolFrom
    · rw [hwrites.header_eq]
      exact hwrites.documents_json.length_eq
    · rw [hwrites.header_eq]
      rfl
    · intro json hmem
      obtain ⟨doc, hdoc, hto⟩ := exists_of_forall₂_right hwrites.documents_json hmem
      exact hr.documents name hname doc hdoc json hto

end VedDb
