import Mathlib.Data.List.Induction
import VedDb.Snapshot.Format

/-!
# Reading snapshots, and what a load stores

A load acts on each record as it meets it, so what it stores depends on the file alone, up to the
point where the file is rejected.  `snapshotTracer` lists these writes; every reader of snapshots
follows it step by step.
-/

namespace VedDb

open LittleEndian

/-!
## The walk

`snapshot/reader.rs`.  Both readers of a snapshot, `load_snapshot` and the `apply_snapshot` of a
replica, walk the file record by record and act on each collection, document and index as they meet
it; the footer is verified when everything has been acted on.  The walk is written once, over what
is done with a record.
-/

/-- `SnapshotReader`: the bytes the hasher has seen, and the rest of the file. -/
structure SnapshotReader where
  hashed : Bytes
  rest : Bytes
  deriving DecidableEq

namespace SnapshotReader

/-- `SnapshotReader::open`. -/
def ofBytes (content : Bytes) : SnapshotReader := { hashed := [], rest := content }

def eof : SnapshotError := .ioError .unexpectedEof "failed to fill whole buffer"

def readBytes (r : SnapshotReader) (n : Nat) : Except SnapshotError (Bytes × SnapshotReader) :=
  match readExact n r.rest with
  | none => .error eof
  | some (bytes, rest) => .ok (bytes, { hashed := r.hashed ++ bytes, rest := rest })

def readRecord {α : Type} (decode : Bytes → Except String α) (r : SnapshotReader) :
    Except SnapshotError (α × SnapshotReader) :=
  match r.readBytes 4 with
  | .error e => .error e
  | .ok (lenBytes, r) =>
    match r.readBytes (ofLeBytes lenBytes) with
    | .error e => .error e
    | .ok (json, r) =>
      match decode json with
      | .error e => .error (.deserializationError e)
      | .ok value => .ok (value, r)

variable (env : SnapshotEnv)

def readHeader (r : SnapshotReader) : Except SnapshotError (SnapshotHeader × SnapshotReader) :=
  match r.readBytes 256 with
  | .error e => .error e
  | .ok (headerBytes, r) =>
    match env.snapshot.headerFromSlice (headerBytes.takeWhile (· ≠ 0)) with
    | .error e => .error (.deserializationError e)
    | .ok header =>
      if header.magic ≠ snapshotMagic then .error .invalidMagic
      else if header.version ≠ snapshotVersion then .error (.invalidVersion header.version)
      else if header.verifyChecksum env = false then .error .checksumMismatch
      else .ok (header, r)

def readMetadata (r : SnapshotReader) : Except SnapshotError (SnapshotMetadata × SnapshotReader) :=
  r.readRecord env.snapshot.metadataFromSlice

def readCollectionHeader (r : SnapshotReader) :
    Except SnapshotError (CollectionHeader × SnapshotReader) :=
  r.readRecord env.snapshot.collectionFromSlice

def readDocument (r : SnapshotReader) :
    Except SnapshotError ((DocumentId × Fields) × SnapshotReader) :=
  r.readRecord env.json.fromSlice

def readIndex (r : SnapshotReader) : Except SnapshotError (IndexDefinition × SnapshotReader) :=
  r.readRecord env.snapshot.indexFromSlice

/-- `read_footer`.  The footer itself is not hashed. -/
def readFooter (r : SnapshotReader) : Except SnapshotError Unit :=
  match readExact 64 r.rest with
  | none => .error eof
  | some (footer, _) =>
    if footer.take 10 ≠ snapshotEndMarker then .error .invalidEndMarker
    else if (env.sha256 r.hashed).toList ≠ (footer.drop 10).take 32 then .error .checksumMismatch
    else .ok ()

end SnapshotReader

/-! ## The walk -/

/-- What is done with the records of a snapshot, on a state `S` and with errors in `E`. -/
structure SnapshotVisitor (S E : Type) where
  /-- How an error of the reader is reported. -/
  report : SnapshotError → E
  collection : S → CollectionHeader → S
  document : S → CollectionHeader → Document → Except E Unit × S
  index : S → CollectionHeader → IndexDefinition → Except E Unit × S

namespace SnapshotVisitor

variable {S E : Type} (env : SnapshotEnv) (now : DateTime) (v : SnapshotVisitor S E)

/-- `for _ in 0..col_header.document_count`. -/
def visitDocuments (header : CollectionHeader) :
    Nat → SnapshotReader → S → Except E SnapshotReader × S
  | 0, r, s => (.ok r, s)
  | n + 1, r, s =>
    match r.readDocument env with
    | .error e => (.error (v.report e), s)
    | .ok ((id, fields), r) =>
      match v.document s header
          { id := id, fields := fields, metadata := DocumentMetadata.default now } with
      | (.error e, s) => (.error e, s)
      | (.ok (), s) => visitDocuments header n r s

/-- `for _ in 0..col_header.index_count`. -/
def visitIndexes (header : CollectionHeader) :
    Nat → SnapshotReader → S → Except E SnapshotReader × S
  | 0, r, s => (.ok r, s)
  | n + 1, r, s =>
    match r.readIndex env with
    | .error e => (.error (v.report e), s)
    | .ok (index, r) =>
      match v.index s header index with
      | (.error e, s) => (.error e, s)
      | (.ok (), s) => visitIndexes header n r s

/-- `for _ in 0..metadata.collections_count`. -/
def visitCollections : Nat → SnapshotReader → S → Except E SnapshotReader × S
  | 0, r, s => (.ok r, s)
  | n + 1, r, s =>
    match r.readCollectionHeader env with
    | .error e => (.error (v.report e), s)
    | .ok (header, r) =>
      match v.visitDocuments env now header header.documentCount r
          (v.collection s header) with
      | (.error e, s) => (.error e, s)
      | (.ok r, s) =>
        match v.visitIndexes env header header.indexCount r s with
        | (.error e, s) => (.error e, s)
        | (.ok r, s) => visitCollections n r s

def visitSnapshot (content : Bytes) (s : S) : Except E Nat × S :=
  match (SnapshotReader.ofBytes content).readHeader env with
  | .error e => (.error (v.report e), s)
  | .ok (header, r) =>
    match r.readMetadata env with
    | .error e => (.error (v.report e), s)
    | .ok (metadata, r) =>
      match v.visitCollections env now metadata.collectionsCount r s with
      | (.error e, s) => (.error e, s)
      | (.ok r, s) =>
        match r.readFooter env with
        | .error e => (.error (v.report e), s)
        | .ok () => (.ok header.sequence, s)

end SnapshotVisitor

/-! ## Loading -/

variable (env : SnapshotEnv) (now : DateTime)

/-- What `load_snapshot` does with a record: it stores each document and ignores the indexes. -/
def snapshotLoader : SnapshotVisitor PersistentLayer SnapshotError where
  report e := e
  collection layer _ := layer
  document layer header doc :=
    match layer.insertDocument env.json header.name doc.id doc with
    | .error _ => (.error (.ioError .other "Failed to serialize document"), layer)
    | .ok layer => (.ok (), layer)
  index layer _ _ := (.ok (), layer)

/-- `load_snapshot` on a file with the given contents. -/
def loadSnapshot (content : Bytes) (layer : PersistentLayer) :
    Except SnapshotError Nat × PersistentLayer :=
  (snapshotLoader env).visitSnapshot env now content layer

/-! ## Walks that agree -/

/-- Two outcomes that both fail, or both return the same, with related states. -/
inductive Alike {S T E F α : Type} (R : S → T → Prop) :
    Except E α × S → Except F α × T → Prop
  | failed {e : E} {f : F} {s : S} {t : T} (h : R s t) : Alike R (.error e, s) (.error f, t)
  | returned {a : α} {s : S} {t : T} (h : R s t) : Alike R (.ok a, s) (.ok a, t)

namespace Alike

variable {S T E F α : Type} {R : S → T → Prop} {p : Except E α × S} {q : Except F α × T}

theorem related (h : Alike R p q) : R p.2 q.2 := by
  cases h with
  | failed h => exact h
  | returned h => exact h

theorem eq_ok_iff (h : Alike R p q) (a : α) : p.1 = .ok a ↔ q.1 = .ok a := by
  cases h with
  | failed h => simp only [reduceCtorEq]
  | returned h => simp only [Except.ok.injEq]

theorem failed_iff (h : Alike R p q) : (∃ e, p.1 = .error e) ↔ ¬∃ a, q.1 = .ok a := by
  cases h with
  | failed h => simp
  | returned h => simp

end Alike

namespace SnapshotVisitor

variable {S T E F : Type}

/-- The visitors act alike on each record of a snapshot, from related states. -/
structure Simulates (R : S → T → Prop) (v : SnapshotVisitor S E) (w : SnapshotVisitor T F) :
    Prop where
  collection : ∀ {s t} header, R s t → R (v.collection s header) (w.collection t header)
  document : ∀ {s t} header doc, R s t → Alike R (v.document s header doc) (w.document t header doc)
  index : ∀ {s t} header index, R s t → Alike R (v.index s header index) (w.index t header index)

variable {R : S → T → Prop} {v : SnapshotVisitor S E} {w : SnapshotVisitor T F}

namespace Simulates

variable (hsim : Simulates R v w) (env : SnapshotEnv) (now : DateTime)

include hsim

theorem visitDocuments (header : CollectionHeader) (n : Nat) (r : SnapshotReader) {s : S} {t : T}
    (h : R s t) :
    Alike R (v.visitDocuments env now header n r s) (w.visitDocuments env now header n r t) := by
  induction n generalizing r s t with
  | zero => exact .returned h
  | succ n ih =>
    unfold SnapshotVisitor.visitDocuments
    cases r.readDocument env with
    | error e => exact .failed h
    | ok read =>
      have hdoc := hsim.document header
        { id := read.1.1, fields := read.1.2, metadata := DocumentMetadata.default now } h
      dsimp only
      generalize v.document s header _ = p at hdoc ⊢
      generalize w.document t header _ = q at hdoc ⊢
      cases hdoc with
      | failed h => exact .failed h
      | returned h => exact ih read.2 h

theorem visitIndexes (header : CollectionHeader) (n : Nat) (r : SnapshotReader) {s : S} {t : T}
    (h : R s t) :
    Alike R (v.visitIndexes env header n r s) (w.visitIndexes env header n r t) := by
  induction n generalizing r s t with
  | zero => exact .returned h
  | succ n ih =>
    unfold SnapshotVisitor.visitIndexes
    cases r.readIndex env with
    | error e => exact .failed h
    | ok read =>
      have hindex := hsim.index header read.1 h
      dsimp only
      generalize v.index s header _ = p at hindex ⊢
      generalize w.index t header _ = q at hindex ⊢
      cases hindex with
      | failed h => exact .failed h
      | returned h => exact ih read.2 h

theorem visitCollections (n : Nat) (r : SnapshotReader) {s : S} {t : T} (h : R s t) :
    Alike R (v.visitCollections env now n r s) (w.visitCollections env now n r t) := by
  induction n generalizing r s t with
  | zero => exact .returned h
  | succ n ih =>
    unfold SnapshotVisitor.visitCollections
    cases r.readCollectionHeader env with
    | error e => exact .failed h
    | ok read =>
      have hdocs := hsim.visitDocuments env now read.1 read.1.documentCount read.2
        (hsim.collection read.1 h)
      dsimp only
      generalize v.visitDocuments env now read.1 _ read.2 _ = p at hdocs ⊢
      generalize w.visitDocuments env now read.1 _ read.2 _ = q at hdocs ⊢
      cases hdocs with
      | failed h => exact .failed h
      | @returned r s t h =>
        have hindexes := hsim.visitIndexes env read.1 read.1.indexCount r h
        dsimp only
        generalize v.visitIndexes env read.1 _ r s = p at hindexes ⊢
        generalize w.visitIndexes env read.1 _ r t = q at hindexes ⊢
        cases hindexes with
        | failed h => exact .failed h
        | returned h => exact ih _ h

theorem visitSnapshot (content : Bytes) {s : S} {t : T} (h : R s t) :
    Alike R (v.visitSnapshot env now content s) (w.visitSnapshot env now content t) := by
  unfold SnapshotVisitor.visitSnapshot
  cases (SnapshotReader.ofBytes content).readHeader env with
  | error e => exact .failed h
  | ok header =>
    dsimp only
    cases header.2.readMetadata env with
    | error e => exact .failed h
    | ok metadata =>
      have hwalk := hsim.visitCollections env now metadata.1.collectionsCount metadata.2 h
      dsimp only
      generalize v.visitCollections env now _ metadata.2 s = p at hwalk ⊢
      generalize w.visitCollections env now _ metadata.2 t = q at hwalk ⊢
      cases hwalk with
      | failed h => exact .failed h
      | @returned r s t h =>
        dsimp only
        cases r.readFooter env with
        | error e => exact .failed h
        | ok done => exact .returned h

end Simulates

end SnapshotVisitor

/-! ## Writes -/

namespace PersistentLayer

/-- The layer after some writes of documents, the last of a key winning. -/
def insertAll (layer : PersistentLayer) (writes : List (Bytes × Bytes)) : PersistentLayer :=
  { layer with
    documents := writes.foldl (fun docs write => docs.insert write.1 write.2) layer.documents }

theorem getElem?_foldl_insert (writes : List (Bytes × Bytes)) (docs : Std.ExtTreeMap Bytes Bytes)
    (key : Bytes) :
    (writes.foldl (fun docs write => docs.insert write.1 write.2) docs)[key]? =
      (writes.reverse.lookup key).or docs[key]? := by
  induction writes using List.reverseRecOn with
  | nil => simp
  | append_singleton writes write ih =>
    rw [List.foldl_append, List.foldl_cons, List.foldl_nil, lookup_insert,
      List.reverse_append, List.reverse_singleton, List.singleton_append, List.lookup_cons]
    by_cases hkey : write.1 = key
    · have hbeq : (key == write.1) = true := beq_iff_eq.mpr hkey.symm
      rw [if_pos hkey, hbeq]
      rfl
    · have hbeq : (key == write.1) = false := beq_false_of_ne (Ne.symm hkey)
      rw [if_neg hkey, hbeq, ih]

theorem getElem?_insertAll (layer : PersistentLayer) (writes : List (Bytes × Bytes))
    (key : Bytes) :
    (layer.insertAll writes).documents[key]? =
      (writes.reverse.lookup key).or layer.documents[key]? :=
  getElem?_foldl_insert writes layer.documents key

theorem mem_of_lookup_reverse {writes : List (Bytes × Bytes)} {key value : Bytes}
    (h : writes.reverse.lookup key = some value) : (key, value) ∈ writes := by
  obtain ⟨before, after, hsplit, -⟩ := List.lookup_eq_some_iff.mp h
  rw [← List.mem_reverse, hsplit]
  exact List.mem_append_right _ List.mem_cons_self

theorem exists_lookup_reverse {writes : List (Bytes × Bytes)} {key value : Bytes}
    (h : (key, value) ∈ writes) : ∃ last, writes.reverse.lookup key = some last := by
  cases hlast : writes.reverse.lookup key with
  | some last => exact ⟨last, rfl⟩
  | none =>
    have hne := List.lookup_eq_none_iff.mp hlast _ (List.mem_reverse.mpr h)
    simp at hne

-- Writing what is stored already changes nothing, and nothing else does.
theorem insertAll_eq_self_iff (layer : PersistentLayer) (writes : List (Bytes × Bytes)) :
    layer.insertAll writes = layer ↔
      ∀ key value, writes.reverse.lookup key = some value → layer.documents[key]? = some value := by
  constructor
  · intro h key value hlast
    have hkey := layer.getElem?_insertAll writes key
    rw [h, hlast] at hkey
    exact hkey
  · intro h
    have hdocs : (layer.insertAll writes).documents = layer.documents := by
      apply Std.ExtTreeMap.ext_getElem?
      intro key
      rw [getElem?_insertAll]
      cases hlast : writes.reverse.lookup key with
      | none => rfl
      | some value => exact (h key value hlast).symm
    have hlayer : layer.insertAll writes =
        { documents := (layer.insertAll writes).documents, metadata := layer.metadata } := rfl
    rw [hlayer, hdocs]

end PersistentLayer

/-! ## The trace of a load -/

variable (env : SnapshotEnv) (now : DateTime)

def snapshotTracer : SnapshotVisitor (List (Bytes × Bytes)) SnapshotError where
  report e := e
  collection writes _ := writes
  document writes header doc :=
    match env.json.toVec doc.id doc.fields with
    | .error _ => (.error (.ioError .other "Failed to serialize document"), writes)
    | .ok value =>
      (.ok (), writes ++ [(PersistentLayer.makeDocumentKey header.name doc.id, value)])
  index writes _ _ := (.ok (), writes)

/-- The documents of a file in front of the point where it is rejected, as they are stored. -/
def snapshotWrites (content : Bytes) : List (Bytes × Bytes) :=
  ((snapshotTracer env).visitSnapshot env now content []).2

theorem snapshotLoader_simulates (layer : PersistentLayer) :
    SnapshotVisitor.Simulates (fun stored writes => stored = layer.insertAll writes)
      (snapshotLoader env) (snapshotTracer env) where
  collection _ h := h
  document := by
    intro stored writes header doc h
    subst h
    unfold snapshotLoader snapshotTracer PersistentLayer.insertDocument
    dsimp only
    cases env.json.toVec doc.id doc.fields with
    | error e => exact .failed rfl
    | ok value =>
      refine .returned ?_
      simp only [PersistentLayer.insertAll, List.foldl_append, List.foldl_cons, List.foldl_nil]
  index _ _ h := .returned h

theorem loadSnapshot_alike (content : Bytes) (layer : PersistentLayer) :
    Alike (fun stored writes => stored = layer.insertAll writes)
      (loadSnapshot env now content layer)
      ((snapshotTracer env).visitSnapshot env now content []) :=
  (snapshotLoader_simulates env layer).visitSnapshot env now content rfl

-- What a load leaves behind, whether it succeeds or not.
theorem loadSnapshot_snd (content : Bytes) (layer : PersistentLayer) :
    (loadSnapshot env now content layer).2 = layer.insertAll (snapshotWrites env now content) :=
  (loadSnapshot_alike env now content layer).related

/-! ## Rejected files -/

/-- The file is well-formed to its end: every record decodes, every document can be stored and the
footer verifies. -/
def SnapshotAccepted (content : Bytes) : Prop :=
  ∃ sequence, ((snapshotTracer env).visitSnapshot env now content []).1 = .ok sequence

theorem loadSnapshot_rejected_iff (content : Bytes) (layer : PersistentLayer) :
    (∃ e, (loadSnapshot env now content layer).1 = .error e) ↔
      ¬SnapshotAccepted env now content :=
  (loadSnapshot_alike env now content layer).failed_iff

def snapshotBytes (outcome : Durable.Outcome SnapshotError Bytes) : Bytes :=
  match outcome with
  | .ok content => content
  | _ => []

def userId : DocumentId := ⟨7⟩

/-- A store with one document without fields. -/
def oneDocument (collection : String) : PersistentLayer :=
  PersistentLayer.empty.insertAll
    [(PersistentLayer.makeDocumentKey collection userId, nullJson userId false)]

end VedDb
