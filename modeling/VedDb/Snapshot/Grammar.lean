import VedDb.Snapshot.Loading

/-!
# The grammar of a snapshot

What a file has to look like to be loaded to its end, and which documents stand in front of the
first fault of any other file: those are what a load that fails has stored.
-/

namespace VedDb

open LittleEndian

/-! ## Files that can be loaded -/

/-- The first 256 bytes are a header that the reader accepts. -/
structure HeaderAccepted (env : SnapshotEnv) (content : Bytes) : Prop where
  length_le : 256 ≤ content.length
  exists_header : ∃ header,
    env.snapshot.headerFromSlice ((content.take 256).takeWhile (· ≠ 0)) = .ok header ∧
      header.magic = snapshotMagic ∧ header.version = snapshotVersion ∧
      header.verifyChecksum env = true

/-- The bytes are a record, whose JSON is that of `value`. -/
def IsRecordOf {α : Type} (decode : Bytes → Except String α) (value : α) (bytes : Bytes) : Prop :=
  ∃ json, json.length < 2 ^ 32 ∧ bytes = snapshotRecord json ∧ decode json = .ok value

/-- The bytes are the record of a document that can be stored. -/
def IsDocumentRecord (env : SnapshotEnv) (bytes : Bytes) : Prop :=
  ∃ id fields, IsRecordOf env.json.fromSlice (id, fields) bytes ∧
    ∃ value, env.json.toVec id fields = .ok value

def IsIndexRecord (env : SnapshotEnv) (bytes : Bytes) : Prop :=
  ∃ index, IsRecordOf env.snapshot.indexFromSlice index bytes

def IsCollection (env : SnapshotEnv) (bytes : Bytes) : Prop :=
  ∃ (header : CollectionHeader) (headerRecord : Bytes) (documents indexes : List Bytes),
    IsRecordOf env.snapshot.collectionFromSlice header headerRecord ∧
      documents.length = header.documentCount ∧ (∀ d ∈ documents, IsDocumentRecord env d) ∧
      indexes.length = header.indexCount ∧ (∀ i ∈ indexes, IsIndexRecord env i) ∧
      bytes = headerRecord ++ documents.flatten ++ indexes.flatten

/-- The footer of what was read before it. -/
structure IsFooter (env : SnapshotEnv) (content footer : Bytes) : Prop where
  length_eq : footer.length = 64
  marker : footer.take 10 = snapshotEndMarker
  checksum : (footer.drop 10).take 32 = (env.sha256 content).toList

def CompleteBehindHeader (env : SnapshotEnv) (content : Bytes) : Prop :=
  ∃ (metadata : SnapshotMetadata) (metadataRecord : Bytes) (collections : List Bytes)
      (footer rest : Bytes),
    IsRecordOf env.snapshot.metadataFromSlice metadata metadataRecord ∧
      collections.length = metadata.collectionsCount ∧
      (∀ c ∈ collections, IsCollection env c) ∧
      IsFooter env (content.take 256 ++ (metadataRecord ++ collections.flatten)) footer ∧
      content.drop 256 = metadataRecord ++ collections.flatten ++ footer ++ rest

/-! ## The documents at the front -/

def IsWriteOf (env : SnapshotEnv) (name : String) (write : Bytes × Bytes) (bytes : Bytes) : Prop :=
  ∃ id fields, IsRecordOf env.json.fromSlice (id, fields) bytes ∧
    write.1 = PersistentLayer.makeDocumentKey name id ∧ env.json.toVec id fields = .ok write.2

def IsCollectionOf (env : SnapshotEnv) (writes : List (Bytes × Bytes)) (bytes : Bytes) : Prop :=
  ∃ (header : CollectionHeader) (headerRecord : Bytes) (documents indexes : List Bytes),
    IsRecordOf env.snapshot.collectionFromSlice header headerRecord ∧
      documents.length = header.documentCount ∧
      List.Forall₂ (IsWriteOf env header.name) writes documents ∧
      indexes.length = header.indexCount ∧ (∀ i ∈ indexes, IsIndexRecord env i) ∧
      bytes = headerRecord ++ documents.flatten ++ indexes.flatten

/-- The bytes start with the records of some documents of a collection that announces `n` of them,
stored so. -/
inductive DocumentsInFront (env : SnapshotEnv) (name : String) :
    Nat → Bytes → List (Bytes × Bytes) → Prop
  | none {n : Nat} {rest : Bytes} : DocumentsInFront env name n rest []
  | document {n : Nat} {bytes rest : Bytes} {write : Bytes × Bytes} {writes : List (Bytes × Bytes)}
      (hfirst : IsWriteOf env name write bytes) (hrest : DocumentsInFront env name n rest writes) :
      DocumentsInFront env name (n + 1) (bytes ++ rest) (write :: writes)

/-- The bytes start with some of the `n` collections a file announces: complete ones, and behind
them the header of one more with some of its documents. -/
inductive CollectionsInFront (env : SnapshotEnv) : Nat → Bytes → List (Bytes × Bytes) → Prop
  | none {n : Nat} {rest : Bytes} : CollectionsInFront env n rest []
  | documents {n : Nat} {header : CollectionHeader} {headerRecord rest : Bytes}
      {writes : List (Bytes × Bytes)}
      (hheader : IsRecordOf env.snapshot.collectionFromSlice header headerRecord)
      (hdocuments : DocumentsInFront env header.name header.documentCount rest writes) :
      CollectionsInFront env (n + 1) (headerRecord ++ rest) writes
  | collection {n : Nat} {bytes rest : Bytes} {writes others : List (Bytes × Bytes)}
      (hfirst : IsCollectionOf env writes bytes) (hrest : CollectionsInFront env n rest others) :
      CollectionsInFront env (n + 1) (bytes ++ rest) (writes ++ others)

/-- The file has these documents, as they are stored, in an intact front part: the header, the
metadata, and some of the collections announced there. -/
def StandInFront (env : SnapshotEnv) (content : Bytes) (writes : List (Bytes × Bytes)) : Prop :=
  HeaderAccepted env content ∧
    ∃ (metadata : SnapshotMetadata) (metadataRecord rest : Bytes),
      IsRecordOf env.snapshot.metadataFromSlice metadata metadataRecord ∧
        content.drop 256 = metadataRecord ++ rest ∧
        CollectionsInFront env metadata.collectionsCount rest writes

/-- All documents in front of the first fault of a file: no intact front part has more. -/
structure AllInFront (env : SnapshotEnv) (content : Bytes) (writes : List (Bytes × Bytes)) :
    Prop where
  stand : writes = [] ∨ StandInFront env content writes
  longest : ∀ others, StandInFront env content others → others <+: writes

theorem isDocumentRecord_iff (env : SnapshotEnv) (name : String) (bytes : Bytes) :
    IsDocumentRecord env bytes ↔ ∃ write, IsWriteOf env name write bytes := by
  constructor
  · rintro ⟨id, fields, hrecord, value, hvalue⟩
    exact ⟨(PersistentLayer.makeDocumentKey name id, value), id, fields, hrecord, rfl, hvalue⟩
  · rintro ⟨write, id, fields, hrecord, -, hvalue⟩
    exact ⟨id, fields, hrecord, write.2, hvalue⟩

theorem isDocumentRecords_iff (env : SnapshotEnv) (name : String) (documents : List Bytes) :
    (∀ d ∈ documents, IsDocumentRecord env d) ↔
      ∃ writes, List.Forall₂ (IsWriteOf env name) writes documents := by
  induction documents with
  | nil => exact iff_of_true (List.forall_mem_nil _) ⟨[], .nil⟩
  | cons bytes documents ih =>
    rw [List.forall_mem_cons, isDocumentRecord_iff env name, ih]
    constructor
    · rintro ⟨⟨write, hwrite⟩, writes, hwrites⟩
      exact ⟨write :: writes, .cons hwrite hwrites⟩
    · rintro ⟨all, hall⟩
      obtain ⟨write, writes, hwrite, hwrites, -⟩ := List.forall₂_cons_right_iff.mp hall
      exact ⟨⟨write, hwrite⟩, writes, hwrites⟩

theorem isCollection_iff (env : SnapshotEnv) (bytes : Bytes) :
    IsCollection env bytes ↔ ∃ writes, IsCollectionOf env writes bytes := by
  constructor
  · rintro ⟨header, headerRecord, documents, indexes, hrecord, hcount, hdocuments, hbehind⟩
    obtain ⟨writes, hwrites⟩ := (isDocumentRecords_iff env header.name documents).mp hdocuments
    exact ⟨writes, header, headerRecord, documents, indexes, hrecord, hcount, hwrites, hbehind⟩
  · rintro ⟨writes, header, headerRecord, documents, indexes, hrecord, hcount, hwrites, hbehind⟩
    exact ⟨header, headerRecord, documents, indexes, hrecord, hcount,
      (isDocumentRecords_iff env header.name documents).mpr ⟨writes, hwrites⟩, hbehind⟩

/-! ## What the reader has gone through -/

namespace SnapshotReader

/-- From one position of the reader to another, over the given bytes. -/
structure Passes (r : SnapshotReader) (bytes : Bytes) (r' : SnapshotReader) : Prop where
  rest_eq : r.rest = bytes ++ r'.rest
  hashed_eq : r'.hashed = r.hashed ++ bytes

theorem Passes.refl (r : SnapshotReader) : r.Passes [] r :=
  ⟨rfl, (List.append_nil _).symm⟩

theorem Passes.eq_of_nil {r r' : SnapshotReader} (h : r.Passes [] r') : r = r' := by
  have hrest := h.rest_eq
  have hhashed := h.hashed_eq
  rw [List.nil_append] at hrest
  rw [List.append_nil] at hhashed
  exact SnapshotReader.mk.injEq .. ▸ ⟨hhashed.symm, hrest⟩

theorem Passes.trans {r r' r'' : SnapshotReader} {a b : Bytes} (h : r.Passes a r')
    (h' : r'.Passes b r'') : r.Passes (a ++ b) r'' := by
  refine ⟨?_, ?_⟩
  · rw [h.rest_eq, h'.rest_eq, List.append_assoc]
  · rw [h'.hashed_eq, h.hashed_eq, List.append_assoc]

/-- The position between two parts of what was gone through. -/
theorem Passes.split {r r'' : SnapshotReader} {a b : Bytes} (h : r.Passes (a ++ b) r'') :
    ∃ r', r.Passes a r' ∧ r'.Passes b r'' := by
  refine ⟨⟨r.hashed ++ a, b ++ r''.rest⟩, ⟨?_, rfl⟩, ⟨rfl, ?_⟩⟩
  · rw [h.rest_eq, List.append_assoc]
  · rw [h.hashed_eq, List.append_assoc]

theorem readBytes_eq_ok_iff {r r' : SnapshotReader} {n : Nat} {bytes : Bytes} :
    r.readBytes n = .ok (bytes, r') ↔ bytes.length = n ∧ r.Passes bytes r' := by
  unfold readBytes
  constructor
  · intro h
    cases hread : readExact n r.rest with
    | none => simp [hread] at h
    | some read =>
      obtain ⟨hrest, hlen⟩ := readExact_eq_some hread
      simp only [hread, Except.ok.injEq, Prod.mk.injEq] at h
      obtain ⟨rfl, rfl⟩ := h
      exact ⟨hlen, ⟨hrest, rfl⟩⟩
  · rintro ⟨rfl, hrest, hhashed⟩
    rw [hrest, readExact_append]
    dsimp only
    rw [← hhashed]

theorem readRecord_eq_ok_iff {α : Type} {decode : Bytes → Except String α}
    {r r' : SnapshotReader} {value : α} :
    r.readRecord decode = .ok (value, r') ↔
      ∃ bytes, IsRecordOf decode value bytes ∧ r.Passes bytes r' := by
  unfold readRecord
  constructor
  · intro h
    cases hlen : r.readBytes 4 with
    | error e => simp [hlen] at h
    | ok field =>
      simp only [hlen] at h
      cases hjson : field.2.readBytes (ofLeBytes field.1) with
      | error e => simp [hjson] at h
      | ok json =>
        simp only [hjson] at h
        cases hdecode : decode json.1 with
        | error e => simp [hdecode] at h
        | ok decoded =>
          simp only [hdecode, Except.ok.injEq, Prod.mk.injEq] at h
          obtain ⟨rfl, rfl⟩ := h
          obtain ⟨hfour, hfield⟩ := readBytes_eq_ok_iff.mp hlen
          obtain ⟨hsize, hbody⟩ := readBytes_eq_ok_iff.mp hjson
          have hbytes : leBytes 4 json.1.length = field.1 := by
            rw [hsize, ← hfour]
            exact leBytes_ofLeBytes field.1
          have hshort := ofLeBytes_lt field.1
          rw [hfour, ← hsize] at hshort
          refine ⟨snapshotRecord json.1, ⟨json.1, hshort, rfl, hdecode⟩, ?_⟩
          rw [snapshotRecord, hbytes]
          exact hfield.trans hbody
  · rintro ⟨bytes, ⟨json, hshort, rfl, hdecode⟩, hpasses⟩
    obtain ⟨middle, hfield, hbody⟩ := hpasses.split
    have hlen := readBytes_eq_ok_iff.mpr ⟨leBytes_length 4 json.length, hfield⟩
    have hvalue : ofLeBytes (leBytes 4 json.length) = json.length :=
      ofLeBytes_leBytes_of_lt hshort
    have hjson := readBytes_eq_ok_iff.mpr ⟨rfl, hbody⟩
    simp only [hlen, hvalue, hjson, hdecode]

variable {env : SnapshotEnv}

theorem readHeader_eq_ok_iff {content : Bytes} :
    (∃ header r, (ofBytes content).readHeader env = .ok (header, r)) ↔
      HeaderAccepted env content := by
  constructor
  · rintro ⟨header, r, h⟩
    unfold readHeader at h
    cases hread : (ofBytes content).readBytes 256 with
    | error e => simp [hread] at h
    | ok read =>
      obtain ⟨hlen, hpasses⟩ := readBytes_eq_ok_iff.mp hread
      have hcontent : content = read.1 ++ read.2.rest := hpasses.rest_eq
      have htake : content.take 256 = read.1 := by
        rw [hcontent, ← hlen, List.take_left]
      simp only [hread] at h
      split at h
      · cases h
      · next decoded hdecode =>
          split_ifs at h with hmagic hversion hsum
          refine ⟨?_, decoded, ?_, not_not.mp hmagic, not_not.mp hversion, ?_⟩
          · rw [hcontent, List.length_append]
            omega
          · rw [htake]
            exact hdecode
          · simpa using hsum
  · rintro ⟨hlen, header, hdecode, hmagic, hversion, hsum⟩
    have hsize : (content.take 256).length = 256 := by
      rw [List.length_take]
      omega
    have hpasses : (ofBytes content).Passes (content.take 256)
        ⟨content.take 256, content.drop 256⟩ :=
      ⟨(List.take_append_drop 256 content).symm, rfl⟩
    have hread := readBytes_eq_ok_iff.mpr ⟨hsize, hpasses⟩
    refine ⟨header, ⟨content.take 256, content.drop 256⟩, ?_⟩
    simp only [readHeader, hread, hdecode, hmagic, hversion, hsum, ne_eq, not_true_eq_false,
      if_false, Bool.true_eq_false]

/-- Where the reader stands behind the header. -/
theorem readHeader_reader {content : Bytes} {header : SnapshotHeader} {r : SnapshotReader}
    (h : (ofBytes content).readHeader env = .ok (header, r)) :
    r = ⟨content.take 256, content.drop 256⟩ := by
  unfold readHeader at h
  cases hread : (ofBytes content).readBytes 256 with
  | error e => simp [hread] at h
  | ok read =>
    obtain ⟨hlen, hrest, hhashed⟩ := readBytes_eq_ok_iff.mp hread
    have hcontent : content = read.1 ++ read.2.rest := hrest
    have hr : read.2 = r := by
      simp only [hread] at h
      split at h
      · cases h
      · split_ifs at h
        exact (Prod.mk.inj (Except.ok.inj h)).2
    have hmk : r = ⟨read.2.hashed, read.2.rest⟩ := hr.symm
    rw [hmk, hhashed]
    conv_rhs => rw [hcontent, ← hlen, List.take_left, List.drop_left]
    rfl

theorem readFooter_eq_ok_iff {r : SnapshotReader} :
    r.readFooter env = .ok () ↔
      ∃ footer rest, IsFooter env r.hashed footer ∧ r.rest = footer ++ rest := by
  unfold readFooter
  constructor
  · intro h
    cases hread : readExact 64 r.rest with
    | none => simp [hread] at h
    | some read =>
      obtain ⟨hrest, hlen⟩ := readExact_eq_some hread
      simp only [hread] at h
      split_ifs at h with hmarker hsum
      exact ⟨read.1, read.2, ⟨hlen, not_not.mp hmarker, (not_not.mp hsum).symm⟩, hrest⟩
  · rintro ⟨footer, rest, ⟨hlen, hmarker, hsum⟩, hrest⟩
    rw [hrest, ← hlen, readExact_append]
    simp only [hmarker, hsum, ne_eq, not_true_eq_false, if_false]

end SnapshotReader

/-! ## The walk behind the header -/

namespace SnapshotVisitor

open SnapshotReader

variable (env : SnapshotEnv) (now : DateTime)

/-- How the tracer takes a document: the JSON it would be stored as. -/
theorem tracer_document_iff (writes writes' : List (Bytes × Bytes)) (header : CollectionHeader)
    (doc : Document) :
    (snapshotTracer env).document writes header doc = (.ok (), writes') ↔
      ∃ value, env.json.toVec doc.id doc.fields = .ok value ∧
        writes' = writes ++ [(PersistentLayer.makeDocumentKey header.name doc.id, value)] := by
  unfold snapshotTracer
  dsimp only
  cases env.json.toVec doc.id doc.fields with
  | error e => simp
  | ok value =>
    simp only [Prod.mk.injEq, true_and, Except.ok.injEq, exists_eq_left']
    exact eq_comm

theorem tracer_document_error {writes writes' : List (Bytes × Bytes)} {header : CollectionHeader}
    {doc : Document} {e : SnapshotError}
    (h : (snapshotTracer env).document writes header doc = (.error e, writes')) :
    writes' = writes := by
  unfold snapshotTracer at h
  dsimp only at h
  cases hvalue : env.json.toVec doc.id doc.fields with
  | error e => rw [hvalue] at h; exact (Prod.mk.inj h).2.symm
  | ok value => rw [hvalue] at h; cases (Prod.mk.inj h).1

theorem tracer_visitDocuments_iff (header : CollectionHeader) (n : Nat) {r r' : SnapshotReader}
    (writes writes' : List (Bytes × Bytes)) :
    (snapshotTracer env).visitDocuments env now header n r writes = (.ok r', writes') ↔
      ∃ (own : List (Bytes × Bytes)) (documents : List Bytes), documents.length = n ∧
        List.Forall₂ (IsWriteOf env header.name) own documents ∧
        r.Passes documents.flatten r' ∧ writes' = writes ++ own := by
  induction n generalizing r writes with
  | zero =>
    show (Except.ok r, writes) = (Except.ok r', writes') ↔ _
    constructor
    · intro h
      obtain ⟨hr, rfl⟩ := Prod.mk.inj h
      rw [← Except.ok.inj hr]
      exact ⟨[], [], rfl, .nil, .refl r, (List.append_nil _).symm⟩
    · rintro ⟨own, documents, hlen, hown, hpasses, rfl⟩
      obtain rfl := List.length_eq_zero_iff.mp hlen
      obtain rfl := List.forall₂_nil_right_iff.mp hown
      rw [hpasses.eq_of_nil, List.append_nil]
  | succ n ih =>
    unfold visitDocuments
    constructor
    · intro h
      cases hread : r.readDocument env with
      | error e => simp [hread] at h
      | ok read =>
        obtain ⟨⟨id, fields⟩, middle⟩ := read
        obtain ⟨bytes, hrecord, hfirst⟩ := readRecord_eq_ok_iff.mp hread
        simp only [hread] at h
        rcases hdoc : (snapshotTracer env).document writes header
          { id := id, fields := fields, metadata := DocumentMetadata.default now }
          with ⟨e | done, seen⟩
        · simp [hdoc] at h
        · simp only [hdoc] at h
          obtain ⟨value, hvalue, rfl⟩ := (tracer_document_iff env writes seen header _).mp hdoc
          obtain ⟨own, documents, hlen, hown, hrest, rfl⟩ := (ih _).mp h
          refine ⟨(PersistentLayer.makeDocumentKey header.name id, value) :: own,
            bytes :: documents, congrArg (· + 1) hlen,
            .cons ⟨id, fields, hrecord, rfl, hvalue⟩ hown, hfirst.trans hrest, ?_⟩
          rw [List.append_assoc, List.singleton_append]
    · rintro ⟨own, documents, hlen, hown, hpasses, rfl⟩
      obtain ⟨bytes, documents, rfl⟩ := List.exists_cons_of_length_eq_add_one hlen
      obtain ⟨write, own, ⟨id, fields, hrecord, hkey, hvalue⟩, howns, rfl⟩ :=
        List.forall₂_cons_right_iff.mp hown
      obtain ⟨middle, hfirst, hrest⟩ := hpasses.split
      have hread : r.readDocument env = .ok ((id, fields), middle) :=
        readRecord_eq_ok_iff.mpr ⟨bytes, hrecord, hfirst⟩
      have hdoc := (tracer_document_iff env writes (writes ++ [write]) header
        { id := id, fields := fields, metadata := DocumentMetadata.default now }).mpr
        ⟨write.2, hvalue, by rw [← hkey]⟩
      simp only [hread, hdoc]
      exact (ih _).mpr ⟨own, documents, Nat.succ.inj hlen, howns, hrest,
        by rw [List.append_assoc, List.singleton_append]⟩

theorem tracer_visitIndexes_iff (header : CollectionHeader) (n : Nat) {r r' : SnapshotReader}
    (writes : List (Bytes × Bytes)) :
    (snapshotTracer env).visitIndexes env header n r writes = (.ok r', writes) ↔
      ∃ indexes : List Bytes, indexes.length = n ∧
        (∀ i ∈ indexes, IsIndexRecord env i) ∧ r.Passes indexes.flatten r' := by
  induction n generalizing r with
  | zero =>
    show (Except.ok r, writes) = (Except.ok r', writes) ↔ _
    constructor
    · intro h
      rw [← Except.ok.inj (Prod.mk.inj h).1]
      exact ⟨[], rfl, by simp, .refl r⟩
    · rintro ⟨indexes, hlen, -, hpasses⟩
      rw [List.length_eq_zero_iff.mp hlen] at hpasses
      rw [hpasses.eq_of_nil]
  | succ n ih =>
    unfold visitIndexes
    constructor
    · intro h
      cases hread : r.readIndex env with
      | error e => simp [hread] at h
      | ok read =>
        obtain ⟨bytes, hrecord, hfirst⟩ := readRecord_eq_ok_iff.mp hread
        simp only [hread] at h
        obtain ⟨indexes, hlen, hindexes, hrest⟩ := ih.mp h
        refine ⟨bytes :: indexes, by simp [hlen], ?_, hfirst.trans hrest⟩
        exact List.forall_mem_cons.mpr ⟨⟨read.1, hrecord⟩, hindexes⟩
    · rintro ⟨indexes, hlen, hindexes, hpasses⟩
      obtain ⟨bytes, indexes, rfl⟩ := List.exists_cons_of_length_eq_add_one hlen
      obtain ⟨⟨index, hrecord⟩, hindexes⟩ := List.forall_mem_cons.mp hindexes
      obtain ⟨middle, hfirst, hrest⟩ := hpasses.split
      have hread : r.readIndex env = .ok (index, middle) :=
        readRecord_eq_ok_iff.mpr ⟨bytes, hrecord, hfirst⟩
      simp only [hread]
      exact ih.mpr ⟨indexes, Nat.succ.inj hlen, hindexes, hrest⟩

theorem tracer_visitIndexes_snd (header : CollectionHeader) (n : Nat) (r : SnapshotReader)
    (writes : List (Bytes × Bytes)) :
    ((snapshotTracer env).visitIndexes env header n r writes).2 = writes := by
  induction n generalizing r with
  | zero => rfl
  | succ n ih =>
    unfold visitIndexes
    cases r.readIndex env with
    | error e => rfl
    | ok read => exact ih read.2

/-- What a collection gone through to its end was. -/
theorem isCollectionOf_of_visit {header : CollectionHeader} {headerRecord : Bytes}
    {r behind last : SnapshotReader} {writes writes' writes'' : List (Bytes × Bytes)}
    (hrecord : IsRecordOf env.snapshot.collectionFromSlice header headerRecord)
    (hdocs : (snapshotTracer env).visitDocuments env now header header.documentCount r writes =
      (.ok behind, writes'))
    (hindexes : (snapshotTracer env).visitIndexes env header header.indexCount behind writes' =
      (.ok last, writes'')) :
    ∃ own bytes, IsCollectionOf env own (headerRecord ++ bytes) ∧ r.Passes bytes last ∧
      writes'' = writes ++ own ∧ writes'' = writes' := by
  obtain ⟨own, documents, hcount, hown, hpassed, rfl⟩ :=
    (tracer_visitDocuments_iff env now header _ writes writes').mp hdocs
  have hsame : writes ++ own = writes'' := by
    rw [← tracer_visitIndexes_snd env header header.indexCount behind (writes ++ own), hindexes]
  subst hsame
  obtain ⟨indexes, hcount', hrecords, hpassed'⟩ :=
    (tracer_visitIndexes_iff env header _ _).mp hindexes
  refine ⟨own, documents.flatten ++ indexes.flatten, ?_, hpassed.trans hpassed', rfl, rfl⟩
  exact ⟨header, headerRecord, documents, indexes, hrecord, hcount, hown, hcount', hrecords,
    (List.append_assoc _ _ _).symm⟩

theorem visit_of_isCollectionOf {r last : SnapshotReader} {own : List (Bytes × Bytes)}
    {bytes : Bytes} (writes : List (Bytes × Bytes)) (hcollection : IsCollectionOf env own bytes)
    (hpasses : r.Passes bytes last) :
    ∃ header middle behind, r.readCollectionHeader env = .ok (header, middle) ∧
      (snapshotTracer env).visitDocuments env now header header.documentCount middle writes =
        (.ok behind, writes ++ own) ∧
      (snapshotTracer env).visitIndexes env header header.indexCount behind (writes ++ own) =
        (.ok last, writes ++ own) := by
  obtain ⟨header, headerRecord, documents, indexes, hrecord, hcount, hown, hcount', hindexes,
    rfl⟩ := hcollection
  obtain ⟨behind, hfront, hpassed'⟩ := hpasses.split
  obtain ⟨middle, hheader, hpassed⟩ := hfront.split
  exact ⟨header, middle, behind, readRecord_eq_ok_iff.mpr ⟨headerRecord, hrecord, hheader⟩,
    (tracer_visitDocuments_iff env now header _ writes _).mpr
      ⟨own, documents, hcount, hown, hpassed, rfl⟩,
    (tracer_visitIndexes_iff env header _ _).mpr ⟨indexes, hcount', hindexes, hpassed'⟩⟩

theorem tracer_visitCollections_iff (n : Nat) {r r' : SnapshotReader}
    (writes : List (Bytes × Bytes)) :
    ((snapshotTracer env).visitCollections env now n r writes).1 = .ok r' ↔
      ∃ collections : List Bytes, collections.length = n ∧
        (∀ c ∈ collections, IsCollection env c) ∧ r.Passes collections.flatten r' := by
  induction n generalizing r writes with
  | zero =>
    show Except.ok r = Except.ok r' ↔ _
    constructor
    · intro h
      rw [← Except.ok.inj h]
      exact ⟨[], rfl, by simp, .refl r⟩
    · rintro ⟨collections, hlen, -, hpasses⟩
      rw [List.length_eq_zero_iff.mp hlen] at hpasses
      exact congrArg Except.ok (hpasses.eq_of_nil)
  | succ n ih =>
    unfold visitCollections
    constructor
    · intro h
      cases hread : r.readCollectionHeader env with
      | error e => simp [hread] at h
      | ok read =>
        obtain ⟨headerRecord, hrecord, hheader⟩ := readRecord_eq_ok_iff.mp hread
        simp only [hread] at h
        rcases hvisit : (snapshotTracer env).visitDocuments env now read.1
          read.1.documentCount read.2 ((snapshotTracer env).collection writes read.1)
          with ⟨e | behind, writes'⟩
        · simp [hvisit] at h
        simp only [hvisit] at h
        rcases hvisit' : (snapshotTracer env).visitIndexes env read.1 read.1.indexCount
          behind writes' with ⟨e | last, writes''⟩
        · simp [hvisit'] at h
        simp only [hvisit'] at h
        obtain ⟨own, bytes, hcollection, hpassed, -, -⟩ :=
          isCollectionOf_of_visit env now hrecord hvisit hvisit'
        obtain ⟨collections, hlen, hcollections, hrest⟩ := (ih writes'').mp h
        exact ⟨(headerRecord ++ bytes) :: collections, congrArg (· + 1) hlen,
          List.forall_mem_cons.mpr
            ⟨(isCollection_iff env _).mpr ⟨own, hcollection⟩, hcollections⟩,
          (hheader.trans hpassed).trans hrest⟩
    · rintro ⟨collections, hlen, hcollections, hpasses⟩
      obtain ⟨bytes, collections, rfl⟩ := List.exists_cons_of_length_eq_add_one hlen
      obtain ⟨hcollection, hothers⟩ := List.forall_mem_cons.mp hcollections
      obtain ⟨own, hcollection⟩ := (isCollection_iff env _).mp hcollection
      obtain ⟨last, hfirst, hrest⟩ := hpasses.split
      obtain ⟨header, middle, behind, hread, hdocs, hindexes⟩ :=
        visit_of_isCollectionOf env now writes hcollection hfirst
      have hdocs' : (snapshotTracer env).visitDocuments env now header header.documentCount
        middle ((snapshotTracer env).collection writes header) = (.ok behind, writes ++ own) :=
          hdocs
      simp only [hread, hdocs', hindexes]
      exact (ih _).mpr ⟨collections, Nat.succ.inj hlen, hothers, hrest⟩

/-! ## The walk up to a fault -/

/-- What the walk over some documents lists stands at their front, whether it fails or not. -/
theorem tracer_visitDocuments_front (header : CollectionHeader) (n : Nat) (r : SnapshotReader)
    (writes : List (Bytes × Bytes)) :
    ∃ own, DocumentsInFront env header.name n r.rest own ∧
      ((snapshotTracer env).visitDocuments env now header n r writes).2 = writes ++ own := by
  induction n generalizing r writes with
  | zero => exact ⟨[], .none, (List.append_nil _).symm⟩
  | succ n ih =>
    unfold visitDocuments
    cases hread : r.readDocument env with
    | error e => exact ⟨[], .none, (List.append_nil _).symm⟩
    | ok read =>
      obtain ⟨⟨id, fields⟩, middle⟩ := read
      obtain ⟨bytes, hrecord, hfirst⟩ := readRecord_eq_ok_iff.mp hread
      dsimp only
      rcases hdoc : (snapshotTracer env).document writes header
        { id := id, fields := fields, metadata := DocumentMetadata.default now }
        with ⟨e | done, seen⟩
      · obtain rfl := tracer_document_error env hdoc
        exact ⟨[], .none, (List.append_nil _).symm⟩
      · obtain ⟨value, hvalue, rfl⟩ := (tracer_document_iff env writes seen header _).mp hdoc
        obtain ⟨own, hown, hstate⟩ := ih middle
          (writes ++ [(PersistentLayer.makeDocumentKey header.name id, value)])
        refine ⟨(PersistentLayer.makeDocumentKey header.name id, value) :: own, ?_, ?_⟩
        · rw [hfirst.rest_eq]
          exact .document ⟨id, fields, hrecord, rfl, hvalue⟩ hown
        · dsimp only
          rw [hstate, List.append_assoc, List.singleton_append]

theorem tracer_visitDocuments_longest (header : CollectionHeader) {n : Nat} {bytes : Bytes}
    {own : List (Bytes × Bytes)} (h : DocumentsInFront env header.name n bytes own)
    {r : SnapshotReader} (hr : r.rest = bytes) (writes : List (Bytes × Bytes)) :
    writes ++ own <+: ((snapshotTracer env).visitDocuments env now header n r writes).2 := by
  induction h generalizing r writes with
  | none =>
    obtain ⟨own, -, hstate⟩ := tracer_visitDocuments_front env now header _ r writes
    rw [hstate, List.append_nil]
    exact List.prefix_append writes own
  | @document n bytes rest write others hfirst hrest ih =>
    obtain ⟨id, fields, hrecord, hkey, hvalue⟩ := hfirst
    have hread : r.readDocument env = .ok ((id, fields), ⟨r.hashed ++ bytes, rest⟩) :=
      readRecord_eq_ok_iff.mpr ⟨bytes, hrecord, hr, rfl⟩
    have hdoc := (tracer_document_iff env writes (writes ++ [write]) header
      { id := id, fields := fields, metadata := DocumentMetadata.default now }).mpr
      ⟨write.2, hvalue, by rw [← hkey]⟩
    unfold visitDocuments
    simp only [hread, hdoc]
    rw [← List.singleton_append, ← List.append_assoc]
    exact ih rfl _

theorem tracer_visitCollections_front (n : Nat) (r : SnapshotReader)
    (writes : List (Bytes × Bytes)) :
    ∃ own, CollectionsInFront env n r.rest own ∧
      ((snapshotTracer env).visitCollections env now n r writes).2 = writes ++ own := by
  induction n generalizing r writes with
  | zero => exact ⟨[], .none, (List.append_nil _).symm⟩
  | succ n ih =>
    unfold visitCollections
    cases hread : r.readCollectionHeader env with
    | error e => exact ⟨[], .none, (List.append_nil _).symm⟩
    | ok read =>
      obtain ⟨headerRecord, hrecord, hheader⟩ := readRecord_eq_ok_iff.mp hread
      obtain ⟨own, hown, hstate⟩ := tracer_visitDocuments_front env now read.1
        read.1.documentCount read.2 writes
      have hfront : CollectionsInFront env (n + 1) r.rest own := by
        rw [hheader.rest_eq]
        exact .documents hrecord hown
      dsimp only
      rcases hvisit : (snapshotTracer env).visitDocuments env now read.1
        read.1.documentCount read.2 ((snapshotTracer env).collection writes read.1)
        with ⟨e | behind, writes'⟩
      · exact ⟨own, hfront, (congrArg Prod.snd hvisit).symm.trans hstate⟩
      have hlisted : writes' = writes ++ own := (congrArg Prod.snd hvisit).symm.trans hstate
      dsimp only
      rcases hvisit' : (snapshotTracer env).visitIndexes env read.1 read.1.indexCount
        behind writes' with ⟨e | last, writes''⟩
      · have hindexes := tracer_visitIndexes_snd env read.1 read.1.indexCount behind writes'
        rw [hvisit'] at hindexes
        exact ⟨own, hfront, hindexes.trans hlisted⟩
      obtain ⟨all, bytes, hcollection, hpassed, hall, -⟩ :=
        isCollectionOf_of_visit env now hrecord hvisit hvisit'
      obtain ⟨others, hothers, hwalked⟩ := ih last writes''
      refine ⟨all ++ others, ?_, ?_⟩
      · rw [(hheader.trans hpassed).rest_eq]
        exact .collection hcollection hothers
      · dsimp only
        rw [hwalked, hall, List.append_assoc]
        rfl

theorem tracer_visitCollections_longest {n : Nat} {bytes : Bytes} {own : List (Bytes × Bytes)}
    (h : CollectionsInFront env n bytes own) {r : SnapshotReader} (hr : r.rest = bytes)
    (writes : List (Bytes × Bytes)) :
    writes ++ own <+: ((snapshotTracer env).visitCollections env now n r writes).2 := by
  induction h generalizing r writes with
  | none =>
    obtain ⟨own, -, hstate⟩ := tracer_visitCollections_front env now _ r writes
    rw [hstate, List.append_nil]
    exact List.prefix_append writes own
  | @documents n header headerRecord rest own hheader hdocuments =>
    have hread : r.readCollectionHeader env = .ok (header, ⟨r.hashed ++ headerRecord, rest⟩) :=
      readRecord_eq_ok_iff.mpr ⟨headerRecord, hheader, hr, rfl⟩
    have hlisted := tracer_visitDocuments_longest env now header hdocuments
      (r := ⟨r.hashed ++ headerRecord, rest⟩) rfl writes
    unfold visitCollections
    simp only [hread]
    rcases hvisit : (snapshotTracer env).visitDocuments env now header header.documentCount
      ⟨r.hashed ++ headerRecord, rest⟩ ((snapshotTracer env).collection writes header)
      with ⟨e | behind, writes'⟩
    · exact (congrArg (writes ++ own <+: Prod.snd ·) hvisit).mp hlisted
    have hlisted' : writes ++ own <+: writes' :=
      (congrArg (writes ++ own <+: Prod.snd ·) hvisit).mp hlisted
    have hindexes := tracer_visitIndexes_snd env header header.indexCount behind writes'
    dsimp only
    rcases hvisit' : (snapshotTracer env).visitIndexes env header header.indexCount behind
      writes' with ⟨e | last, writes''⟩
    · rw [hvisit'] at hindexes
      exact hindexes ▸ hlisted'
    rw [hvisit'] at hindexes
    obtain rfl : writes'' = writes' := hindexes
    obtain ⟨others, -, hwalked⟩ := tracer_visitCollections_front env now n last writes''
    dsimp only
    rw [hwalked]
    exact hlisted'.trans (List.prefix_append _ others)
  | @collection n bytes rest own others hfirst hrest ih =>
    have hpasses : r.Passes bytes ⟨r.hashed ++ bytes, rest⟩ := ⟨hr, rfl⟩
    obtain ⟨header, middle, behind, hread, hdocs, hindexes⟩ :=
      visit_of_isCollectionOf env now writes hfirst hpasses
    have hdocs' : (snapshotTracer env).visitDocuments env now header header.documentCount middle
        ((snapshotTracer env).collection writes header) = (.ok behind, writes ++ own) := hdocs
    unfold visitCollections
    simp only [hread, hdocs', hindexes]
    rw [← List.append_assoc]
    exact ih rfl _

end SnapshotVisitor

/-! ## Accepted files -/

theorem snapshotAccepted_iff (env : SnapshotEnv) (now : DateTime) (content : Bytes) :
    SnapshotAccepted env now content ↔
      HeaderAccepted env content ∧ CompleteBehindHeader env content := by
  unfold SnapshotAccepted SnapshotVisitor.visitSnapshot
  constructor
  · rintro ⟨sequence, h⟩
    cases hheader : (SnapshotReader.ofBytes content).readHeader env with
    | error e => simp [hheader] at h
    | ok header =>
      have hstart := SnapshotReader.readHeader_reader hheader
      simp only [hheader] at h
      cases hmetadata : header.2.readMetadata env with
      | error e => simp [hmetadata] at h
      | ok metadata =>
        obtain ⟨metadataRecord, hrecord, hfirst⟩ :=
          SnapshotReader.readRecord_eq_ok_iff.mp hmetadata
        simp only [hmetadata] at h
        rcases hvisit : (snapshotTracer env).visitCollections env now
          metadata.1.collectionsCount metadata.2 [] with ⟨e | last, writes⟩
        · simp [hvisit] at h
        simp only [hvisit] at h
        obtain ⟨collections, hlen, hcollections, hwalked⟩ :=
          (SnapshotVisitor.tracer_visitCollections_iff env now
            metadata.1.collectionsCount []).mp (congrArg Prod.fst hvisit)
        have hpassed := hfirst.trans hwalked
        rw [hstart] at hpassed
        cases hfooter : last.readFooter env with
        | error e => simp [hfooter] at h
        | ok done =>
          obtain ⟨footer, rest, hfooter, hlast⟩ :=
            SnapshotReader.readFooter_eq_ok_iff.mp hfooter
          rw [hpassed.hashed_eq] at hfooter
          refine ⟨SnapshotReader.readHeader_eq_ok_iff.mp ⟨header.1, header.2, hheader⟩,
            metadata.1, metadataRecord, collections, footer, rest, hrecord, hlen,
            hcollections, hfooter, ?_⟩
          have hbehind := hpassed.rest_eq
          rw [hlast, ← List.append_assoc] at hbehind
          exact hbehind
  · rintro ⟨haccepted, metadata, metadataRecord, collections, footer, rest, hrecord, hlen,
      hcollections, hfooter, hbehind⟩
    obtain ⟨header, start, hheader⟩ := SnapshotReader.readHeader_eq_ok_iff.mpr haccepted
    have hstart := SnapshotReader.readHeader_reader hheader
    subst hstart
    have hpassed : SnapshotReader.Passes ⟨content.take 256, content.drop 256⟩
        (metadataRecord ++ collections.flatten)
        ⟨content.take 256 ++ (metadataRecord ++ collections.flatten), footer ++ rest⟩ :=
      ⟨by rw [hbehind, List.append_assoc _ footer], rfl⟩
    obtain ⟨middle, hfirst, hwalked⟩ := hpassed.split
    have hmetadata : SnapshotReader.readMetadata env ⟨content.take 256, content.drop 256⟩ =
        .ok (metadata, middle) :=
      SnapshotReader.readRecord_eq_ok_iff.mpr ⟨metadataRecord, hrecord, hfirst⟩
    have hvisit := (SnapshotVisitor.tracer_visitCollections_iff env now
      metadata.collectionsCount []).mpr ⟨collections, hlen, hcollections, hwalked⟩
    have hlast : SnapshotReader.readFooter env
        ⟨content.take 256 ++ (metadataRecord ++ collections.flatten), footer ++ rest⟩ = .ok () :=
      SnapshotReader.readFooter_eq_ok_iff.mpr ⟨footer, rest, hfooter, rfl⟩
    refine ⟨header.sequence, ?_⟩
    simp only [hheader, hmetadata]
    generalize (snapshotTracer env).visitCollections env now metadata.collectionsCount middle [] =
      visited at hvisit ⊢
    obtain ⟨result, writes⟩ := visited
    obtain rfl : result = _ := hvisit
    simp only [hlast]

/-! ## Rejected files -/

theorem standInFront_snapshotWrites (env : SnapshotEnv) (now : DateTime) (content : Bytes) :
    snapshotWrites env now content = [] ∨
      StandInFront env content (snapshotWrites env now content) := by
  unfold snapshotWrites SnapshotVisitor.visitSnapshot
  cases hheader : (SnapshotReader.ofBytes content).readHeader env with
  | error e => exact .inl rfl
  | ok header =>
    obtain ⟨header, start⟩ := header
    have haccepted := SnapshotReader.readHeader_eq_ok_iff.mp ⟨header, start, hheader⟩
    obtain rfl := SnapshotReader.readHeader_reader hheader
    dsimp only
    cases hmetadata : SnapshotReader.readMetadata env ⟨content.take 256, content.drop 256⟩ with
    | error e => exact .inl rfl
    | ok metadata =>
      obtain ⟨metadataRecord, hrecord, hfirst⟩ :=
        SnapshotReader.readRecord_eq_ok_iff.mp hmetadata
      obtain ⟨own, hown, hstate⟩ := SnapshotVisitor.tracer_visitCollections_front env now
        metadata.1.collectionsCount metadata.2 []
      right
      refine ⟨haccepted, metadata.1, metadataRecord, metadata.2.rest, hrecord,
        hfirst.rest_eq, ?_⟩
      dsimp only
      rcases hvisit : (snapshotTracer env).visitCollections env now
        metadata.1.collectionsCount metadata.2 [] with ⟨e | last, writes⟩
      · rw [hvisit] at hstate
        exact hstate ▸ hown
      · rw [hvisit] at hstate
        dsimp only
        cases last.readFooter env with
        | error e => exact hstate ▸ hown
        | ok done => exact hstate ▸ hown

theorem StandInFront.prefix_snapshotWrites {env : SnapshotEnv} {content : Bytes}
    {writes : List (Bytes × Bytes)} (h : StandInFront env content writes) (now : DateTime) :
    writes <+: snapshotWrites env now content := by
  obtain ⟨haccepted, metadata, metadataRecord, rest, hrecord, hbehind, hfront⟩ := h
  obtain ⟨header, start, hheader⟩ := SnapshotReader.readHeader_eq_ok_iff.mpr haccepted
  obtain rfl := SnapshotReader.readHeader_reader hheader
  have hmetadata : SnapshotReader.readMetadata env ⟨content.take 256, content.drop 256⟩ =
      .ok (metadata, ⟨content.take 256 ++ metadataRecord, rest⟩) :=
    SnapshotReader.readRecord_eq_ok_iff.mpr ⟨metadataRecord, hrecord, hbehind, rfl⟩
  have hlisted := SnapshotVisitor.tracer_visitCollections_longest env now hfront
    (r := ⟨content.take 256 ++ metadataRecord, rest⟩) rfl []
  rw [List.nil_append] at hlisted
  unfold snapshotWrites SnapshotVisitor.visitSnapshot
  simp only [hheader, hmetadata]
  rcases hvisit : (snapshotTracer env).visitCollections env now metadata.collectionsCount
    ⟨content.take 256 ++ metadataRecord, rest⟩ [] with ⟨e | last, listed⟩
  · rw [hvisit] at hlisted
    exact hlisted
  · rw [hvisit] at hlisted
    dsimp only
    cases last.readFooter env with
    | error e => exact hlisted
    | ok done => exact hlisted

/-- The documents in front of the first fault are those that a load stores. -/
theorem allInFront_iff (env : SnapshotEnv) (now : DateTime) (content : Bytes)
    (writes : List (Bytes × Bytes)) :
    AllInFront env content writes ↔ writes = snapshotWrites env now content := by
  have hstand := standInFront_snapshotWrites env now content
  constructor
  · rintro ⟨hwrites, hlongest⟩
    have hle : writes <+: snapshotWrites env now content := by
      rcases hwrites with rfl | hwrites
      · exact List.nil_prefix
      · exact hwrites.prefix_snapshotWrites now
    have hge : snapshotWrites env now content <+: writes := by
      rcases hstand with hnone | hstand
      · exact hnone ▸ List.nil_prefix
      · exact hlongest _ hstand
    exact hle.eq_of_length (Nat.le_antisymm hle.length_le hge.length_le)
  · rintro rfl
    exact ⟨hstand, fun others hothers => hothers.prefix_snapshotWrites now⟩

/-- A load that is rejected leaves the store as it was exactly when the documents in front of the
first fault were stored already, each under its key and with the same bytes. -/
theorem loadSnapshot_rejected_unchanged_iff (env : SnapshotEnv) (now : DateTime) (content : Bytes)
    (layer : PersistentLayer) :
    ((∃ e, (loadSnapshot env now content layer).1 = .error e) →
        (loadSnapshot env now content layer).2 = layer) ↔
      (HeaderAccepted env content ∧ CompleteBehindHeader env content) ∨
        ∃ writes, AllInFront env content writes ∧
          ∀ key value, writes.reverse.lookup key = some value →
            layer.documents[key]? = some value := by
  simp only [allInFront_iff env now, exists_eq_left]
  rw [loadSnapshot_rejected_iff, loadSnapshot_snd, PersistentLayer.insertAll_eq_self_iff,
    Classical.or_iff_not_imp_left, snapshotAccepted_iff]

/-- The snapshot of such a store at sequence 5, with a checksum of zeros in the footer. -/
def damagedSnapshot : Bytes :=
  let content := snapshotBytes (createSnapshot epochEnv 0 (oneDocument "users") 5)
  content.take (content.length - 54) ++ List.replicate 54 0

-- The checksum is compared after the document was stored.
theorem damaged_snapshot_changes_store :
    (loadSnapshot epochEnv 0 damagedSnapshot .empty).1 = .error .checksumMismatch ∧
      (loadSnapshot epochEnv 0 damagedSnapshot .empty).2 ≠ .empty := by
  have herror : (loadSnapshot epochEnv 0 damagedSnapshot .empty).1 = .error .checksumMismatch ∧
      (loadSnapshot epochEnv 0 damagedSnapshot .empty).2.documents.isEmpty = false := by
    decide +kernel
  refine ⟨herror.1, ?_⟩
  intro hsame
  have hempty := herror.2
  rw [hsame] at hempty
  exact absurd hempty (by decide)

end VedDb
