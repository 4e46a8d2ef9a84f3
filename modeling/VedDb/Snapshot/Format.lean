import VedDb.Lib.Durable
import VedDb.Lib.Sha256
import VedDb.Storage.Catalogue
import VedDb.Wal.Entry

/-!
# The snapshot format

`snapshot/format.rs`.  A snapshot file is

    header (256) | metadata record | collections | footer (64)

where a record is a length (4, little-endian) and JSON, a collection is the record of its header
followed by those of its documents and indexes, and the footer holds an end marker and the SHA-256
of everything before it.  The header is JSON padded with zeros to 256 bytes.
-/

namespace VedDb

open LittleEndian
open Durable (Outcome)

def snapshotMagic : Vector UInt8 8 := #v[86, 69, 68, 68, 66, 0, 0, 0]

def snapshotVersion : UInt32 := 1

def snapshotEndMarker : Bytes := [86, 69, 68, 68, 66, 95, 69, 78, 68, 0]

example : snapshotMagic.toList.take 5 = utf8 "VEDDB" ∧
    snapshotEndMarker.take 9 = utf8 "VEDDB_END" := by decide

inductive ChecksumAlgo where
  | sha256
  deriving DecidableEq

structure SnapshotHeader where
  magic : Vector UInt8 8
  version : UInt32
  timestamp : DateTime
  sequence : Nat
  checksumAlgo : ChecksumAlgo
  checksum : Vector UInt8 32
  deriving DecidableEq

/-- `SnapshotHeader::new`, at the instant the clock shows. -/
def SnapshotHeader.new (now : DateTime) (sequence : Nat) : SnapshotHeader :=
  { magic := snapshotMagic, version := snapshotVersion, timestamp := now, sequence := sequence,
    checksumAlgo := .sha256, checksum := Vector.replicate 32 0 }

structure SnapshotMetadata where
  collectionsCount : Nat
  usersCount : Nat
  config : String
  deriving DecidableEq

structure CollectionHeader where
  name : String
  schemaJson : String
  documentCount : Nat
  indexCount : Nat
  deriving DecidableEq

inductive SnapshotError where
  | ioError (kind : IoErrorKind) (message : String)
  | serializationError (message : String)
  | deserializationError (message : String)
  | invalidMagic
  | invalidVersion (version : UInt32)
  | checksumMismatch
  | invalidEndMarker
  | notFound (path : String)
  | corrupted
  deriving DecidableEq

/-- The messages of `SnapshotError`. -/
def SnapshotError.message : SnapshotError → String
  | .ioError _ message => "IO error: " ++ message
  | .serializationError message => "Serialization error: " ++ message
  | .deserializationError message => "Deserialization error: " ++ message
  | .invalidMagic => "Invalid snapshot magic bytes"
  | .invalidVersion version => "Invalid snapshot version: " ++ toString version
  | .checksumMismatch => "Checksum mismatch"
  | .invalidEndMarker => "Invalid end marker"
  | .notFound path => "Snapshot not found: " ++ path
  | .corrupted => "Corrupted snapshot"

/-- `serde_json` on the parts of a snapshot other than documents. -/
structure SnapshotJson where
  headerToVec : SnapshotHeader → Except String Bytes
  headerFromSlice : Bytes → Except String SnapshotHeader
  metadataToVec : SnapshotMetadata → Except String Bytes
  metadataFromSlice : Bytes → Except String SnapshotMetadata
  collectionToVec : CollectionHeader → Except String Bytes
  collectionFromSlice : Bytes → Except String CollectionHeader
  indexFromSlice : Bytes → Except String IndexDefinition

/-- What snapshots are written and read with. -/
structure SnapshotEnv where
  json : DocumentJson
  snapshot : SnapshotJson
  sha256 : Bytes → Vector UInt8 32

/-- `Sha256::digest`. -/
def sha256 (bytes : Bytes) : Vector UInt8 32 :=
  ⟨(Sha256.hash bytes).toArray, by rw [List.size_toArray, Sha256.length_hash]⟩

variable (env : SnapshotEnv)

/-- `SnapshotHeader::compute_checksum`.  The timestamp enters as whole seconds, in an `i64`. -/
def SnapshotHeader.computeChecksum (header : SnapshotHeader) : Vector UInt8 32 :=
  env.sha256 (header.magic.toList ++ leBytes 4 header.version.toNat ++
    leBytes 8 ((header.timestamp / 1000000000) % 2 ^ 64).toNat ++ leBytes 8 header.sequence)

def SnapshotHeader.verifyChecksum (header : SnapshotHeader) : Bool :=
  header.computeChecksum env = header.checksum

def SnapshotHeader.sealed (header : SnapshotHeader) : SnapshotHeader :=
  { header with checksum := header.computeChecksum env }

theorem SnapshotHeader.verifyChecksum_sealed (header : SnapshotHeader) :
    (header.sealed env).verifyChecksum env = true := by
  have hsame : (header.sealed env).computeChecksum env = header.computeChecksum env := rfl
  rw [verifyChecksum, hsame]
  exact decide_eq_true rfl

/-- A length-prefixed record; `as u32` keeps the low 32 bits of the length. -/
def snapshotRecord (json : Bytes) : Bytes := leBytes 4 json.length ++ json

/-- The footer over what was written before it. -/
def snapshotFooter (content : Bytes) : Bytes :=
  snapshotEndMarker ++ (env.sha256 content).toList ++ List.replicate 22 0

theorem length_snapshotFooter (content : Bytes) : (snapshotFooter env content).length = 64 := by
  simp [snapshotFooter, snapshotEndMarker]

/-! ## A concrete codec

The JSON `serde_json` writes for the header of a snapshot taken at the epoch, for the metadata and
for a collection whose name needs no escapes.  A text is read by finding its variable parts and
writing them again.  The closed runs over snapshots use it in place of the abstract codec. -/

def decimalBytes (n : Nat) : Bytes := asciiBytes (Nat.toDigits 10 n)

def ofDecimalBytes (bytes : Bytes) : Nat := bytes.foldl (fun n b => 10 * n + (b.toNat - 48)) 0

def isDecimal (b : UInt8) : Bool := 48 ≤ b ∧ b ≤ 57

def headerPrelude : Bytes :=
  utf8 ("\x7b\"magic\":[86,69,68,68,66,0,0,0],\"version\":1," ++
    "\"timestamp\":\"1970-01-01T00:00:00Z\",\"sequence\":")

def headerMiddle : Bytes := utf8 ",\"checksum_algo\":\"SHA256\",\"checksum\":["

def epochHeaderJson (sequence : Nat) (checksum : Vector UInt8 32) : Bytes :=
  headerPrelude ++ decimalBytes sequence ++ headerMiddle ++
    (List.intersperse [44] (checksum.toList.map fun b => decimalBytes b.toNat)).flatten ++
    utf8 "]\x7d"

def epochHeader (sequence : Nat) (checksum : Vector UInt8 32) : SnapshotHeader :=
  { SnapshotHeader.new 0 sequence with checksum := checksum }

/-- The JSON of the metadata of a snapshot with the given number of collections. -/
def metadataJson (collectionsCount : Nat) : Bytes :=
  utf8 "\x7b\"collections_count\":" ++ decimalBytes collectionsCount ++
    utf8 ",\"users_count\":0,\"config\":\"\x7b\x7d\"\x7d"

/-- The JSON of the header of a collection without indexes. -/
def collectionJson (name : String) (documentCount : Nat) : Bytes :=
  utf8 "\x7b\"name\":\"" ++ utf8 name ++
    utf8 "\",\"schema_json\":\"\x7b\x7d\",\"document_count\":" ++
    decimalBytes documentCount ++ utf8 ",\"index_count\":0\x7d"

/-- Whether a name stands in JSON as it is. -/
def needsNoEscapes (name : String) : Bool :=
  name.toList.all fun c => 32 ≤ c.toNat ∧ c ≠ '"' ∧ c ≠ '\\'

def epochSnapshotJson : SnapshotJson where
  headerToVec header :=
    if header = epochHeader header.sequence header.checksum then
      .ok (epochHeaderJson header.sequence header.checksum)
    else .error "expected the header of a snapshot at the epoch"
  headerFromSlice bytes :=
    let rest := bytes.drop headerPrelude.length
    let digits := rest.takeWhile isDecimal
    let numbers := (rest.drop (digits.length + headerMiddle.length)).takeWhile (· ≠ 93)
    let checksum := Vector.ofFn fun (i : Fin 32) =>
      UInt8.ofNat (ofDecimalBytes (((numbers.splitOn 44)[i.val]?).getD []))
    if bytes = epochHeaderJson (ofDecimalBytes digits) checksum then
      .ok (epochHeader (ofDecimalBytes digits) checksum)
    else .error "expected the header of a snapshot at the epoch"
  metadataToVec metadata :=
    if metadata.usersCount = 0 ∧ metadata.config = "\x7b\x7d" then
      .ok (metadataJson metadata.collectionsCount)
    else .error "expected the default metadata"
  metadataFromSlice bytes :=
    let count := ofDecimalBytes (bytes.filter isDecimal).dropLast
    if bytes = metadataJson count then
      .ok { collectionsCount := count, usersCount := 0, config := "\x7b\x7d" }
    else .error "expected the default metadata"
  collectionToVec header :=
    if needsNoEscapes header.name ∧ header.schemaJson = "\x7b\x7d" ∧ header.indexCount = 0 then
      .ok (collectionJson header.name header.documentCount)
    else .error "expected a plain collection"
  collectionFromSlice bytes :=
    let text := (bytes.drop 9).takeWhile (· ≠ 34)
    let count := ofDecimalBytes (((bytes.drop (9 + text.length)).filter isDecimal).dropLast)
    match String.fromUTF8? ⟨⟨text⟩⟩ with
    | none => .error "invalid unicode code point"
    | some name =>
      if bytes = collectionJson name count then
        .ok { name := name, schemaJson := "\x7b\x7d", documentCount := count, indexCount := 0 }
      else .error "expected a plain collection"
  indexFromSlice _ := .error "no indexes"

def epochEnv : SnapshotEnv :=
  { json := nullDocuments, snapshot := epochSnapshotJson, sha256 := sha256 }

/-!
## Writing snapshots

`snapshot/writer.rs`.  `create_snapshot` walks the collections of a persistent layer and writes the
documents of each.  A collection whose scan fails is written as an empty one.
-/

/-- `write_header`.  `padded[..header_json.len()]` panics when the JSON is longer than the
padding. -/
def writeHeader (header : SnapshotHeader) : Outcome SnapshotError Bytes :=
  match env.snapshot.headerToVec (header.sealed env) with
  | .error e => .error (.serializationError e)
  | .ok headerJson =>
    if 256 < headerJson.length then .crashed
    else .ok (headerJson ++ List.replicate (256 - headerJson.length) 0)

/-- The writer of a record around the outcome of a serialisation. -/
def writeRecord (json : Except String Bytes) : Except SnapshotError Bytes :=
  match json with
  | .error e => .error (.serializationError e)
  | .ok json => .ok (snapshotRecord json)

def writeMetadata (metadata : SnapshotMetadata) : Except SnapshotError Bytes :=
  writeRecord (env.snapshot.metadataToVec metadata)

def writeCollectionHeader (header : CollectionHeader) : Except SnapshotError Bytes :=
  writeRecord (env.snapshot.collectionToVec header)

def writeDocument (doc : Document) : Except SnapshotError Bytes :=
  writeRecord (env.json.toVec doc.id doc.fields)

/-- `for doc in &documents { writer.write_document(doc)?; }`. -/
def writeDocuments : List Document → Except SnapshotError Bytes
  | [] => .ok []
  | doc :: docs =>
    match writeDocument env doc with
    | .error e => .error e
    | .ok bytes =>
      match writeDocuments docs with
      | .error e => .error e
      | .ok rest => .ok (bytes ++ rest)

/-- `scan_collection(collection_name).unwrap_or_default()`. -/
def scanOrDefault (now : DateTime) (layer : PersistentLayer) (collection : String) :
    List Document :=
  match layer.scanCollection env.json now collection with
  | .error _ => []
  | .ok documents => documents

def collectionHeader (name : String) (documentCount : Nat) : CollectionHeader :=
  { name := name, schemaJson := "\x7b\x7d", documentCount := documentCount, indexCount := 0 }

def writeCollection (now : DateTime) (layer : PersistentLayer) (name : String) :
    Except SnapshotError Bytes :=
  let documents := scanOrDefault env now layer name
  match writeCollectionHeader env (collectionHeader name documents.length) with
  | .error e => .error e
  | .ok header =>
    match writeDocuments env documents with
    | .error e => .error e
    | .ok bytes => .ok (header ++ bytes)

def writeCollections (now : DateTime) (layer : PersistentLayer) :
    List String → Except SnapshotError Bytes
  | [] => .ok []
  | name :: names =>
    match writeCollection env now layer name with
    | .error e => .error e
    | .ok bytes =>
      match writeCollections now layer names with
      | .error e => .error e
      | .ok rest => .ok (bytes ++ rest)

def snapshotMetadata (names : List String) : SnapshotMetadata :=
  { collectionsCount := names.length % 2 ^ 32, usersCount := 0, config := "\x7b\x7d" }

/-- `create_snapshot`: the contents of the file it writes. -/
def createSnapshot (now : DateTime) (layer : PersistentLayer) (walSequence : Nat) :
    Outcome SnapshotError Bytes :=
  match writeHeader env (SnapshotHeader.new now walSequence) with
  | .crashed => .crashed
  | .error e => .error e
  | .ok header =>
    let collectionNames := layer.listCollections
    match writeMetadata env (snapshotMetadata collectionNames) with
    | .error e => .error e
    | .ok metadata =>
      match writeCollections env now layer collectionNames with
      | .error e => .error e
      | .ok collections =>
        let content := header ++ (metadata ++ collections)
        .ok (content ++ snapshotFooter env content)

end VedDb
