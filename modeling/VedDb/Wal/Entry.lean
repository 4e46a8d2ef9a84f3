import Mathlib.Data.List.Basic
import VedDb.Schema

/-!
# Write-ahead log entries

`wal/entry.rs` and the frame layout of `WalWriter::serialize_entry`.  An entry is logged as

    length (4, little-endian) | entry JSON | checksum (4, little-endian)

where the checksum is the CRC32 of the entry's JSON with its checksum field set to zero.
`serde_json` and `crc32fast` are outside the repository: they enter as a `WalCodec`.
-/

namespace VedDb

open LittleEndian

/-- `Operation`.  A logged insert carries the identifier and the fields of its document: the
metadata is `#[serde(skip)]` and no consumer of the log reads it. -/
inductive Operation where
  | insert (collection : String) (id : DocumentId) (fields : Fields)
  | update (collection : String) (id : DocumentId) (changes : Fields)
  | delete (collection : String) (id : DocumentId)
  | createCollection (name : String) (schema : Schema)
  | dropCollection (name : String)
  | createIndex (collection : String) (index : IndexDefinition)
  | dropIndex (collection : String) (indexName : String)

structure WalEntry where
  sequence : Nat
  timestamp : DateTime
  operation : Operation
  checksum : UInt32

/-- `WalEntry::new`: the checksum is filled in later. -/
def WalEntry.new (sequence : Nat) (now : DateTime) (operation : Operation) : WalEntry :=
  { sequence := sequence, timestamp := now, operation := operation, checksum := 0 }

/-- The I/O failures the log code distinguishes. -/
inductive IoErrorKind where
  | unexpectedEof
  | invalidData
  | other
  deriving DecidableEq

inductive WalError where
  | ioError (kind : IoErrorKind)
  | serializationError (message : String)
  | deserializationError (message : String)
  | checksumMismatch (expected actual : UInt32)
  | corruptedEntry (sequence : Nat)
  | fileNotFound (path : String)
  | invalidFormat
  deriving DecidableEq

/-- `serde_json::to_vec`, `serde_json::from_slice` and `crc32fast::hash` on log entries. -/
structure WalCodec where
  toVec : WalEntry → Except String Bytes
  fromSlice : Bytes → Except String WalEntry
  crc32 : Bytes → UInt32

namespace WalCodec

variable (codec : WalCodec)

/-- `WalEntry::compute_checksum`: hash a copy whose checksum field is zero. -/
def computeChecksum (entry : WalEntry) : Except WalError UInt32 :=
  match codec.toVec { entry with checksum := 0 } with
  | .error e => .error (.serializationError e)
  | .ok bytes => .ok (codec.crc32 bytes)

def verifyChecksum (entry : WalEntry) : Except WalError Bool :=
  match codec.computeChecksum entry with
  | .error e => .error e
  | .ok computed => .ok (computed == entry.checksum)

/-- The frame around a serialised entry; `as u32` keeps the low 32 bits of the length. -/
def frame (entryJson : Bytes) (checksum : UInt32) : Bytes :=
  leBytes 4 entryJson.length ++ entryJson ++ leBytes 4 checksum.toNat

def serializeEntry (entry : WalEntry) : Except WalError Bytes :=
  match codec.toVec entry with
  | .error e => .error (.serializationError e)
  | .ok entryJson => .ok (frame entryJson entry.checksum)

/-- `serde_json` reproduces the entry it wrote. -/
def RoundTrips (entry : WalEntry) : Prop :=
  ∃ entryJson, codec.toVec entry = .ok entryJson ∧ codec.fromSlice entryJson = .ok entry

/-- `bytes` is a frame the reader turns back into `entry`: it holds the entry's JSON, short enough
for its length field, and the checksum that JSON hashes to. -/
structure Frames (entry : WalEntry) (bytes : Bytes) : Prop where
  exists_json : ∃ entryJson, codec.toVec entry = .ok entryJson ∧
    codec.fromSlice entryJson = .ok entry ∧ entryJson.length < 2 ^ 32 ∧
    bytes = frame entryJson entry.checksum
  sealed : codec.verifyChecksum entry = .ok true

end WalCodec

@[simp] theorem WalCodec.frame_length (entryJson : Bytes) (checksum : UInt32) :
    (WalCodec.frame entryJson checksum).length = entryJson.length + 8 := by
  simp only [WalCodec.frame, List.length_append, leBytes_length]
  omega

-- The checksum of an entry does not depend on what its checksum field holds.
theorem WalCodec.computeChecksum_checksum (codec : WalCodec) (entry : WalEntry) (c : UInt32) :
    codec.computeChecksum { entry with checksum := c } = codec.computeChecksum entry := rfl

-- What `serialize_entry` writes for an entry with a verifying checksum is its frame.
theorem WalCodec.frames_of_serializeEntry {codec : WalCodec} {entry : WalEntry} {bytes : Bytes}
    (hround : codec.RoundTrips entry) (hsealed : codec.verifyChecksum entry = .ok true)
    (hbytes : codec.serializeEntry entry = .ok bytes) (hsize : bytes.length < 2 ^ 32) :
    codec.Frames entry bytes := by
  obtain ⟨entryJson, hto, hfrom⟩ := hround
  have hframe : bytes = WalCodec.frame entryJson entry.checksum := by
    simpa [WalCodec.serializeEntry, hto] using hbytes.symm
  refine ⟨⟨entryJson, hto, hfrom, ?_, hframe⟩, hsealed⟩
  rw [hframe, WalCodec.frame_length] at hsize
  omega

theorem WalCodec.Frames.length_pos {codec : WalCodec} {entry : WalEntry} {bytes : Bytes}
    (h : codec.Frames entry bytes) : 8 ≤ bytes.length := by
  obtain ⟨entryJson, -, -, -, rfl⟩ := h.exists_json
  rw [WalCodec.frame_length]
  omega

/-! ## A concrete codec

The JSON `serde_json` writes for an entry that drops a collection (logged at the epoch, under a
name that needs no escape) and the CRC32 of `crc32fast`.  The closed runs of the log modules use
it in place of the abstract codec. -/

def crc32Bits : Nat → Nat → Nat
  | 0, c => c
  | n + 1, c => crc32Bits n (if c % 2 = 1 then (c / 2) ^^^ 0xEDB88320 else c / 2)

def crc32 (bytes : Bytes) : UInt32 :=
  UInt32.ofNat (bytes.foldl (fun c b => crc32Bits 8 (c ^^^ b.toNat)) 0xFFFFFFFF ^^^ 0xFFFFFFFF)

-- The check value of the CRC-32 catalogue.
example : crc32 (utf8 "123456789") = 0xCBF43926 := by decide +kernel

def decimal (n : Nat) : Bytes := asciiBytes (Nat.toDigits 10 n)

def dropHead : Bytes := utf8 "\x7b\"sequence\":"

def dropMiddle : Bytes :=
  utf8 (",\"timestamp\":\"1970-01-01T00:00:00Z\"," ++
    "\"operation\":\x7b\"DropCollection\":\x7b\"name\":\"")

def dropTail : Bytes := utf8 "\"\x7d\x7d,\"checksum\":"

def dropJson (sequence : Nat) (name : String) (checksum : UInt32) : Bytes :=
  dropHead ++ (decimal sequence ++ (dropMiddle ++ (utf8 name ++ (dropTail ++
    (decimal checksum.toNat ++ utf8 "\x7d")))))

def stripPrefix? (p bs : Bytes) : Option Bytes :=
  if p.isPrefixOf bs then some (bs.drop p.length) else none

def isDigit (b : UInt8) : Bool := 48 ≤ b.toNat && b.toNat ≤ 57

def decimal? (bs : Bytes) : Option (Nat × Bytes) :=
  let digits := bs.takeWhile isDigit
  if digits = [] then none
  else some (digits.foldl (fun n b => 10 * n + (b.toNat - 48)) 0, bs.drop digits.length)

def parseDropJson (bs : Bytes) : Option (Nat × String × UInt32) := do
  let rest ← stripPrefix? dropHead bs
  let (sequence, rest) ← decimal? rest
  let rest ← stripPrefix? dropMiddle rest
  let name := rest.takeWhile (· ≠ 34)
  let rest ← stripPrefix? dropTail (rest.drop name.length)
  let (checksum, rest) ← decimal? rest
  if rest = utf8 "\x7d" ∧ checksum < 2 ^ 32 then
    some (sequence, String.ofList (asciiChars name), UInt32.ofNat checksum)
  else none

def dropCodec : WalCodec where
  toVec entry :=
    match entry.operation with
    | .dropCollection name =>
      if entry.timestamp = 0 then .ok (dropJson entry.sequence name entry.checksum)
      else .error "not at the epoch"
    | _ => .error "not a dropped collection"
  fromSlice bytes :=
    match parseDropJson bytes with
    | some (sequence, name, checksum) =>
      .ok { sequence := sequence, timestamp := 0, operation := .dropCollection name,
            checksum := checksum }
    | none => .error "expected a dropped collection"
  crc32 := crc32

theorem stripPrefix?_append (p rest : Bytes) : stripPrefix? p (p ++ rest) = some rest := by
  unfold stripPrefix?
  rw [if_pos (by simp), List.drop_left]

theorem decimal?_append (n : Nat) {rest : Bytes} (h : rest.takeWhile isDigit = []) :
    decimal? (decimal n ++ rest) = some (n, rest) := by
  have hchar (c : Char) (hc : c ∈ Nat.toDigits 10 n) : 48 ≤ c.toNat ∧ c.toNat ≤ 57 := by
    have hdigit := Nat.isDigit_of_mem_toDigits (by decide) (by decide) hc
    simpa [Char.isDigit, UInt32.le_iff_toNat_le] using hdigit
  have hbyte (c : Char) (hc : c ∈ Nat.toDigits 10 n) :
      (UInt8.ofNat c.toNat).toNat = c.toNat := by
    have := hchar c hc
    simp only [UInt8.toNat_ofNat', Nat.reducePow]
    omega
  have htake : (decimal n ++ rest).takeWhile isDigit = decimal n := by
    rw [List.takeWhile_append_of_pos, h, List.append_nil]
    intro b hb
    obtain ⟨c, hc, rfl⟩ := List.mem_map.mp hb
    simp only [isDigit, hbyte c hc]
    simpa using hchar c hc
  have hvalue : (decimal n).foldl (fun n b => 10 * n + (b.toNat - 48)) 0 = n := by
    conv_rhs => rw [← Nat.ofDigitChars_ten_toDigits (n := n), Nat.ofDigitChars_eq_foldl]
    rw [decimal, asciiBytes, List.foldl_map]
    apply List.foldl_ext
    intro m c hc
    rw [hbyte c hc]
    rfl
  have hne : decimal n ≠ [] := by
    simp [decimal, asciiBytes, Nat.toDigits_ne_nil]
  simp only [decimal?, htake, if_neg hne, hvalue, List.drop_left]

theorem decimal_length_le {n k : Nat} (hk : 0 < k) (h : n < 10 ^ k) : (decimal n).length ≤ k := by
  rw [decimal, asciiBytes, List.length_map]
  exact (Nat.length_toDigits_le_iff (by decide) hk).mpr h

theorem dropJson_users_length {sequence : Nat} (h : sequence < 2 ^ 64) (checksum : UInt32) :
    0 < (dropJson sequence "users" checksum).length ∧
      (dropJson sequence "users" checksum).length < 256 := by
  have hseq : (decimal sequence).length ≤ 20 := decimal_length_le (by decide) (h.trans (by decide))
  have hsum : (decimal checksum.toNat).length ≤ 10 :=
    decimal_length_le (by decide) (checksum.toNat_lt.trans (by decide))
  have hfixed : dropHead.length + dropMiddle.length + (utf8 "users").length + dropTail.length +
      (utf8 "\x7d").length = 108 := by
    decide
  simp only [dropJson, List.length_append]
  omega

-- Every entry that drops the collection `users` is read back as written.
theorem parseDropJson_users (sequence : Nat) (checksum : UInt32) :
    parseDropJson (dropJson sequence "users" checksum) = some (sequence, "users", checksum) := by
  have hname : (utf8 "users" ++ (dropTail ++ (decimal checksum.toNat ++ utf8 "\x7d"))).takeWhile
      (· ≠ 34) = utf8 "users" := by
    have hbytes : utf8 "users" = [117, 115, 101, 114, 115] := by decide +kernel
    rw [hbytes]
    rfl
  have hsequence (rest : Bytes) :
      decimal? (decimal sequence ++ (dropMiddle ++ rest)) = some (sequence, dropMiddle ++ rest) :=
    decimal?_append sequence rfl
  have hchecksum : decimal? (decimal checksum.toNat ++ utf8 "\x7d") =
      some (checksum.toNat, utf8 "\x7d") :=
    decimal?_append checksum.toNat rfl
  simp only [parseDropJson, dropJson, stripPrefix?_append, Option.bind_eq_bind, Option.bind_some,
    hsequence, hname, List.drop_left, hchecksum]
  rw [if_pos ⟨trivial, checksum.toNat_lt⟩, UInt32.ofNat_toNat]
  rfl

/-- The sealed entry that drops the collection `users` under a given sequence number. -/
def droppedUsers (sequence : Nat) : WalEntry :=
  { sequence := sequence, timestamp := 0, operation := .dropCollection "users",
    checksum := crc32 (dropJson sequence "users" 0) }

theorem dropCodec_fromSlice {bytes : Bytes} {sequence : Nat} {name : String} {checksum : UInt32}
    (h : parseDropJson bytes = some (sequence, name, checksum)) :
    dropCodec.fromSlice bytes =
      .ok { sequence := sequence, timestamp := 0, operation := .dropCollection name,
            checksum := checksum } := by
  simp only [dropCodec, h]

-- The concrete codec reads back the entries that drop the collection `users`.
theorem dropCodec_roundTrips (sequence : Nat) : dropCodec.RoundTrips (droppedUsers sequence) :=
  ⟨dropJson sequence "users" (droppedUsers sequence).checksum, rfl,
    dropCodec_fromSlice (parseDropJson_users _ _)⟩

theorem dropCodec_sealed (sequence : Nat) :
    dropCodec.verifyChecksum (droppedUsers sequence) = .ok true := by
  simp [WalCodec.verifyChecksum, WalCodec.computeChecksum, dropCodec, droppedUsers]

/-- The frame of the entry that drops `users`. -/
def droppedFrame (sequence : Nat) : Bytes :=
  WalCodec.frame (dropJson sequence "users" (droppedUsers sequence).checksum)
    (droppedUsers sequence).checksum

theorem dropCodec_frames {sequence : Nat} (h : sequence < 2 ^ 64) :
    dropCodec.Frames (droppedUsers sequence) (droppedFrame sequence) := by
  have hlen := (dropJson_users_length h (droppedUsers sequence).checksum).2
  exact ⟨⟨_, rfl, dropCodec_fromSlice (parseDropJson_users _ _), hlen.trans (by decide), rfl⟩,
    dropCodec_sealed sequence⟩

end VedDb
