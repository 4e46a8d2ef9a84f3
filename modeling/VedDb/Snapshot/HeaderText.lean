import VedDb.Lib.Rfc3339
import VedDb.Snapshot.Written

/-!
# The text of a snapshot header

The JSON of a header as `serde_json` writes it, in which the numbers take as many bytes as they have
digits.  It is put into 256 bytes, where it fits with some timestamps, sequences and digests only.
-/

namespace VedDb

open LittleEndian (Bytes)
open Durable (Outcome)

def byteList (bytes : List UInt8) : Bytes :=
  utf8 "[" ++ (List.intersperse [44] (bytes.map fun b => decimalBytes b.toNat)).flatten ++ utf8 "]"

/-- `serde_json::to_vec` of a header. -/
def SnapshotHeader.text (header : SnapshotHeader) : Bytes :=
  utf8 "\x7b\"magic\":" ++ byteList header.magic.toList ++
    utf8 ",\"version\":" ++ decimalBytes header.version.toNat ++
    utf8 ",\"timestamp\":\"" ++ Rfc3339.text header.timestamp ++
    utf8 "\",\"sequence\":" ++ decimalBytes header.sequence ++
    utf8 ",\"checksum_algo\":\"SHA256\",\"checksum\":" ++ byteList header.checksum.toList ++
    utf8 "\x7d"

/-- The decimal digits of a number. -/
def digitCount (n : Nat) : Nat := (Nat.toDigits 10 n).length

def digestDigits (digest : Vector UInt8 32) : Nat :=
  (digest.toList.map fun b => digitCount b.toNat).sum

/-! ## Lengths -/

theorem length_decimalBytes (n : Nat) : (decimalBytes n).length = digitCount n := by
  rw [decimalBytes, asciiBytes, List.length_map, digitCount]

theorem length_flatten_intersperse {α : Type} (separator : α) (parts : List (List α)) :
    (List.intersperse [separator] parts).flatten.length =
      (parts.map List.length).sum + (parts.length - 1) := by
  induction parts with
  | nil => rfl
  | cons part parts ih =>
    cases parts with
    | nil => simp
    | cons next parts =>
      rw [List.intersperse_cons_cons, List.flatten_cons, List.flatten_cons, List.length_append,
        List.length_append, ih]
      simp only [List.map_cons, List.sum_cons, List.length_cons, List.length_nil]
      omega

theorem length_byteList (bytes : List UInt8) : (byteList bytes).length =
    (bytes.map fun b => digitCount b.toNat).sum + (bytes.length - 1) + 2 := by
  have hlengths : (bytes.map fun b => decimalBytes b.toNat).map List.length =
      bytes.map fun b => digitCount b.toNat := by
    rw [List.map_map]
    exact List.map_congr_left fun b _ => length_decimalBytes b.toNat
  rw [byteList, List.length_append, List.length_append, length_flatten_intersperse, hlengths,
    List.length_map, show (utf8 "[").length = 1 by decide, show (utf8 "]").length = 1 by decide]
  omega

theorem SnapshotHeader.length_text {header : SnapshotHeader} (hmagic : header.magic = snapshotMagic)
    (hversion : header.version = snapshotVersion) :
    header.text.length = 141 + (Rfc3339.text header.timestamp).length +
      digitCount header.sequence + digestDigits header.checksum := by
  have hmagicLength : (byteList snapshotMagic.toList).length = 22 := by decide
  have hversionLength : (decimalBytes snapshotVersion.toNat).length = 1 := by decide
  have hchecksum := length_byteList header.checksum.toList
  rw [Vector.length_toList] at hchecksum
  simp only [SnapshotHeader.text, List.length_append, hmagic, hversion, hmagicLength,
    hversionLength, hchecksum, length_decimalBytes, digestDigits]
  rw [show (utf8 "\x7b\"magic\":").length = 9 by decide,
    show (utf8 ",\"version\":").length = 11 by decide,
    show (utf8 ",\"timestamp\":\"").length = 14 by decide,
    show (utf8 "\",\"sequence\":").length = 13 by decide,
    show (utf8 ",\"checksum_algo\":\"SHA256\",\"checksum\":").length = 37 by decide,
    show (utf8 "\x7d").length = 1 by decide]
  omega

/-! ## Characters -/

theorem visible_decimalBytes (n : Nat) : Rfc3339.Visible (decimalBytes n) := by
  intro b hb
  obtain ⟨c, hc, rfl⟩ := List.mem_map.mp hb
  obtain ⟨hlow, hhigh⟩ : 48 ≤ c.toNat ∧ c.toNat ≤ 57 :=
    Char.isDigit_iff_toNat.mp (Nat.isDigit_of_mem_toDigits (by decide) (by decide) hc)
  rw [UInt8.toNat_ofNat', Nat.mod_eq_of_lt (by omega)]
  omega

theorem visible_flatten_intersperse {separator : UInt8} (hseparator : 32 < separator.toNat) :
    ∀ parts : List Bytes, (∀ part ∈ parts, Rfc3339.Visible part) →
      Rfc3339.Visible (List.intersperse [separator] parts).flatten
  | [], _ => List.forall_mem_nil _
  | [part], h => by
      rw [List.intersperse_singleton, List.flatten_singleton]
      exact h part List.mem_cons_self
  | part :: next :: parts, h => by
      obtain ⟨hpart, hparts⟩ := List.forall_mem_cons.mp h
      rw [List.intersperse_cons_cons, List.flatten_cons, List.flatten_cons]
      exact hpart.append ((Rfc3339.visible_cons hseparator (List.forall_mem_nil _)).append
        (visible_flatten_intersperse hseparator (next :: parts) hparts))

instance (bytes : Bytes) : Decidable (Rfc3339.Visible bytes) :=
  decidable_of_iff (bytes.all (32 < ·.toNat) = true) (by simp [Rfc3339.Visible])

theorem visible_byteList (bytes : List UInt8) : Rfc3339.Visible (byteList bytes) := by
  have hparts : ∀ part ∈ bytes.map fun b => decimalBytes b.toNat, Rfc3339.Visible part := by
    intro part hpart
    obtain ⟨b, -, rfl⟩ := List.mem_map.mp hpart
    exact visible_decimalBytes b.toNat
  have hopen : Rfc3339.Visible (utf8 "[") := by decide
  have hclose : Rfc3339.Visible (utf8 "]") := by decide
  exact (hopen.append (visible_flatten_intersperse (by decide) _ hparts)).append hclose

/-- The padding is not part of a header's text. -/
theorem SnapshotHeader.zero_notMem_text (header : SnapshotHeader) : 0 ∉ header.text := by
  have hvisible : Rfc3339.Visible header.text := by
    have hmagic : Rfc3339.Visible (utf8 "\x7b\"magic\":") := by decide
    have hversion : Rfc3339.Visible (utf8 ",\"version\":") := by decide
    have htimestamp : Rfc3339.Visible (utf8 ",\"timestamp\":\"") := by decide
    have hsequence : Rfc3339.Visible (utf8 "\",\"sequence\":") := by decide
    have hchecksum : Rfc3339.Visible (utf8 ",\"checksum_algo\":\"SHA256\",\"checksum\":") := by
      decide
    have hend : Rfc3339.Visible (utf8 "\x7d") := by decide
    exact (((((((((hmagic.append (visible_byteList _)).append hversion).append
      (visible_decimalBytes _)).append htimestamp).append (Rfc3339.visible_text _)).append
      hsequence).append (visible_decimalBytes _)).append hchecksum).append
      (visible_byteList _)).append hend
  intro hzero
  exact absurd (hvisible 0 hzero) (by decide)

/-! ## Writing a header and reading it back -/

/-- The header of a snapshot is written to 256 bytes and read back as it was, whatever follows it,
exactly when the timestamp and the digits of the sequence and of the digest take 115 bytes at
most. -/
theorem header_codec_iff {env : SnapshotEnv} {now : DateTime} {sequence : Nat}
    (hwrite : env.snapshot.headerToVec ((SnapshotHeader.new now sequence).sealed env) =
      .ok ((SnapshotHeader.new now sequence).sealed env).text)
    (hread : env.snapshot.headerFromSlice ((SnapshotHeader.new now sequence).sealed env).text =
      .ok ((SnapshotHeader.new now sequence).sealed env)) :
    (∃ bytes, writeHeader env (.new now sequence) = .ok bytes ∧ bytes.length = 256 ∧
      ∀ rest, (SnapshotReader.ofBytes (bytes ++ rest)).readHeader env =
        .ok ((SnapshotHeader.new now sequence).sealed env, ⟨bytes, rest⟩)) ↔
    (Rfc3339.text now).length + digitCount sequence +
      digestDigits ((SnapshotHeader.new now sequence).computeChecksum env) ≤ 115 := by
  have hlength : ((SnapshotHeader.new now sequence).sealed env).text.length =
      141 + (Rfc3339.text now).length + digitCount sequence +
        digestDigits ((SnapshotHeader.new now sequence).computeChecksum env) :=
    SnapshotHeader.length_text rfl rfl
  constructor
  · rintro ⟨bytes, hbytes, -⟩
    rw [writeHeader, hwrite] at hbytes
    dsimp only at hbytes
    split at hbytes
    next => cases hbytes
    next hfits => omega
  · intro hfits
    have hlen : ((SnapshotHeader.new now sequence).sealed env).text.length ≤ 256 := by omega
    refine ⟨SnapshotReader.padded ((SnapshotHeader.new now sequence).sealed env).text, ?_,
      SnapshotReader.length_padded hlen, ?_⟩
    · rw [writeHeader, hwrite]
      exact if_neg (Nat.not_lt.mpr hlen)
    · exact SnapshotReader.readHeader_padded hread hlen (SnapshotHeader.zero_notMem_text _) rfl rfl
        (SnapshotHeader.verifyChecksum_sealed env _)

/-- At the epoch the header of a small sequence fits. -/
theorem header_codec_iff_epoch : ∃ bytes, writeHeader epochEnv (.new 0 5) = .ok bytes ∧
    bytes.length = 256 ∧ ∀ rest, (SnapshotReader.ofBytes (bytes ++ rest)).readHeader epochEnv =
      .ok ((SnapshotHeader.new 0 5).sealed epochEnv, ⟨bytes, rest⟩) :=
  (header_codec_iff (by decide +kernel) (by decide +kernel)).mpr (by decide +kernel)

def printingEnv : SnapshotEnv :=
  { epochEnv with
    snapshot := { epochSnapshotJson with headerToVec := fun header => .ok header.text } }

theorem writeHeader_printingEnv (header : SnapshotHeader) :
    writeHeader printingEnv header =
      if 256 < (header.sealed printingEnv).text.length then .crashed
      else .ok (SnapshotReader.padded (header.sealed printingEnv).text) := rfl

/-- With nanoseconds in the timestamp and a sequence of four digits there are three bytes too
many. -/
theorem writeHeader_panics :
    writeHeader printingEnv (.new 1700000000123456789 1000) = .crashed := by
  rw [writeHeader_printingEnv, SnapshotHeader.length_text rfl rfl]
  exact if_pos (by decide +kernel)

end VedDb
