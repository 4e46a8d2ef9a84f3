import Mathlib.Tactic.Common
import VedDb.Lib.LittleEndian
import VedDb.Lib.Lookups

/-!
# Documents and values

The data model of `document.rs`.  A document is an identifier, an ordered map of fields and a
metadata record.  The metadata is `#[serde(skip)]`: it is rebuilt with defaults whenever a document
is decoded, so nothing that goes through JSON (the log, the store, a snapshot) carries it.
-/

namespace VedDb

open LittleEndian (Bytes)

/-- An instant in UTC, in nanoseconds since the epoch. -/
abbrev DateTime := Int

def utf8 (s : String) : Bytes := s.toUTF8.data.toList

/-- The bytes of a text of ASCII characters. -/
def asciiBytes (cs : List Char) : Bytes := cs.map fun c => UInt8.ofNat c.toNat

def asciiChars (bs : Bytes) : List Char := bs.map fun b => Char.ofNat b.toNat

theorem asciiChars_asciiBytes {cs : List Char} (h : ∀ c ∈ cs, c.toNat < 128) :
    asciiChars (asciiBytes cs) = cs := by
  unfold asciiChars asciiBytes
  rw [List.map_map]
  conv_rhs => rw [← List.map_id cs]
  apply List.map_congr_left
  intro c hc
  have hmod : c.toNat % 256 = c.toNat := Nat.mod_eq_of_lt (by have := h c hc; omega)
  simp only [Function.comp_apply, UInt8.toNat_ofNat', Nat.reducePow, hmod, Char.ofNat_toNat, id]

/-- The bit pattern of an IEEE-754 double; no arithmetic is assumed of it here. -/
structure F64 where
  bits : UInt64
  deriving DecidableEq

/-- `ObjectId([u8; 12])`. -/
structure ObjectId where
  bytes : Bytes
  length_eq : bytes.length = 12
  deriving DecidableEq

/-! ## Identifiers -/

/-- `DocumentId(Uuid)`: the 128 bits of the UUID. -/
structure DocumentId where
  uuid : BitVec 128
  deriving DecidableEq

def hexDigit (n : Nat) : Char :=
  if n < 10 then Char.ofNat (48 + n) else Char.ofNat (87 + n)

/-- The `w` low-order hexadecimal digits of `n`, most significant first. -/
def hexChars : Nat → Nat → List Char
  | 0, _ => []
  | w + 1, n => hexChars w (n / 16) ++ [hexDigit (n % 16)]

/-- `Display for Uuid`: lower-case hexadecimal in groups of 8, 4, 4, 4 and 12 digits. -/
def DocumentId.toChars (id : DocumentId) : List Char :=
  let hex := hexChars 32 id.uuid.toNat
  hex.take 8 ++ '-' :: (hex.drop 8).take 4 ++ '-' :: (hex.drop 12).take 4 ++
    '-' :: (hex.drop 16).take 4 ++ '-' :: hex.drop 20

def DocumentId.toString (id : DocumentId) : String := String.ofList id.toChars

/-! ### Reading a printed identifier back -/

def hexValue (c : Char) : Nat := if c.toNat < 58 then c.toNat - 48 else c.toNat - 87

def ofHexChars (cs : List Char) : Nat := cs.foldl (fun n c => 16 * n + hexValue c) 0

def DocumentId.ofChars (cs : List Char) : DocumentId :=
  ⟨BitVec.ofNat 128 (ofHexChars (cs.filter (· ≠ '-')))⟩

theorem hexValue_hexDigit : ∀ n < 16, hexValue (hexDigit n) = n := by
  decide

theorem hexDigit_ne_of_lt : ∀ n < 16,
    hexDigit n ≠ '-' ∧ hexDigit n ≠ ':' ∧ (hexDigit n).toNat < 128 := by
  decide

@[simp] theorem hexChars_length (w n : Nat) : (hexChars w n).length = w := by
  induction w generalizing n with
  | zero => rfl
  | succ w ih => simp [hexChars, ih]

theorem hexChars_mem {w n : Nat} {c : Char} (h : c ∈ hexChars w n) :
    c ≠ '-' ∧ c ≠ ':' ∧ c.toNat < 128 := by
  induction w generalizing n with
  | zero => simp [hexChars] at h
  | succ w ih =>
    rcases List.mem_append.mp h with h | h
    · exact ih h
    · rw [List.mem_singleton] at h
      rw [h]
      exact hexDigit_ne_of_lt _ (Nat.mod_lt _ (by decide))

theorem ofHexChars_hexChars {w n : Nat} (h : n < 16 ^ w) : ofHexChars (hexChars w n) = n := by
  induction w generalizing n with
  | zero =>
    rw [Nat.pow_zero] at h
    rw [Nat.lt_one_iff.mp h]
    rfl
  | succ w ih =>
    have hhi : n / 16 < 16 ^ w := by
      rw [Nat.div_lt_iff_lt_mul (by decide)]
      simpa [Nat.pow_succ] using h
    have hlo : hexValue (hexDigit (n % 16)) = n % 16 :=
      hexValue_hexDigit _ (Nat.mod_lt _ (by decide))
    have hread : ofHexChars (hexChars (w + 1) n) =
        16 * ofHexChars (hexChars w (n / 16)) + hexValue (hexDigit (n % 16)) := by
      simp only [ofHexChars, hexChars, List.foldl_append, List.foldl_cons, List.foldl_nil]
    rw [hread, ih hhi, hlo]
    omega

-- Dropping the hyphens of the printed form leaves the 32 digits.
theorem DocumentId.toChars_filter (id : DocumentId) :
    id.toChars.filter (· ≠ '-') = hexChars 32 id.uuid.toNat := by
  have hkeep : (hexChars 32 id.uuid.toNat).filter (· ≠ '-') = hexChars 32 id.uuid.toNat := by
    apply List.filter_eq_self.mpr
    intro c hc
    simpa using (hexChars_mem hc).1
  have hjoin (l : List Char) :
      l.take 8 ++ ((l.drop 8).take 4 ++ ((l.drop 12).take 4 ++
        ((l.drop 16).take 4 ++ l.drop 20))) = l := by
    rw [show l.drop 20 = (l.drop 16).drop 4 by rw [List.drop_drop], List.take_append_drop,
      show l.drop 16 = (l.drop 12).drop 4 by rw [List.drop_drop], List.take_append_drop,
      show l.drop 12 = (l.drop 8).drop 4 by rw [List.drop_drop], List.take_append_drop,
      List.take_append_drop]
  conv_rhs => rw [← hkeep, ← hjoin (hexChars 32 id.uuid.toNat)]
  simp [DocumentId.toChars]

theorem DocumentId.ofChars_toChars (id : DocumentId) : DocumentId.ofChars id.toChars = id := by
  unfold DocumentId.ofChars
  rw [DocumentId.toChars_filter, ofHexChars_hexChars (w := 32) id.uuid.isLt]
  exact congrArg DocumentId.mk (BitVec.ofNat_toNat 128 id.uuid |>.trans (BitVec.setWidth_eq _))

/-! ## Values -/

/-- `Value`.  The object payload is the sorted entry list of the `BTreeMap`. -/
inductive Value where
  | null
  | bool (b : Bool)
  | int32 (i : Int32)
  | int64 (i : Int64)
  | float64 (f : F64)
  | string (s : String)
  | binary (b : Bytes)
  | array (vs : List Value)
  | object (kvs : List (String × Value))
  | objectId (o : ObjectId)
  | dateTime (t : DateTime)

mutual

def Value.sizeBytes : Value → Nat
  | .null => 1
  | .bool _ => 1
  | .int32 _ => 4
  | .int64 _ => 8
  | .float64 _ => 8
  | .string s => s.utf8ByteSize
  | .binary b => b.length
  | .array vs => Value.sizeBytesArray vs + 8
  | .object kvs => Value.sizeBytesObject kvs + 8
  | .objectId _ => 12
  | .dateTime _ => 8

def Value.sizeBytesArray : List Value → Nat
  | [] => 0
  | v :: vs => v.sizeBytes + Value.sizeBytesArray vs

def Value.sizeBytesObject : List (String × Value) → Nat
  | [] => 0
  | (k, v) :: kvs => k.utf8ByteSize + v.sizeBytes + Value.sizeBytesObject kvs

end

/-! ## Documents -/

/-- `BTreeMap<String, Value>`. -/
abbrev Fields := Std.ExtTreeMap String Value

structure DocumentMetadata where
  version : Nat
  createdAt : DateTime
  updatedAt : DateTime
  sizeBytes : Nat
  deriving DecidableEq

/-- `DocumentMetadata::default`, at the instant the clock shows. -/
def DocumentMetadata.default (now : DateTime) : DocumentMetadata :=
  { version := 1, createdAt := now, updatedAt := now, sizeBytes := 0 }

structure Document where
  id : DocumentId
  fields : Fields
  metadata : DocumentMetadata

def Document.updateMetadata (now : DateTime) (d : Document) : Document :=
  { d with metadata := { d.metadata with
      sizeBytes := Value.sizeBytesObject d.fields.toList
      updatedAt := now
      version := d.metadata.version + 1 } }

def Document.insert (now : DateTime) (d : Document) (key : String) (value : Value) : Document :=
  Document.updateMetadata now { d with fields := d.fields.insert key value }

@[simp] theorem Document.insert_id (now : DateTime) (d : Document) (k : String) (v : Value) :
    (d.insert now k v).id = d.id := rfl

@[simp] theorem Document.insert_fields (now : DateTime) (d : Document) (k : String) (v : Value) :
    (d.insert now k v).fields = d.fields.insert k v := rfl

end VedDb
