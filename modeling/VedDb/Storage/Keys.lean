import VedDb.Lib.SelfDelimiting
import VedDb.Storage.Persistent

/-!
# Document keys

The keys `collection:id` of the persistent layer.  An identifier prints without a colon, so the last
colon of a key ends the name of its collection and a key determines both.  A reader that takes the
first colon instead finds the collection only when its name holds none.
-/

namespace VedDb

open LittleEndian (Bytes)

/-! ## UTF-8 -/

theorem utf8_append (s t : String) : utf8 (s ++ t) = utf8 s ++ utf8 t := by
  simp [utf8, String.toByteArray_append]

theorem utf8_injective {s t : String} (h : utf8 s = utf8 t) : s = t := by
  apply String.toByteArray_inj.mp
  apply ByteArray.ext
  exact Array.toList_inj.mp h

theorem fromUTF8?_utf8 (s : String) : String.fromUTF8? ⟨⟨utf8 s⟩⟩ = some s := by
  have hbytes : (⟨⟨utf8 s⟩⟩ : ByteArray) = s.toByteArray := rfl
  rw [hbytes]
  unfold String.fromUTF8?
  rw [dif_pos s.isValidUTF8]
  rfl

theorem utf8_of_fromUTF8? {bytes : Bytes} {s : String}
    (h : String.fromUTF8? ⟨⟨bytes⟩⟩ = some s) : utf8 s = bytes := by
  unfold String.fromUTF8? at h
  split at h
  · cases h
    rfl
  · cases h

theorem utf8_eq_flatMap (s : String) : utf8 s = s.toList.flatMap String.utf8EncodeChar := by
  rw [utf8, String.toUTF8_eq_toByteArray, ← String.utf8Encode_toList]
  simp [List.utf8Encode]

-- Only the colon is written with the byte of a colon.
theorem colon_of_mem_utf8EncodeChar {c : Char} (h : 58 ∈ String.utf8EncodeChar c) : c = ':' := by
  have hfits (n : Nat) (hn : n < 256) (h : (58 : UInt8) = UInt8.ofNat n) : n = 58 := by
    have hnat := congrArg UInt8.toNat h
    rw [UInt8.toNat_ofNat', show (58 : UInt8).toNat = 58 from rfl] at hnat
    omega
  have hhigh (n : Nat) (hlow : 0x80 ≤ n) (hn : n < 256) : (58 : UInt8) ≠ UInt8.ofNat n := by
    intro h
    have := hfits n hn h
    omega
  unfold String.utf8EncodeChar at h
  dsimp only at h
  split at h
  · next hle =>
      have hval := hfits _ (by omega) (List.mem_singleton.mp h)
      exact Char.ext (UInt32.toNat_inj.mp hval)
  · -- every byte of a longer encoding has its top bit set
    exfalso
    split at h
    · simp only [List.mem_cons, List.not_mem_nil, or_false] at h
      rcases h with h | h <;> exact hhigh _ (by omega) (by omega) h
    · split at h
      · simp only [List.mem_cons, List.not_mem_nil, or_false] at h
        rcases h with h | h | h <;> exact hhigh _ (by omega) (by omega) h
      · simp only [List.mem_cons, List.not_mem_nil, or_false] at h
        rcases h with h | h | h | h <;> exact hhigh _ (by omega) (by omega) h

theorem colon_mem_utf8 {s : String} : 58 ∈ utf8 s ↔ ':' ∈ s.toList := by
  rw [utf8_eq_flatMap, List.mem_flatMap]
  constructor
  · intro ⟨c, hc, hmem⟩
    rw [← colon_of_mem_utf8EncodeChar hmem]
    exact hc
  · intro h
    exact ⟨':', h, by decide⟩

theorem utf8_colon : utf8 ":" = [58] := by decide

-- The first character of an encoded text can be read off its bytes.
theorem utf8EncodeChar_append_inj {c d : Char} {x y : Bytes}
    (h : String.utf8EncodeChar c ++ x = String.utf8EncodeChar d ++ y) : c = d := by
  have hread (c : Char) (x : Bytes) :
      ByteArray.utf8DecodeChar? (String.utf8EncodeChar c ++ x).toByteArray 0 = some c := by
    rw [List.toByteArray_append]
    exact ByteArray.utf8DecodeChar?_utf8EncodeChar_append
  have hc := hread c x
  rw [h, hread d y] at hc
  exact (Option.some.inj hc).symm

theorem utf8_prefix_iff {s t : String} : utf8 s <+: utf8 t ↔ s.toList <+: t.toList := by
  rw [utf8_eq_flatMap, utf8_eq_flatMap]
  generalize s.toList = cs
  generalize t.toList = ds
  induction cs generalizing ds with
  | nil => simp
  | cons c cs ih =>
    cases ds with
    | nil => simp [String.utf8EncodeChar_ne_nil]
    | cons d ds =>
      rw [List.flatMap_cons, List.flatMap_cons, List.cons_prefix_cons, ← ih]
      constructor
      · intro ⟨rest, hrest⟩
        rw [List.append_assoc] at hrest
        obtain rfl := utf8EncodeChar_append_inj hrest
        exact ⟨rfl, rest, List.append_cancel_left hrest⟩
      · intro ⟨hcd, hpre⟩
        rw [hcd]
        exact (List.prefix_append_right_inj _).mpr hpre

/-! ## Identifiers and keys -/

theorem DocumentId.colon_notMem_toChars (id : DocumentId) : ':' ∉ id.toChars := by
  intro hmem
  have hkeep : ':' ∈ id.toChars.filter (· ≠ '-') := List.mem_filter.mpr ⟨hmem, by decide⟩
  rw [DocumentId.toChars_filter] at hkeep
  exact (hexChars_mem hkeep).2.1 rfl

theorem DocumentId.toString_injective {id id' : DocumentId} (h : id.toString = id'.toString) :
    id = id' := by
  have hchars : id.toChars = id'.toChars := by
    have hlist := congrArg String.toList h
    simpa [DocumentId.toString] using hlist
  rw [← id.ofChars_toChars, hchars, DocumentId.ofChars_toChars]

namespace PersistentLayer

theorem makeDocumentKey_eq (collection : String) (docId : DocumentId) :
    makeDocumentKey collection docId = utf8 collection ++ 58 :: utf8 docId.toString := by
  rw [makeDocumentKey, utf8_append, utf8_append, utf8_colon, List.append_assoc]
  rfl

theorem colon_notMem_utf8_id (docId : DocumentId) : 58 ∉ utf8 docId.toString := by
  rw [colon_mem_utf8]
  simpa [DocumentId.toString] using docId.colon_notMem_toChars

-- The identifier follows the last colon of a key, so a key determines its collection.
theorem makeDocumentKey_injective {collection collection' : String} {docId docId' : DocumentId}
    (h : makeDocumentKey collection docId = makeDocumentKey collection' docId') :
    collection = collection' ∧ docId = docId' := by
  rw [makeDocumentKey_eq, makeDocumentKey_eq] at h
  obtain ⟨hname, hid⟩ := Separated.append_cons_right_inj (colon_notMem_utf8_id docId)
    (colon_notMem_utf8_id docId') h
  exact ⟨utf8_injective hname, DocumentId.toString_injective (utf8_injective hid)⟩

/-- The keys under the name of a collection and a colon: those of the collection, and those of the
collections whose names start with that name and a colon. -/
theorem isPrefixOf_makeDocumentKey_iff {other collection : String} {docId : DocumentId} :
    (utf8 (other ++ ":")).isPrefixOf (makeDocumentKey collection docId) = true ↔
      other = collection ∨ (other ++ ":").toList <+: collection.toList := by
  rw [List.isPrefixOf_iff_prefix, utf8_append, utf8_colon, makeDocumentKey_eq,
    Separated.prefix_append_cons_iff (colon_notMem_utf8_id docId), ← utf8_colon, ← utf8_append,
    utf8_prefix_iff]
  constructor
  · intro h
    exact h.imp_left utf8_injective
  · intro h
    exact h.imp_left (congrArg utf8)

-- A key lies under a collection without a colon in its name exactly when that name is what stands
-- before the first colon of the key.
theorem isPrefixOf_makeDocumentKey {collection other : String} {docId : DocumentId}
    (hcollection : ':' ∉ collection.toList) :
    (utf8 (other ++ ":")).isPrefixOf (makeDocumentKey collection docId) = true ↔
      other = collection := by
  rw [isPrefixOf_makeDocumentKey_iff]
  constructor
  · intro h
    apply h.resolve_right
    intro hpre
    have hmem : ':' ∈ (other ++ ":").toList := by simp
    exact hcollection (hpre.subset hmem)
  · intro h
    exact .inl h

end PersistentLayer

end VedDb
