import Mathlib.Data.Fintype.Prod
import VedDb.Kv.Entries

/-!
# The hash table refines a versioned map

One step of a table among several that share an arena, and the runs of one table.  The arena is
assumed to serve the calls that are made of it: what it allocates is not at offset 0 and apart from
the blocks of the other live entries, and its own bookkeeping does not touch these.
-/

namespace VedDb

open LittleEndian (Bytes)
open Probing (Slot search stops)

namespace HashTable

variable {bits : Fin 64} {β σ : Type} (A : Arena β) (digest : Bytes → UInt64)
  (route : Bytes → σ) (tables : σ → HashTable bits)

/-! ## Tables that share an arena -/

def entriesOf (place : σ × Fin (2 ^ bits.val)) : Entry := (tables place.1).entries place.2

def nextIn (place : σ × Fin (2 ^ bits.val)) : σ × Fin (2 ^ bits.val) :=
  (place.1, nextPosition place.2)

/-- Each key has its table, and its home in that table. -/
def homeIn (bits : Fin 64) (key : Bytes) : σ × Fin (2 ^ bits.val) :=
  (route key, position bits (hashKey digest key))

abbrev TablesHold (memory : Memory UInt8) (map : VersionedMap Bytes Bytes) : Prop :=
  Holds nextIn (homeIn digest route bits) digest (entriesOf tables) memory map

/-! ## What is asked of the arena -/

section

variable {ι : Type} (entries : ι → Entry) (i : ι) (arena : ArenaState β) (size : Nat)

def FreeServes : Prop :=
  KeepsEntries entries (· = i) arena.memory
    (A.free arena (entries i).dataOffset (entries i).dataSize).memory

def AllocateServes (besides : ι → Prop) : Prop :=
  (A.allocate arena size 8).1 ≠ 0 ∧
    KeepsEntries entries besides arena.memory (A.allocate arena size 8).2.memory ∧
    ∀ j, ¬besides j → (entries j).Live →
      ({ offset := (A.allocate arena size 8).1.toNat, length := size } : Block).Apart
        (entries j).block

def ResizeServes : Prop :=
  (entries i).dataSize < size →
    FreeServes A entries i arena ∧
      AllocateServes A entries (A.free arena (entries i).dataOffset (entries i).dataSize) size
        (· = i)

end

/-- The arena serves the calls that a step makes of it. -/
def Serves (arena : ArenaState β) : Call → Prop
  | .insert key value =>
    match (tables (route key)).findEntry arena.memory key (hashKey digest key) with
    | none => True
    | some (index, true) =>
      ResizeServes A (entriesOf tables) (route key, index) arena (key.length + value.length)
    | some (_, false) =>
      AllocateServes A (entriesOf tables) arena (key.length + value.length) fun _ => False
  | .get _ => True
  | .remove key =>
    match (tables (route key)).findEntry arena.memory key (hashKey digest key) with
    | some (index, true) => FreeServes A (entriesOf tables) (route key, index) arena
    | _ => True
  | .cas key expectedVersion newValue =>
    match (tables (route key)).findEntry arena.memory key (hashKey digest key) with
    | some (index, true) =>
      ((tables (route key)).entries index).version = expectedVersion →
        ResizeServes A (entriesOf tables) (route key, index) arena
          (((tables (route key)).entries index).keyLen.toNat + newValue.length)
    | _ => True

section

variable {A digest route tables} {ι : Type} [Fintype ι] [DecidableEq ι] {entries : ι → Entry}

instance {besides : ι → Prop} [DecidablePred besides] {memory memory' : Memory UInt8} :
    Decidable (KeepsEntries entries besides memory memory') :=
  inferInstanceAs (Decidable (∀ _, _))

instance {i : ι} {arena : ArenaState β} : Decidable (FreeServes A entries i arena) :=
  inferInstanceAs (Decidable (KeepsEntries entries (· = i) _ _))

instance {besides : ι → Prop} [DecidablePred besides] {arena : ArenaState β} {size : Nat} :
    Decidable (AllocateServes A entries arena size besides) :=
  inferInstanceAs (Decidable (_ ∧ _ ∧ ∀ _, _))

instance {i : ι} {arena : ArenaState β} {size : Nat} :
    Decidable (ResizeServes A entries i arena size) :=
  inferInstanceAs (Decidable (_ → _ ∧ _))

instance [Fintype σ] [DecidableEq σ] {arena : ArenaState β} :
    (call : Call) → Decidable (Serves A digest route tables arena call)
  | .insert key value =>
    match h : (tables (route key)).findEntry arena.memory key (hashKey digest key) with
    | none => .isTrue (by rw [Serves, h]; trivial)
    | some (index, true) =>
      decidable_of_iff (ResizeServes A (entriesOf tables) (route key, index) arena
        (key.length + value.length)) (by rw [Serves, h])
    | some (_, false) =>
      decidable_of_iff (AllocateServes A (entriesOf tables) arena
        (key.length + value.length) fun _ => False) (by rw [Serves, h])
  | .get _ => .isTrue trivial
  | .remove key =>
    match h : (tables (route key)).findEntry arena.memory key (hashKey digest key) with
    | none => .isTrue (by rw [Serves, h]; trivial)
    | some (index, true) =>
      decidable_of_iff (FreeServes A (entriesOf tables) (route key, index) arena)
        (by rw [Serves, h])
    | some (_, false) => .isTrue (by rw [Serves, h]; trivial)
  | .cas key expectedVersion newValue =>
    match h : (tables (route key)).findEntry arena.memory key (hashKey digest key) with
    | none => .isTrue (by rw [Serves, h]; trivial)
    | some (index, true) =>
      decidable_of_iff (((tables (route key)).entries index).version = expectedVersion →
        ResizeServes A (entriesOf tables) (route key, index) arena
          (((tables (route key)).entries index).keyLen.toNat + newValue.length))
        (by rw [Serves, h])
    | some (_, false) => .isTrue (by rw [Serves, h]; trivial)

end

/-- The lengths of the key and the value that are written sum below 2^32. -/
def Call.Short : Call → Prop
  | .insert key value => key.length + value.length < 2 ^ 32
  | .cas key _ newValue => key.length + newValue.length < 2 ^ 32
  | _ => True

instance : (call : Call) → Decidable call.Short
  | .insert .. => inferInstanceAs (Decidable (_ < _))
  | .cas .. => inferInstanceAs (Decidable (_ < _))
  | .get _ => .isTrue trivial
  | .remove _ => .isTrue trivial

/-! ## The map's side -/

def Call.key : Call → Bytes
  | .insert key _ => key
  | .get key => key
  | .remove key => key
  | .cas key _ _ => key

def casError : CasError → KvError
  | .notFound => .notFound
  | .versionMismatch => .versionMismatch

def Call.onMap (map : VersionedMap Bytes Bytes) : Call → Reply × VersionedMap Bytes Bytes
  | .insert key value => (.inserted (.ok (!map.contains key)), map.put key value)
  | .get key => (.got (map.get key), map)
  | .remove key =>
    (.removed (map[key]?.map fun current => key.length + current.value.length), map.erase key)
  | .cas key expectedVersion newValue =>
    let (result, map) := map.cas key expectedVersion newValue
    (.swapped (result.mapError casError), map)

def runOnMap (map : VersionedMap Bytes Bytes) :
    List Call → List Reply × VersionedMap Bytes Bytes
  | [] => ([], map)
  | call :: calls =>
    let (reply, map) := call.onMap map
    let (replies, last) := runOnMap map calls
    (reply :: replies, last)

/-! ## The search in a table -/

variable {A digest route tables} {memory : Memory UInt8} {map : VersionedMap Bytes Bytes}
  {arena : ArenaState β} {key : Bytes} {index : Fin (2 ^ bits.val)}

theorem position_val (bits : Fin 64) (hash : UInt64) :
    (position bits hash).val = hash.toNat % 2 ^ bits.val := toNat_and_mask bits hash

theorem nextPosition_val (index : Fin (2 ^ bits.val)) :
    (nextPosition index).val = (index.val + 1) % 2 ^ bits.val := by
  have hpow : 2 ^ bits.val ∣ 2 ^ 64 := Nat.pow_dvd_pow 2 (by omega)
  have hindex : index.val < UInt64.size := by
    apply Nat.lt_of_lt_of_le index.isLt
    exact Nat.le_of_dvd (by decide) hpow
  rw [nextPosition, position_val, UInt64.toNat_add, UInt64.toNat_ofNat_of_lt' hindex]
  exact Nat.mod_mod_of_dvd _ hpow

theorem iterate_nextPosition_val (d : Nat) (index : Fin (2 ^ bits.val)) :
    (nextPosition^[d] index).val = (index.val + d) % 2 ^ bits.val := by
  induction d with
  | zero => exact (Nat.mod_eq_of_lt index.isLt).symm
  | succ d ih =>
    rw [Function.iterate_succ_apply', nextPosition_val, ih, Nat.mod_add_mod, Nat.add_assoc]

/-- The probe of `find_entry` is a search among the slots. -/
theorem findEntryFrom_eq (h : TablesHold digest route tables memory map) (s : σ) (fuel : Nat)
    (index : Fin (2 ^ bits.val)) :
    (tables s).findEntryFrom memory key (hashKey digest key) fuel index =
      (search nextIn (stops (fun p => (entriesOf tables p).slot memory) key) fuel (s, index)).map
        fun p => (p.2, decide ((entriesOf tables p).slot memory = .full key)) := by
  induction fuel generalizing index with
  | zero => rfl
  | succ fuel ih =>
    have hentry : (tables s).entries index = entriesOf tables (s, index) := rfl
    have hstops : stops (fun p => (entriesOf tables p).slot memory) key (s, index) = true ↔
        (entriesOf tables (s, index)).slot memory = .empty ∨
          (entriesOf tables (s, index)).slot memory = .full key := Probing.stops_eq_true
    rw [findEntryFrom, search, hentry]
    by_cases hempty : (entriesOf tables (s, index)).hash = Entry.emptyHash
    · have hslot : (entriesOf tables (s, index)).slot memory = .empty :=
        Entry.slot_eq_empty.mpr hempty
      rw [if_pos hempty, if_pos (hstops.mpr (Or.inl hslot)), Option.map_some,
        hslot]
      rfl
    · rw [if_neg hempty]
      by_cases hfull : (entriesOf tables (s, index)).slot memory = .full key
      · have hread := (Entry.slot_eq_full.mp hfull).2
        have hmatch : (entriesOf tables (s, index)).hash = hashKey digest key ∧
            (entriesOf tables (s, index)).keysEqual memory key := by
          refine ⟨h.hashed hfull, ?_⟩
          rw [Entry.keysEqual, Entry.keyLen_of_read hread, hread]
          simp
        rw [if_pos (by simpa using hmatch),
          if_pos (hstops.mpr (Or.inr hfull)), Option.map_some]
        simp [hfull]
      · have hmatch : ¬((entriesOf tables (s, index)).hash = hashKey digest key ∧
            (entriesOf tables (s, index)).keysEqual memory key) := by
          rintro ⟨hhash, hkeys⟩
          apply hfull
          rw [Entry.keysEqual, Bool.and_eq_true, decide_eq_true_iff, decide_eq_true_iff] at hkeys
          rw [Entry.slot_eq_full, Entry.Live, hhash]
          exact ⟨two_le_hashKey digest key, hkeys.2⟩
        have hslot : (entriesOf tables (s, index)).slot memory ≠ .empty :=
          fun h => hempty (Entry.slot_eq_empty.mp h)
        rw [if_neg (by simpa using hmatch),
          if_neg (fun h => (hstops.mp h).elim hslot hfull), ih]
        rfl

/-- Where `find_entry` ends. -/
theorem findEntry_spec (h : TablesHold digest route tables memory map) {isMatch : Bool}
    (hfind : (tables (route key)).findEntry memory key (hashKey digest key) =
      some (index, isMatch)) :
    search nextIn (stops (fun p => (entriesOf tables p).slot memory) key) (2 ^ bits.val)
        (homeIn digest route bits key) = some (route key, index) ∧
      isMatch = decide ((entriesOf tables (route key, index)).slot memory = .full key) := by
  rw [findEntry, findEntryFrom_eq h, Option.map_eq_some_iff] at hfind
  have ⟨p, hsearch, hp⟩ := hfind
  have ⟨d, hd, _⟩ := Probing.search_spec hsearch
  have hiter (d : Nat) (q : σ × Fin (2 ^ bits.val)) : (nextIn^[d] q).1 = q.1 := by
    induction d generalizing q with
    | zero => rfl
    | succ d ih => exact ih (nextIn q)
  have htable : p.1 = route key := by rw [← hd, hiter]
  cases hp
  rw [← htable] at hsearch ⊢
  exact ⟨by rw [homeIn, ← htable, hsearch], rfl⟩

/-- A call that does not return within one round of the table never does. -/
theorem findEntryFrom_eq_none (h : TablesHold digest route tables memory map) {s : σ}
    (hnone : (tables s).findEntry memory key (hashKey digest key) = none) (fuel : Nat) :
    (tables s).findEntryFrom memory key (hashKey digest key) fuel
      (position bits (hashKey digest key)) = none := by
  rw [findEntry, findEntryFrom_eq h, Option.map_eq_none_iff] at hnone
  rw [findEntryFrom_eq h, Option.map_eq_none_iff]
  apply Probing.search_eq_none_of_cycle (Nat.two_pow_pos _) _ hnone
  have hiter (d : Nat) (i : Fin (2 ^ bits.val)) : nextIn^[d] (s, i) = (s, nextPosition^[d] i) := by
    induction d generalizing i with
    | zero => rfl
    | succ d ih => exact ih (nextPosition i)
  rw [hiter, Prod.mk.injEq]
  refine ⟨rfl, Fin.ext ?_⟩
  rw [iterate_nextPosition_val, Nat.add_mod_right]
  exact Nat.mod_eq_of_lt (position bits (hashKey digest key)).isLt

/-! ## One step -/

/-- The block that `resize` settles on. -/
theorem resize_served {ι : Type} {entries : ι → Entry} {i : ι} {size : Nat}
    (hserves : ResizeServes A entries i arena size)
    (hapart : ∀ j, j ≠ i → (entries j).Live → (entries i).block.Apart (entries j).block) :
    ∃ offset arena', resize A arena (entries i) size = (some offset, arena') ∧
      KeepsEntries entries (· = i) arena.memory arena'.memory ∧
      ∀ j, j ≠ i → (entries j).Live →
        ({ offset := offset.toNat, length := size } : Block).Apart (entries j).block := by
  rw [resize]
  by_cases hgrows : (entries i).dataSize < size
  · have ⟨hfree, hne, hkeeps, hblock⟩ := hserves hgrows
    rw [if_pos hgrows]
    refine ⟨_, _, by simp only [if_neg hne]; rfl, fun j hj hlive => ?_, hblock⟩
    exact (hkeeps j hj hlive).trans (hfree j hj hlive)
  · rw [if_neg hgrows]
    refine ⟨_, _, rfl, fun _ _ _ => rfl, fun j hj hlive => ?_⟩
    exact (hapart j hj hlive).shrink (Nat.not_lt.mp hgrows)

theorem toNat_ofNat_length {bytes : Bytes} (h : bytes.length < 2 ^ 32) :
    (UInt32.ofNat bytes.length).toNat = bytes.length := UInt32.toNat_ofNat_of_lt' h

theorem toNat_keyLen_add_valLen {entry : Entry} (h : entry.dataSize < 2 ^ 32) :
    (entry.keyLen + entry.valLen).toNat = entry.dataSize := by
  rw [UInt32.toNat_add]
  exact Nat.mod_eq_of_lt h

/-- Putting the written entry back in its table writes it among the entries of all of them. -/
theorem holds_update [DecidableEq σ] {table : HashTable bits} {s : σ} {entry : Entry}
    (hentries : table.entries = Function.update (tables s).entries index entry)
    (h : Holds nextIn (homeIn digest route bits) digest
      (Function.update (entriesOf tables) (s, index) entry) memory map) :
    TablesHold digest route (Function.update tables s table) memory map := by
  have heq : entriesOf (Function.update tables s table) =
      Function.update (entriesOf tables) (s, index) entry := by
    funext ⟨s', index'⟩
    by_cases hs : s' = s
    · subst hs
      rw [entriesOf, Function.update_self, hentries]
      by_cases hindex : index' = index
      · rw [hindex, Function.update_self, Function.update_self]
      · rw [Function.update_of_ne hindex, Function.update_of_ne (by simpa using hindex)]
        rfl
    · rw [entriesOf, Function.update_of_ne hs, Function.update_of_ne (by simp [hs])]
      rfl
  rw [TablesHold, heq]
  exact h

section

variable (h : TablesHold digest route tables arena.memory map)

include h

/-- What the map has under a key whose search has ended at a match. -/
theorem lookup_of_match
    (hfind : (tables (route key)).findEntry arena.memory key (hashKey digest key) =
      some (index, true)) :
    (entriesOf tables (route key, index)).slot arena.memory = .full key ∧
      map[key]? = some ⟨(entriesOf tables (route key, index)).valueOf arena.memory,
        (entriesOf tables (route key, index)).version⟩ := by
  have hfull := of_decide_eq_true (findEntry_spec h hfind).2.symm
  exact ⟨hfull, h.lookup hfull⟩

theorem lookup_of_vacant
    (hfind : (tables (route key)).findEntry arena.memory key (hashKey digest key) =
      some (index, false)) :
    map[key]? = none := by
  have ⟨hsearch, hmatch⟩ := findEntry_spec h hfind
  exact ((h.found hsearch).resolve_left (of_decide_eq_false hmatch.symm)).2

theorem get_spec {value : Option Bytes}
    (hget : (tables (route key)).get digest arena key = some value) : value = map.get key := by
  rw [get] at hget
  split at hget
  · cases hget
  · rename_i index hfind
    cases hget
    rw [VersionedMap.get, (lookup_of_match h hfind).2]
    rfl
  · rename_i index hfind
    cases hget
    rw [VersionedMap.get, lookup_of_vacant h hfind]
    rfl

variable [DecidableEq σ] {table : HashTable bits} {arena' : ArenaState β} {value : Bytes}
  {expectedVersion : UInt64}

theorem insert_spec (hshort : key.length + value.length < 2 ^ 32)
    (hserves : Serves A digest route tables arena (.insert key value))
    {result : Except KvError Bool}
    (hinsert : (tables (route key)).insert A digest arena key value =
      some (result, table, arena')) :
    result = .ok (!map.contains key) ∧
      TablesHold digest route (Function.update tables (route key) table) arena'.memory
        (map.put key value) := by
  have hkeyLen : (UInt32.ofNat key.length).toNat = key.length := toNat_ofNat_length (by omega)
  have hvalLen : (UInt32.ofNat value.length).toNat = value.length :=
    toNat_ofNat_length (by omega)
  rw [Serves] at hserves
  cases hfind : (tables (route key)).findEntry arena.memory key (hashKey digest key) with
  | none =>
    rw [insert_of_none hshort hfind] at hinsert
    cases hinsert
  | some found =>
    obtain ⟨index, isMatch⟩ := found
    have ⟨hsearch, _⟩ := findEntry_spec h hfind
    rw [hfind] at hserves
    cases isMatch with
    | true =>
      have ⟨hfull, hlookup⟩ := lookup_of_match h hfind
      have hlive := (Entry.slot_eq_full.mp hfull).1
      have ⟨offset, arena'', hresize, hkeeps, hapart⟩ :=
        resize_served hserves fun j hj hother => h.apart hj.symm hlive hother
      rw [insert_of_match hshort hfind hresize] at hinsert
      cases hinsert
      have hcontains : map.contains key = true := by
        rw [Std.ExtTreeMap.contains_eq_isSome_getElem?, hlookup]
        rfl
      rw [hcontains, VersionedMap.put_of_some hlookup]
      refine ⟨rfl, holds_update rfl ?_⟩
      exact h.copied hsearch hkeeps hapart (h.hashed hfull) hkeyLen hvalLen hshort
    | false =>
      have hlookup := lookup_of_vacant h hfind
      have ⟨hne, hkeeps, hapart⟩ := hserves
      rw [insert_of_vacant hshort hfind hne] at hinsert
      cases hinsert
      have hcontains : map.contains key = false := by
        rw [Std.ExtTreeMap.contains_eq_isSome_getElem?, hlookup]
        rfl
      rw [hcontains, VersionedMap.put_of_none hlookup]
      refine ⟨rfl, holds_update rfl ?_⟩
      exact h.copied hsearch (fun j _ => hkeeps j not_false) (fun j _ => hapart j not_false) rfl
        hkeyLen hvalLen hshort

theorem remove_spec (hserves : Serves A digest route tables arena (.remove key))
    {size : Option Nat}
    (hremove : (tables (route key)).remove A digest arena key = some (size, table, arena')) :
    size = map[key]?.map (fun current => key.length + current.value.length) ∧
      TablesHold digest route (Function.update tables (route key) table) arena'.memory
        (map.erase key) := by
  rw [Serves] at hserves
  cases hfind : (tables (route key)).findEntry arena.memory key (hashKey digest key) with
  | none =>
    rw [remove, hfind] at hremove
    cases hremove
  | some found =>
    obtain ⟨index, isMatch⟩ := found
    rw [hfind] at hserves
    cases isMatch with
    | true =>
      rcases lookup_of_match h hfind with ⟨hfull, hlookup⟩
      rcases Entry.slot_eq_full.mp hfull with ⟨hlive, hread⟩
      have hsize := toNat_keyLen_add_valLen (h.fits hlive)
      rw [remove_of_match hfind hlive.2] at hremove
      cases hremove
      rw [hlookup, Option.map_some]
      refine ⟨congrArg some ?_, holds_update rfl (h.tombstone hfull ?_)⟩
      · rw [← Entry.keyLen_of_read hread, Entry.valueOf, Memory.length_read]
        exact hsize
      · show KeepsEntries _ _ _ (A.free arena _
          ((entriesOf tables (route key, index)).keyLen +
            (entriesOf tables (route key, index)).valLen).toNat).memory
        rw [hsize]
        exact hserves
    | false =>
      have hlookup := lookup_of_vacant h hfind
      rw [remove_of_vacant hfind] at hremove
      cases hremove
      have herase : map.erase key = map := by
        apply Std.ExtTreeMap.ext_getElem?
        intro other
        rw [lookup_erase]
        split
        · rename_i heq
          rw [← heq, hlookup]
        · rfl
      rw [hlookup, Function.update_eq_self, herase]
      exact ⟨rfl, h⟩

theorem cas_spec (hshort : key.length + value.length < 2 ^ 32)
    (hserves : Serves A digest route tables arena (.cas key expectedVersion value))
    {result : Except KvError UInt64}
    (hcas : (tables (route key)).cas A digest arena key expectedVersion value =
      some (result, table, arena')) :
    result = (map.cas key expectedVersion value).1.mapError casError ∧
      TablesHold digest route (Function.update tables (route key) table) arena'.memory
        (map.cas key expectedVersion value).2 := by
  have hvalLen : (UInt32.ofNat value.length).toNat = value.length :=
    toNat_ofNat_length (by omega)
  rw [Serves] at hserves
  cases hfind : (tables (route key)).findEntry arena.memory key (hashKey digest key) with
  | none =>
    rw [cas, hfind] at hcas
    cases hcas
  | some found =>
    obtain ⟨index, isMatch⟩ := found
    rcases findEntry_spec h hfind with ⟨hsearch, _⟩
    rw [hfind] at hserves
    cases isMatch with
    | false =>
      rw [cas_of_vacant hfind] at hcas
      cases hcas
      rw [VersionedMap.cas_of_none (lookup_of_vacant h hfind), Function.update_eq_self]
      exact ⟨rfl, h⟩
    | true =>
      rcases lookup_of_match h hfind with ⟨hfull, hlookup⟩
      rcases Entry.slot_eq_full.mp hfull with ⟨hlive, hread⟩
      have hkeyLen := Entry.keyLen_of_read hread
      by_cases hversion : (entriesOf tables (route key, index)).version = expectedVersion
      · obtain ⟨offset, arena'', hresize, hkeeps, hapart⟩ :=
          resize_served (hserves hversion) fun j hj hother => h.apart hj.symm hlive hother
        rw [cas_of_eq hfind hversion hresize] at hcas
        cases hcas
        rw [VersionedMap.cas_of_eq hlookup hversion]
        refine ⟨rfl, holds_update rfl ?_⟩
        have htake : key.take (entriesOf tables (route key, index)).keyLen.toNat = key := by
          rw [hkeyLen, List.take_length]
        show Holds _ _ _ _ (ArenaState.copy _ _
          (key.take (entriesOf tables (route key, index)).keyLen.toNat) _).memory _
        rw [htake]
        rw [show ((tables (route key)).entries index).keyLen.toNat = key.length from hkeyLen]
          at hapart
        exact h.copied hsearch hkeeps hapart (h.hashed hfull) hkeyLen hvalLen hshort
      · rw [cas_of_ne hfind hversion] at hcas
        cases hcas
        rw [VersionedMap.cas_of_ne hlookup hversion, Function.update_eq_self]
        exact ⟨rfl, h⟩

theorem step_spec {call : Call} {reply : Reply} (hshort : call.Short)
    (hserves : Serves A digest route tables arena call)
    (hstep : (tables (route call.key)).step A digest arena call = some (reply, table, arena')) :
    reply = (call.onMap map).1 ∧
      TablesHold digest route (Function.update tables (route call.key) table) arena'.memory
        (call.onMap map).2 := by
  cases call with
  | insert key value =>
    simp only [step, Option.bind_eq_bind, Option.bind_eq_some_iff, Option.pure_def,
      Option.some.injEq, Prod.exists, Prod.mk.injEq] at hstep
    rcases hstep with ⟨result, _, _, hinsert, hreply, htable, harena⟩
    subst hreply htable harena
    rcases insert_spec h hshort hserves hinsert with ⟨hresult, hholds⟩
    exact ⟨congrArg Reply.inserted hresult, hholds⟩
  | get key =>
    simp only [step, Option.bind_eq_bind, Option.bind_eq_some_iff, Option.pure_def,
      Option.some.injEq, Prod.mk.injEq] at hstep
    rcases hstep with ⟨value, hget, hreply, htable, harena⟩
    subst hreply htable harena
    rw [show (Call.get key).key = key from rfl, Function.update_eq_self]
    exact ⟨congrArg Reply.got (get_spec h hget), h⟩
  | remove key =>
    simp only [step, Option.bind_eq_bind, Option.bind_eq_some_iff, Option.pure_def,
      Option.some.injEq, Prod.exists, Prod.mk.injEq] at hstep
    rcases hstep with ⟨size, _, _, hremove, hreply, htable, harena⟩
    subst hreply htable harena
    rcases remove_spec h hserves hremove with ⟨hsize, hholds⟩
    exact ⟨congrArg Reply.removed hsize, hholds⟩
  | cas key expectedVersion newValue =>
    simp only [step, Option.bind_eq_bind, Option.bind_eq_some_iff, Option.pure_def,
      Option.some.injEq, Prod.exists, Prod.mk.injEq] at hstep
    rcases hstep with ⟨result, _, _, hcas, hreply, htable, harena⟩
    subst hreply htable harena
    rcases cas_spec h hshort hserves hcas with ⟨hresult, hholds⟩
    exact ⟨congrArg Reply.swapped hresult, hholds⟩

end

end HashTable

end VedDb
