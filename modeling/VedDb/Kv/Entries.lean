import VedDb.Kv.HashTable
import VedDb.Lib.Probing
import VedDb.Lib.VersionedMap

/-!
# Entries that hold a versioned map

The entries of one table, or of several tables that share an arena, over any kind of position.
`Holds` says which map they stand for; writing an entry where its key belongs puts the key, and
marking an entry as a tombstone erases it.
-/

namespace VedDb

open LittleEndian (Bytes)
open Probing (Slot Chained search stops)

namespace Entry

variable {memory memory' : Memory UInt8} {entry : Entry} {key : Bytes}

def Live (entry : Entry) : Prop := entry.hash ≠ emptyHash ∧ entry.hash ≠ tombstoneHash

instance (entry : Entry) : Decidable entry.Live := inferInstanceAs (Decidable (_ ∧ _))

/-- What an entry is to a search. -/
def slot (memory : Memory UInt8) (entry : Entry) : Slot Bytes :=
  if entry.hash = emptyHash then .empty
  else if entry.hash = tombstoneHash then .deleted
  else .full (memory.read entry.keyBlock)

theorem slot_of_live (h : entry.Live) : entry.slot memory = .full (memory.read entry.keyBlock) := by
  rw [slot, if_neg h.1, if_neg h.2]

theorem slot_eq_full :
    entry.slot memory = .full key ↔ entry.Live ∧ memory.read entry.keyBlock = key := by
  rw [slot, Live]
  split
  · simp [*]
  · split <;> simp [*]

theorem slot_eq_empty : entry.slot memory = .empty ↔ entry.hash = emptyHash := by
  rw [slot]
  split
  · simp [*]
  · rename_i hne
    simp only [hne, iff_false]
    split
    · simp
    · simp

theorem keyLen_of_read (h : memory.read entry.keyBlock = key) :
    entry.keyLen.toNat = key.length := by
  rw [← h, Memory.length_read]
  rfl

theorem read_block (memory : Memory UInt8) (entry : Entry) :
    memory.read entry.block = memory.read entry.keyBlock ++ entry.valueOf memory :=
  Memory.read_append ..

theorem read_congr (h : memory'.read entry.block = memory.read entry.block) :
    memory'.read entry.keyBlock = memory.read entry.keyBlock ∧
      entry.valueOf memory' = entry.valueOf memory := by
  rw [read_block, read_block] at h
  apply List.append_inj h
  rw [Memory.length_read, Memory.length_read]

theorem slot_congr (h : entry.Live → memory'.read entry.block = memory.read entry.block) :
    entry.slot memory' = entry.slot memory := by
  by_cases hlive : entry.Live
  · rw [slot_of_live hlive, slot_of_live hlive, (read_congr (h hlive)).1]
  · rw [Live, not_and_or, not_not, not_not] at hlive
    rw [slot, slot]
    split
    · rfl
    · rename_i hne
      have htombstone := hlive.resolve_left hne
      rw [if_pos htombstone, if_pos htombstone]

def Stores (memory : Memory UInt8) (entry : Entry) (key : Bytes) (current : Versioned Bytes) :
    Prop :=
  entry.slot memory = .full key ∧ current = ⟨entry.valueOf memory, entry.version⟩

theorem stores_congr {current : Versioned Bytes}
    (h : entry.Live → memory'.read entry.block = memory.read entry.block) :
    entry.Stores memory' key current ↔ entry.Stores memory key current := by
  rw [Stores, Stores, slot_congr h]
  apply and_congr_right
  intro hfull
  rw [(read_congr (h (slot_eq_full.mp hfull).1)).2]

theorem stores_copy {β : Type} {arena : ArenaState β} {value : Bytes} (hlive : entry.Live)
    (hkey : entry.keyLen.toNat = key.length) (hvalue : entry.valLen.toNat = value.length) :
    entry.Stores (arena.copy entry.dataOffset key value).memory key ⟨value, entry.version⟩ := by
  rw [Stores, slot_eq_full, valueOf, keyBlock, valueBlock, ArenaState.copy, hkey, hvalue,
    Memory.write_write, Memory.read_write_left, Memory.read_write_right]
  exact ⟨⟨hlive, rfl⟩, rfl⟩

end Entry

theorem two_le_hashKey (digest : Bytes → UInt64) (key : Bytes) :
    hashKey digest key ≠ Entry.emptyHash ∧ hashKey digest key ≠ Entry.tombstoneHash := by
  rw [hashKey]
  split
  · exact ⟨by decide, by decide⟩
  · rename_i h
    refine ⟨fun hzero => h ?_, fun hone => h ?_⟩
    · rw [hzero]
      decide
    · rw [hone]
      exact UInt64.le_refl _

/-! ## The map of a set of entries -/

/-- Memory moves from one state to another without a change to the live entries. -/
def KeepsEntries {ι : Type} (entries : ι → Entry) (besides : ι → Prop)
    (memory memory' : Memory UInt8) : Prop :=
  ∀ j, ¬besides j → (entries j).Live →
    memory'.read (entries j).block = memory.read (entries j).block

structure Holds {ι : Type} (next : ι → ι) (home : Bytes → ι) (digest : Bytes → UInt64)
    (entries : ι → Entry) (memory : Memory UInt8) (map : VersionedMap Bytes Bytes) : Prop where
  chained : Chained next home fun i => (entries i).slot memory
  hashed : ∀ {i key}, (entries i).slot memory = .full key → (entries i).hash = hashKey digest key
  fits : ∀ {i}, (entries i).Live → (entries i).dataSize < 2 ^ 32
  apart : ∀ {i j}, i ≠ j → (entries i).Live → (entries j).Live →
    (entries i).block.Apart (entries j).block
  stored : ∀ {key current}, map[key]? = some current ↔
    ∃ i, (entries i).Stores memory key current

namespace Holds

variable {ι : Type} {next : ι → ι} {home : Bytes → ι} {digest : Bytes → UInt64}
  {entries : ι → Entry} {memory memory' : Memory UInt8} {map : VersionedMap Bytes Bytes}
  {key : Bytes} {i : ι} {fuel : Nat}

theorem init : Holds next home digest (fun _ => Entry.new) memory ∅ := by
  have hempty : ¬Entry.new.Live := by decide
  have hslot : Entry.new.slot memory = .empty := rfl
  refine
    { chained := ?_
      hashed := fun h => ?_
      fits := fun h => absurd h hempty
      apart := fun _ h => absurd h hempty
      stored := fun {key current} => ?_ }
  · rw [hslot]
    exact Probing.chained_empty
  · rw [hslot] at h
    cases h
  · rw [Std.ExtTreeMap.getElem?_empty]
    constructor
    · intro h
      cases h
    · intro ⟨_, h, _⟩
      rw [hslot] at h
      cases h

variable (h : Holds next home digest entries memory map)

include h

theorem lookup (hfull : (entries i).slot memory = .full key) :
    map[key]? = some ⟨(entries i).valueOf memory, (entries i).version⟩ :=
  h.stored.mpr ⟨i, hfull, rfl⟩

theorem lookup_none (habsent : ∀ j, (entries j).slot memory ≠ .full key) : map[key]? = none := by
  cases hmap : map[key]? with
  | none => rfl
  | some current =>
    have ⟨j, hj, _⟩ := h.stored.mp hmap
    exact absurd hj (habsent j)

theorem found (hsearch :
    search next (stops (fun i => (entries i).slot memory) key) fuel (home key) = some i) :
    (entries i).slot memory = .full key ∨
      (entries i).slot memory = .empty ∧ map[key]? = none := by
  rcases h.chained.found hsearch with hfull | ⟨hempty, habsent⟩
  · exact Or.inl hfull
  · exact Or.inr ⟨hempty, h.lookup_none habsent⟩

theorem size_le_card [Fintype ι] : map.size ≤ Fintype.card ι := by
  have hplace (key : Bytes) : ∃ i, key ∈ map → (entries i).slot memory = .full key := by
    by_cases hkey : key ∈ map
    · have ⟨i, hfull, _⟩ := h.stored.mp (Std.ExtTreeMap.getElem?_eq_some_getElem hkey)
      exact ⟨i, fun _ => hfull⟩
    · exact ⟨home key, fun hmem => absurd hmem hkey⟩
  choose place hplace using hplace
  apply VersionedMap.size_le_card place
  intro key key' hkey hkey' heq
  have hfull := hplace key hkey
  rw [heq, hplace key' hkey'] at hfull
  cases hfull
  rfl

-- A key that is not at a position is at another one, if it is held at all.
theorem stored_besides {current : Versioned Bytes} (hslot : (entries i).slot memory ≠ .full key) :
    map[key]? = some current ↔ ∃ j, j ≠ i ∧ (entries j).Stores memory key current := by
  rw [h.stored]
  apply exists_congr
  intro j
  constructor
  · intro hj
    refine ⟨fun hji => ?_, hj⟩
    rw [hji] at hj
    exact hslot hj.1
  · exact And.right

variable [DecidableEq ι]

omit h in
theorem slots_update {entry : Entry} (hkeeps : KeepsEntries entries (· = i) memory memory') :
    (fun j => (Function.update entries i entry j).slot memory') =
      Function.update (fun j => (entries j).slot memory) i (entry.slot memory') := by
  funext j
  rw [Function.update_apply, Function.update_apply]
  split
  · rfl
  · rename_i hj
    exact Entry.slot_congr (hkeeps j hj)

/-- One entry becomes another, while the memory of the others stays. -/
theorem update {entry : Entry} {map' : VersionedMap Bytes Bytes}
    (hkeeps : KeepsEntries entries (· = i) memory memory')
    (hchained : Chained next home
      (Function.update (fun j => (entries j).slot memory) i (entry.slot memory')))
    (hhashed : ∀ {key}, entry.slot memory' = .full key → entry.hash = hashKey digest key)
    (hfits : entry.Live → entry.dataSize < 2 ^ 32)
    (hapart : entry.Live → ∀ j, j ≠ i → (entries j).Live → entry.block.Apart (entries j).block)
    (hstored : ∀ {key current}, map'[key]? = some current ↔ entry.Stores memory' key current ∨
      ∃ j, j ≠ i ∧ (entries j).Stores memory key current) :
    Holds next home digest (Function.update entries i entry) memory' map' := by
  refine
    { chained := ?_
      hashed := fun {j other} hslot => ?_
      fits := fun {j} hlive => ?_
      apart := fun {j j'} hne hlive hlive' => ?_
      stored := fun {other value} => ?_ }
  · rw [slots_update hkeeps]
    exact hchained
  · by_cases hj : j = i
    · rw [hj, Function.update_self] at hslot ⊢
      exact hhashed hslot
    · rw [Function.update_of_ne hj] at hslot ⊢
      rw [Entry.slot_congr (hkeeps j hj)] at hslot
      exact h.hashed hslot
  · by_cases hj : j = i
    · rw [hj, Function.update_self] at hlive ⊢
      exact hfits hlive
    · rw [Function.update_of_ne hj] at hlive ⊢
      exact h.fits hlive
  · by_cases hj : j = i
    · rw [hj, Function.update_self] at hlive ⊢
      rw [Function.update_of_ne (hj ▸ hne.symm)] at hlive' ⊢
      exact hapart hlive j' (hj ▸ hne.symm) hlive'
    · rw [Function.update_of_ne hj] at hlive ⊢
      by_cases hj' : j' = i
      · rw [hj', Function.update_self] at hlive' ⊢
        exact (hapart hlive' j hj hlive).symm
      · rw [Function.update_of_ne hj'] at hlive' ⊢
        exact h.apart hne hlive hlive'
  · rw [hstored]
    constructor
    · intro hvalue
      cases hvalue with
      | inl hown =>
        refine ⟨i, ?_⟩
        rw [Function.update_self]
        exact hown
      | inr hother =>
        have ⟨j, hj, hstores⟩ := hother
        refine ⟨j, ?_⟩
        rw [Function.update_of_ne hj]
        exact (Entry.stores_congr (hkeeps j hj)).mpr hstores
    · intro ⟨j, hstores⟩
      by_cases hj : j = i
      · rw [hj, Function.update_self] at hstores
        exact Or.inl hstores
      · rw [Function.update_of_ne hj, Entry.stores_congr (hkeeps j hj)] at hstores
        exact Or.inr ⟨j, hj, hstores⟩

theorem write {entry : Entry} {current : Versioned Bytes}
    (hsearch : search next (stops (fun i => (entries i).slot memory) key) fuel (home key) = some i)
    (hkeeps : KeepsEntries entries (· = i) memory memory')
    (hapart : ∀ j, j ≠ i → (entries j).Live → entry.block.Apart (entries j).block)
    (hstores : entry.Stores memory' key current) (hhash : entry.hash = hashKey digest key)
    (hfits : entry.dataSize < 2 ^ 32) :
    Holds next home digest (Function.update entries i entry) memory' (map.insert key current) := by
  have hchained : Chained next home
      (Function.update (fun j => (entries j).slot memory) i (entry.slot memory')) := by
    rw [hstores.1]
    rcases h.found hsearch with hfull | ⟨hempty, _⟩
    · rw [← hfull, Function.update_eq_self i fun j => (entries j).slot memory]
      exact h.chained
    · exact h.chained.fill hsearch hempty
  refine h.update hkeeps hchained (fun hfull => ?_) (fun _ => hfits) (fun _ => hapart) ?_
  · rw [hstores.1] at hfull
    cases hfull
    exact hhash
  · intro other value
    rw [lookup_insert]
    split
    · rename_i heq
      subst heq
      constructor
      · intro hvalue
        cases hvalue
        exact Or.inl hstores
      · intro hvalue
        cases hvalue with
        | inl hown => rw [hown.2, hstores.2]
        | inr hother =>
          -- the key would be at two positions of the new table
          have ⟨j, hj, hfull, _⟩ := hother
          have hji : j = i := by
            apply hchained.distinct
            · rw [Function.update_of_ne hj]
              exact hfull
            · rw [Function.update_self]
              exact hstores.1
          exact absurd hji hj
    · rename_i hne
      have hslot : (entries i).slot memory ≠ .full other := by
        intro hfull
        rcases h.found hsearch with hown | ⟨hempty, _⟩
        · rw [hown] at hfull
          cases hfull
          exact hne rfl
        · rw [hempty] at hfull
          cases hfull
      have hown : ¬entry.Stores memory' other value := by
        intro hown
        rw [Entry.Stores, hstores.1] at hown
        cases hown.1
        exact hne rfl
      rw [h.stored_besides hslot, or_iff_right hown]

theorem copied {β : Type} {arena : ArenaState β} {entry : Entry} {value : Bytes}
    (hsearch : search next (stops (fun i => (entries i).slot memory) key) fuel (home key) = some i)
    (hkeeps : KeepsEntries entries (· = i) memory arena.memory)
    (hapart : ∀ j, j ≠ i → (entries j).Live →
      ({ offset := entry.dataOffset.toNat, length := key.length + value.length } : Block).Apart
        (entries j).block)
    (hhash : entry.hash = hashKey digest key) (hkey : entry.keyLen.toNat = key.length)
    (hvalue : entry.valLen.toNat = value.length) (hshort : key.length + value.length < 2 ^ 32) :
    Holds next home digest (Function.update entries i entry)
      (arena.copy entry.dataOffset key value).memory
      (map.insert key ⟨value, entry.version⟩) := by
  have hlive : entry.Live := by
    rw [Entry.Live, hhash]
    exact two_le_hashKey digest key
  have hsize : entry.dataSize = key.length + value.length := by
    rw [Entry.dataSize, hkey, hvalue]
  have hapart : ∀ j, j ≠ i → (entries j).Live → entry.block.Apart (entries j).block := by
    rw [Entry.block, hsize]
    exact hapart
  apply h.write hsearch _ hapart (Entry.stores_copy hlive hkey hvalue) hhash (by omega)
  intro j hj hlive
  rw [← hkeeps j hj hlive, ArenaState.copy, Memory.write_write]
  apply Memory.read_write_of_apart
  rw [List.length_append, ← hsize]
  exact hapart j hj hlive

theorem tombstone (hfull : (entries i).slot memory = .full key)
    (hkeeps : KeepsEntries entries (· = i) memory memory') :
    Holds next home digest (Function.update entries i (entries i).markTombstone) memory'
      (map.erase key) := by
  have hdead : ¬(entries i).markTombstone.Live := fun hlive => hlive.2 rfl
  have hmarked : (entries i).markTombstone.slot memory' = .deleted := rfl
  refine h.update hkeeps ?_ (fun hslot => ?_) (fun hlive => absurd hlive hdead)
    (fun hlive => absurd hlive hdead) ?_
  · rw [hmarked]
    exact h.chained.delete i
  · rw [hmarked] at hslot
    cases hslot
  · intro other value
    have hown : ¬(entries i).markTombstone.Stores memory' other value := by
      rw [Entry.Stores, hmarked]
      exact fun hown => nomatch hown.1
    rw [or_iff_right hown, lookup_erase]
    split
    · rename_i heq
      subst heq
      constructor
      · intro hnone
        cases hnone
      · intro ⟨j, hj, hstores⟩
        exact absurd (h.chained.distinct hstores.1 hfull) hj
    · rename_i hne
      apply h.stored_besides
      intro hother
      rw [hfull] at hother
      cases hother
      exact hne rfl

end Holds

end VedDb
