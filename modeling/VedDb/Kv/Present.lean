import Mathlib.Algebra.BigOperators.Fin
import Mathlib.Algebra.Order.BigOperators.Group.Finset
import VedDb.Kv.Runs
import VedDb.Kv.Termination
import VedDb.Lib.Totals

/-!
# The entries that are present

How many entries of a table are neither empty nor tombstones, how long their keys and values are,
and what an operation does to these numbers.  Where the table stands for a map, they are those of
its keys.
-/

namespace VedDb

open LittleEndian (Bytes)

namespace Entry

def count (entry : Entry) : Nat := if entry.Live then 1 else 0

def bytes (entry : Entry) : Nat := if entry.Live then entry.dataSize else 0

theorem count_of_live {entry : Entry} (h : entry.Live) : entry.count = 1 := if_pos h

theorem bytes_of_live {entry : Entry} (h : entry.Live) : entry.bytes = entry.dataSize := if_pos h

theorem not_live_of_vacant {entry : Entry} (h : entry.hash = emptyHash) : ¬entry.Live :=
  fun hlive => hlive.1 h

theorem count_of_vacant {entry : Entry} (h : entry.hash = emptyHash) : entry.count = 0 :=
  if_neg (not_live_of_vacant h)

theorem bytes_of_vacant {entry : Entry} (h : entry.hash = emptyHash) : entry.bytes = 0 :=
  if_neg (not_live_of_vacant h)

theorem count_markTombstone (entry : Entry) : entry.markTombstone.count = 0 :=
  if_neg fun hlive => hlive.2 rfl

theorem bytes_markTombstone (entry : Entry) : entry.markTombstone.bytes = 0 :=
  if_neg fun hlive => hlive.2 rfl

theorem count_le (entry : Entry) : entry.count ≤ 1 := by
  unfold count
  split
  · exact Nat.le_refl _
  · exact Nat.zero_le _

theorem bytes_le (entry : Entry) : entry.bytes ≤ 2 ^ 33 := by
  have hkey := entry.keyLen.toNat_lt
  have hvalue := entry.valLen.toNat_lt
  unfold bytes dataSize
  split
  · omega
  · omega

end Entry

namespace HashTable

variable {bits : Fin 64} {β : Type} {A : Arena β} {digest : Bytes → UInt64}
  {table table' : HashTable bits} {arena arena' : ArenaState β} {key value : Bytes}
  {index : Fin (2 ^ bits.val)}

def entriesPresent (table : HashTable bits) : Nat := ∑ i, (table.entries i).count

/-- The lengths of their keys and values. -/
def bytesPresent (table : HashTable bits) : Nat := ∑ i, (table.entries i).bytes

theorem entriesPresent_setEntry (table : HashTable bits) (index : Fin (2 ^ bits.val))
    (entry : Entry) :
    (table.setEntry index entry).entriesPresent + (table.entries index).count =
      table.entriesPresent + entry.count :=
  sum_update_add Entry.count table.entries index entry

theorem bytesPresent_setEntry (table : HashTable bits) (index : Fin (2 ^ bits.val))
    (entry : Entry) :
    (table.setEntry index entry).bytesPresent + (table.entries index).bytes =
      table.bytesPresent + entry.bytes :=
  sum_update_add Entry.bytes table.entries index entry

theorem entriesPresent_setEntry_of_live {entry : Entry} (hold : (table.entries index).Live)
    (hnew : entry.Live) : (table.setEntry index entry).entriesPresent = table.entriesPresent := by
  have hset := entriesPresent_setEntry table index entry
  rw [Entry.count_of_live hold, Entry.count_of_live hnew] at hset
  exact Nat.add_right_cancel hset

theorem bytesPresent_setEntry_of_live (entry : Entry) (hold : (table.entries index).Live)
    (hnew : entry.Live) :
    (table.setEntry index entry).bytesPresent + (table.entries index).dataSize =
      table.bytesPresent + entry.dataSize := by
  rw [← Entry.bytes_of_live hold, ← Entry.bytes_of_live hnew]
  exact bytesPresent_setEntry table index entry

theorem entriesPresent_init : (init bits).entriesPresent = 0 :=
  Finset.sum_eq_zero fun _ _ => rfl

theorem bytesPresent_init : (init bits).bytesPresent = 0 :=
  Finset.sum_eq_zero fun _ _ => rfl

theorem count_le_entriesPresent (table : HashTable bits) (index : Fin (2 ^ bits.val)) :
    (table.entries index).count ≤ table.entriesPresent :=
  Finset.single_le_sum (f := fun i => (table.entries i).count) (fun _ _ => Nat.zero_le _)
    (Finset.mem_univ index)

theorem bytes_le_bytesPresent (table : HashTable bits) (index : Fin (2 ^ bits.val)) :
    (table.entries index).bytes ≤ table.bytesPresent :=
  Finset.single_le_sum (f := fun i => (table.entries i).bytes) (fun _ _ => Nat.zero_le _)
    (Finset.mem_univ index)

theorem entriesPresent_le (table : HashTable bits) : table.entriesPresent ≤ 2 ^ bits.val := by
  have hle := Finset.sum_le_card_nsmul Finset.univ (fun i => (table.entries i).count) 1
    fun i _ => (table.entries i).count_le
  rw [Finset.card_univ, Fintype.card_fin, smul_eq_mul, mul_one] at hle
  exact hle

theorem bytesPresent_le (table : HashTable bits) :
    table.bytesPresent ≤ 2 ^ bits.val * 2 ^ 33 := by
  have hle := Finset.sum_le_card_nsmul Finset.univ (fun i => (table.entries i).bytes) (2 ^ 33)
    fun i _ => (table.entries i).bytes_le
  rw [Finset.card_univ, Fintype.card_fin, smul_eq_mul] at hle
  exact hle

/-! ## What an operation does to the entries -/

theorem live_of_findEntry
    (hfind : table.findEntry arena.memory key (hashKey digest key) = some (index, true)) :
    (table.entries index).Live := by
  obtain ⟨_, _, hmatch, _⟩ := reached_of_findEntry hfind
  rw [Entry.Live, hmatch.1]
  exact two_le_hashKey digest key

theorem findEntry_of_step_eq_none {call : Call}
    (h : table.step A digest arena call = none) :
    table.findEntry arena.memory call.key (hashKey digest call.key) = none := by
  by_contra hfind
  have hsome := step_isSome (A := A) hfind
  rw [h] at hsome
  cases hsome

theorem findEntry_of_insert_eq_none (h : table.insert A digest arena key value = none) :
    table.findEntry arena.memory key (hashKey digest key) = none := by
  have hstep : table.step A digest arena (.insert key value) = none := by
    rw [step, h]
    rfl
  exact findEntry_of_step_eq_none hstep

theorem findEntry_of_remove_eq_none (h : table.remove A digest arena key = none) :
    table.findEntry arena.memory key (hashKey digest key) = none := by
  have hstep : table.step A digest arena (.remove key) = none := by
    rw [step, h]
    rfl
  exact findEntry_of_step_eq_none hstep

theorem findEntry_of_cas_eq_none {expectedVersion : UInt64}
    (h : table.cas A digest arena key expectedVersion value = none) :
    table.findEntry arena.memory key (hashKey digest key) = none := by
  have hstep : table.step A digest arena (.cas key expectedVersion value) = none := by
    rw [step, h]
    rfl
  exact findEntry_of_step_eq_none hstep

theorem dataSize_mod (entry : Entry) :
    (entry.keyLen + entry.valLen).toNat = entry.dataSize % 2 ^ 32 :=
  UInt32.toNat_add _ _

/-- What an insertion that returns does: it is refused, overwrites or adds an entry. -/
inductive Inserted (A : Arena β) (digest : Bytes → UInt64) (table : HashTable bits)
    (arena : ArenaState β) (key value : Bytes) : Except KvError Bool → HashTable bits → Prop where
  | tooLong (h : 2 ^ 32 ≤ key.length ∨ 2 ^ 32 ≤ value.length) :
      Inserted A digest table arena key value (.error .keyTooLarge) table
  | noRoom (index : Fin (2 ^ bits.val))
      (hfind : table.findEntry arena.memory key (hashKey digest key) = some (index, true))
      (hresize : (resize A arena (table.entries index) (key.length + value.length)).1 = none) :
      Inserted A digest table arena key value (.error .outOfMemory) table
  | noBlock (index : Fin (2 ^ bits.val))
      (hfind : table.findEntry arena.memory key (hashKey digest key) = some (index, false))
      (hoffset : (A.allocate arena (key.length + value.length) 8).1 = 0) :
      Inserted A digest table arena key value (.error .outOfMemory) table
  | overwrote (table' : HashTable bits) (index : Fin (2 ^ bits.val))
      (hshort : key.length < 2 ^ 32 ∧ value.length < 2 ^ 32)
      (hfind : table.findEntry arena.memory key (hashKey digest key) = some (index, true))
      (hresize : (resize A arena (table.entries index) (key.length + value.length)).1 ≠ none)
      (hentries : table'.entriesPresent = table.entriesPresent) :
      Inserted A digest table arena key value (.ok false) table'
  | added (table' : HashTable bits) (index : Fin (2 ^ bits.val))
      (hshort : key.length < 2 ^ 32 ∧ value.length < 2 ^ 32)
      (hfind : table.findEntry arena.memory key (hashKey digest key) = some (index, false))
      (hoffset : (A.allocate arena (key.length + value.length) 8).1 ≠ 0)
      (hentries : table'.entriesPresent = table.entriesPresent + 1)
      (hbytes : table'.bytesPresent = table.bytesPresent + (key.length + value.length)) :
      Inserted A digest table arena key value (.ok true) table'

theorem inserted {result : Except KvError Bool}
    (h : table.insert A digest arena key value = some (result, table', arena')) :
    Inserted A digest table arena key value result table' := by
  rw [insert] at h
  split at h
  next hlong =>
    cases h
    exact .tooLong hlong
  next hshort =>
    rw [not_or, Nat.not_le, Nat.not_le] at hshort
    simp only at h
    split at h
    next => cases h
    next index hfind =>
      have hlive := live_of_findEntry hfind
      split at h
      next hresize =>
        cases h
        exact .noRoom index hfind (by rw [hresize])
      next offset _ hresize =>
        cases h
        exact .overwrote _ index hshort hfind (by rw [hresize]; simp)
          (entriesPresent_setEntry_of_live hlive hlive)
    next index hfind =>
      have hvacant : (table.entries index).hash = Entry.emptyHash := vacant_of_findEntry hfind
      split at h
      next hoffset =>
        cases h
        exact .noBlock index hfind hoffset
      next hoffset =>
        cases h
        let entry : Entry :=
          { hash := hashKey digest key
            version := 1
            keyLen := UInt32.ofNat key.length
            valLen := UInt32.ofNat value.length
            dataOffset := (A.allocate arena (key.length + value.length) 8).1 }
        have hlive : entry.Live := two_le_hashKey digest key
        have hsize : entry.dataSize = key.length + value.length := by
          show (UInt32.ofNat key.length).toNat + (UInt32.ofNat value.length).toNat = _
          rw [toNat_ofNat_length hshort.1, toNat_ofNat_length hshort.2]
        have hentries := entriesPresent_setEntry table index entry
        have hbytes := bytesPresent_setEntry table index entry
        rw [Entry.count_of_vacant hvacant, Entry.count_of_live hlive] at hentries
        rw [Entry.bytes_of_vacant hvacant, Entry.bytes_of_live hlive, hsize] at hbytes
        exact .added _ index hshort hfind hoffset hentries hbytes

/-- What a removal that returns does. -/
inductive Removed (digest : Bytes → UInt64) (table : HashTable bits) (memory : Memory UInt8)
    (key : Bytes) : Option Nat → HashTable bits → Prop where
  | nothing
      (hfind : ∀ index, table.findEntry memory key (hashKey digest key) ≠ some (index, true)) :
      Removed digest table memory key none table
  | entry (table' : HashTable bits) (index : Fin (2 ^ bits.val))
      (hfind : table.findEntry memory key (hashKey digest key) = some (index, true))
      (hentries : table'.entriesPresent + 1 = table.entriesPresent)
      (hbytes : table'.bytesPresent + (table.entries index).dataSize = table.bytesPresent) :
      Removed digest table memory key (some ((table.entries index).dataSize % 2 ^ 32)) table'

theorem removed {result : Option Nat}
    (h : table.remove A digest arena key = some (result, table', arena')) :
    Removed digest table arena.memory key result table' := by
  rw [remove] at h
  split at h
  next => cases h
  next index hfind =>
    have hlive := live_of_findEntry hfind
    simp only at h
    split at h
    next htombstone => exact absurd (of_decide_eq_true htombstone) hlive.2
    next =>
      cases h
      have hentries := entriesPresent_setEntry table index (table.entries index).markTombstone
      have hbytes := bytesPresent_setEntry table index (table.entries index).markTombstone
      rw [Entry.count_of_live hlive, Entry.count_markTombstone] at hentries
      rw [Entry.bytes_of_live hlive, Entry.bytes_markTombstone] at hbytes
      rw [dataSize_mod]
      exact .entry _ index hfind hentries hbytes
  next index hfind =>
    cases h
    refine .nothing fun other hother => ?_
    rw [hfind] at hother
    cases hother

/-- What a compare-and-swap that returns does. -/
inductive Swapped (A : Arena β) (digest : Bytes → UInt64) (table : HashTable bits)
    (arena : ArenaState β) (key : Bytes) (expectedVersion : UInt64) (newValue : Bytes) :
    HashTable bits → Prop where
  | nothing (h : ∀ index,
      table.findEntry arena.memory key (hashKey digest key) = some (index, true) →
        (table.entries index).version = expectedVersion →
          (resize A arena (table.entries index)
            ((table.entries index).keyLen.toNat + newValue.length)).1 = none) :
      Swapped A digest table arena key expectedVersion newValue table
  | stored (table' : HashTable bits) (index : Fin (2 ^ bits.val))
      (hfind : table.findEntry arena.memory key (hashKey digest key) = some (index, true))
      (hversion : (table.entries index).version = expectedVersion)
      (hresize : (resize A arena (table.entries index)
        ((table.entries index).keyLen.toNat + newValue.length)).1 ≠ none)
      (hentries : table'.entriesPresent = table.entriesPresent)
      (hbytes : table'.bytesPresent + (table.entries index).valLen.toNat =
        table.bytesPresent + newValue.length % 2 ^ 32) :
      Swapped A digest table arena key expectedVersion newValue table'

theorem swapped {expectedVersion : UInt64} {result : Except KvError UInt64}
    (h : table.cas A digest arena key expectedVersion value = some (result, table', arena')) :
    Swapped A digest table arena key expectedVersion value table' := by
  rw [cas] at h
  split at h
  next => cases h
  next index hfind =>
    cases h
    refine .nothing fun other hother => ?_
    rw [hfind] at hother
    cases hother
  next index hfind =>
    have hlive := live_of_findEntry hfind
    -- nothing is stored where the entry found is not to be swapped
    have hnothing (hno : (table.entries index).version = expectedVersion →
        (resize A arena (table.entries index)
          ((table.entries index).keyLen.toNat + value.length)).1 = none) :
        Swapped A digest table arena key expectedVersion value table := by
      refine .nothing fun other hother => ?_
      obtain rfl := congrArg Prod.fst (Option.some.inj (hfind.symm.trans hother))
      exact hno
    simp only at h
    split at h
    next hversion =>
      cases h
      exact hnothing fun heq => absurd heq hversion
    next hversion =>
      rw [not_not] at hversion
      split at h
      next hresize =>
        cases h
        exact hnothing fun _ => by rw [hresize]
      next offset _ hresize =>
        cases h
        refine .stored _ index hfind hversion (by rw [hresize]; simp)
          (entriesPresent_setEntry_of_live hlive hlive) ?_
        have hbytes := bytesPresent_setEntry_of_live
          { table.entries index with
            dataOffset := offset
            valLen := UInt32.ofNat value.length
            version := (table.entries index).version + 1 } hlive hlive
        simp only [Entry.dataSize, UInt32.toNat_ofNat'] at hbytes
        omega

/-! ## The counter of the table -/

/-- The table counts its own entries through every call. -/
theorem sized_step {call : Call} {reply : Reply}
    (hsized : table.size.toNat = table.entriesPresent)
    (hstep : table.step A digest arena call = some (reply, table', arena')) :
    table'.size.toNat = table'.entriesPresent := by
  cases call with
  | insert key value =>
    simp only [step, Option.bind_eq_bind, Option.bind_eq_some_iff, Option.pure_def,
      Option.some.injEq, Prod.exists, Prod.mk.injEq] at hstep
    obtain ⟨result, next, _, hinsert, -, rfl, rfl⟩ := hstep
    have hsize := insert_size hinsert
    have hlimit := next.entriesPresent_le
    have hpow := two_pow_lt_two_pow_64 bits
    cases inserted hinsert with
    | tooLong => exact hsized
    | noRoom => exact hsized
    | noBlock => exact hsized
    | overwrote _ index _ _ _ hentries =>
      rw [if_neg (by simp)] at hsize
      rw [hsize, hentries, hsized]
    | added _ index _ _ _ hentries =>
      rw [if_pos rfl] at hsize
      rw [hsize, hentries, ← hsized]
      exact toNat_add_one (by omega)
  | get key =>
    simp only [step, Option.bind_eq_bind, Option.bind_eq_some_iff, Option.pure_def,
      Option.some.injEq, Prod.mk.injEq] at hstep
    obtain ⟨_, _, _, rfl, _⟩ := hstep
    exact hsized
  | remove key =>
    simp only [step, Option.bind_eq_bind, Option.bind_eq_some_iff, Option.pure_def,
      Option.some.injEq, Prod.exists, Prod.mk.injEq] at hstep
    obtain ⟨result, _, _, hremove, -, rfl, rfl⟩ := hstep
    have hsize := remove_size hremove
    cases removed hremove with
    | nothing => exact hsized
    | entry _ index _ hentries =>
      rw [Option.isSome_some, if_pos rfl] at hsize
      rw [hsize, toNat_sub_one (by omega)]
      omega
  | cas key expectedVersion newValue =>
    simp only [step, Option.bind_eq_bind, Option.bind_eq_some_iff, Option.pure_def,
      Option.some.injEq, Prod.exists, Prod.mk.injEq] at hstep
    obtain ⟨result, _, _, hcas, -, rfl, rfl⟩ := hstep
    have hsize := cas_size hcas
    cases swapped hcas with
    | nothing => exact hsized
    | stored _ index _ _ _ hentries => rw [hsize, hentries, hsized]

end HashTable

/-! ## The keys of a map -/

theorem sum_map_filterMap {α β : Type} (g : α → Option β) (f : β → Nat) (l : List α) :
    (l.map fun a => (g a).elim 0 f).sum = ((l.filterMap g).map f).sum := by
  induction l with
  | nil => rfl
  | cons a l ih =>
    rw [List.map_cons, List.sum_cons, ih, List.filterMap_cons]
    cases g a with
    | none => exact Nat.zero_add _
    | some b => rfl

namespace HashTable

section

variable {bits : Fin 64} {σ : Type} [DecidableEq σ] {digest : Bytes → UInt64} {route : Bytes → σ}
  {tables : σ → HashTable bits} {memory : Memory UInt8} {map : VersionedMap Bytes Bytes}

/-- What an entry that is present holds. -/
def held (memory : Memory UInt8) (entry : Entry) : Option (Bytes × Versioned Bytes) :=
  if entry.Live then
    some (memory.read entry.keyBlock, ⟨entry.valueOf memory, entry.version⟩)
  else none

theorem held_eq_some_iff {entry : Entry} {key : Bytes} {current : Versioned Bytes} :
    held memory entry = some (key, current) ↔ entry.Stores memory key current := by
  rw [held, Entry.Stores, Entry.slot_eq_full]
  split
  next hlive =>
    rw [Option.some.injEq, Prod.mk.injEq, and_iff_right hlive]
    exact and_congr_right fun _ => eq_comm
  next hdead => simp [hdead]

/-- The keys of one table. -/
def keysIn (route : Bytes → σ) (map : VersionedMap Bytes Bytes) (s : σ) :
    List (Bytes × Versioned Bytes) := map.toList.filter fun entry => route entry.1 = s

omit [DecidableEq σ] in
theorem table_of_stores (h : TablesHold digest route tables memory map) {s : σ}
    {index : Fin (2 ^ bits.val)} {key : Bytes} {current : Versioned Bytes}
    (hstores : ((tables s).entries index).Stores memory key current) : route key = s := by
  have hslot : (entriesOf tables (s, index)).slot memory = .full key := hstores.1
  obtain ⟨d, hd, -⟩ := h.chained.reached hslot
  have hiter (d : Nat) (place : σ × Fin (2 ^ bits.val)) : (nextIn^[d] place).1 = place.1 := by
    induction d generalizing place with
    | zero => rfl
    | succ d ih => exact ih (nextIn place)
  have hplace := hiter d (homeIn digest route bits key)
  rw [hd] at hplace
  exact hplace.symm

theorem held_perm (h : TablesHold digest route tables memory map) (s : σ) :
    ((List.finRange (2 ^ bits.val)).filterMap fun index =>
      held memory ((tables s).entries index)).Perm (keysIn route map s) := by
  have hdistinct : ∀ i j : Fin (2 ^ bits.val), ∀ entry,
      entry ∈ held memory ((tables s).entries i) → entry ∈ held memory ((tables s).entries j) →
        i = j := by
    rintro i j ⟨key, current⟩ hi hj
    have hslot := (held_eq_some_iff.mp hi).1
    have hslot' := (held_eq_some_iff.mp hj).1
    have heq := h.chained.distinct (i := (s, i)) (j := (s, j)) hslot hslot'
    exact congrArg Prod.snd heq
  rw [keysIn, List.perm_ext_iff_of_nodup ((List.nodup_finRange _).filterMap hdistinct)
    ((toList_nodup map).filter _)]
  rintro ⟨key, current⟩
  rw [List.mem_filterMap, List.mem_filter, decide_eq_true_eq,
    Std.ExtTreeMap.mem_toList_iff_getElem?_eq_some, h.stored]
  constructor
  · rintro ⟨index, -, hheld⟩
    have hstores := held_eq_some_iff.mp hheld
    exact ⟨⟨(s, index), hstores⟩, table_of_stores h hstores⟩
  · rintro ⟨⟨⟨s', index⟩, hstores⟩, hroute⟩
    obtain rfl := (table_of_stores h hstores).symm.trans hroute
    exact ⟨index, List.mem_finRange index, held_eq_some_iff.mpr hstores⟩

theorem sum_held (h : TablesHold digest route tables memory map) (s : σ)
    (measure : Bytes × Versioned Bytes → Nat) :
    ∑ index, (held memory ((tables s).entries index)).elim 0 measure =
      ((keysIn route map s).map measure).sum := by
  rw [Fin.sum_univ_def, sum_map_filterMap]
  exact ((held_perm h s).map measure).sum_nat

theorem entriesPresent_eq (h : TablesHold digest route tables memory map) (s : σ) :
    (tables s).entriesPresent = (keysIn route map s).length := by
  have hsum := sum_held h s fun _ => 1
  rw [List.map_const', List.sum_replicate, smul_eq_mul, mul_one] at hsum
  rw [← hsum]
  apply Finset.sum_congr rfl
  intro index _
  unfold Entry.count held
  split
  · rfl
  · rfl

def lengths (entry : Bytes × Versioned Bytes) : Nat := entry.1.length + entry.2.value.length

theorem bytesPresent_eq (h : TablesHold digest route tables memory map) (s : σ) :
    (tables s).bytesPresent = ((keysIn route map s).map lengths).sum := by
  rw [← sum_held h s lengths]
  apply Finset.sum_congr rfl
  intro index _
  unfold Entry.bytes held
  split
  · show _ = (memory.read _).length + (memory.read _).length
    rw [Memory.length_read, Memory.length_read]
    rfl
  · rfl

end

end HashTable

end VedDb
