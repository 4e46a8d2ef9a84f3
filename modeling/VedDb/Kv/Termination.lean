import Mathlib.Data.Fintype.EquivFin
import Mathlib.Data.Fintype.List
import VedDb.Kv.CompareAndSwap

/-!
# Calls that return

The probe of `find_entry` goes round the whole table, so it ends exactly where some entry is empty
or holds the key.  A remove leaves a tombstone, which no insert takes, so the empty entries only
become fewer: every call returns as long as no insert takes the last one.
-/

namespace VedDb

open LittleEndian (Bytes)
open Probing (search)

namespace HashTable

variable {bits : Fin 64} (table : HashTable bits) (memory : Memory UInt8) (hash : UInt64)
  (key : Bytes)

/-! ## The probe of one key -/

def Vacant (index : Fin (2 ^ bits.val)) : Prop := (table.entries index).hash = Entry.emptyHash

instance (index : Fin (2 ^ bits.val)) : Decidable (table.Vacant index) :=
  inferInstanceAs (Decidable (_ = _))

def Matches (index : Fin (2 ^ bits.val)) : Prop :=
  (table.entries index).hash = hash ∧ (table.entries index).keysEqual memory key = true

instance (index : Fin (2 ^ bits.val)) : Decidable (table.Matches memory hash key index) :=
  inferInstanceAs (Decidable (_ ∧ _))

/-- On the way from the home of the hash an entry with the key comes before every empty one. -/
def Reached (index : Fin (2 ^ bits.val)) : Prop :=
  ∃ d, nextPosition^[d] (position bits hash) = index ∧ table.Matches memory hash key index ∧
    ∀ e < d, ¬table.Vacant (nextPosition^[e] (position bits hash)) ∧
      ¬table.Matches memory hash key (nextPosition^[e] (position bits hash))

/-- The probe returns, after however many entries. -/
def ProbeEnds : Prop :=
  ∃ fuel found, table.findEntryFrom memory key hash fuel (position bits hash) = some found

variable {table memory hash key} {index : Fin (2 ^ bits.val)} {isMatch : Bool}

theorem findEntryFrom_eq_search (fuel : Nat) (index : Fin (2 ^ bits.val)) :
    table.findEntryFrom memory key hash fuel index =
      (search nextPosition
        (fun i => decide (table.Vacant i ∨ table.Matches memory hash key i)) fuel index).map
        fun i => (i, decide (¬table.Vacant i)) := by
  induction fuel generalizing index with
  | zero => rfl
  | succ fuel ih =>
    rw [findEntryFrom, search]
    by_cases hvacant : table.Vacant index
    · have hempty : (table.entries index).hash = Entry.emptyHash := hvacant
      rw [if_pos hempty, if_pos (by simp [hvacant]), Option.map_some]
      simp [hvacant]
    · have hempty : (table.entries index).hash ≠ Entry.emptyHash := hvacant
      rw [if_neg hempty]
      by_cases hmatch : table.Matches memory hash key index
      · rw [if_pos (by simpa [Matches] using hmatch), if_pos (by simp [hmatch]), Option.map_some]
        simp [hvacant]
      · rw [if_neg (by simpa [Matches] using hmatch), if_neg (by simp [hvacant, hmatch]), ih]

theorem iterate_nextPosition_cycle (index : Fin (2 ^ bits.val)) :
    nextPosition^[2 ^ bits.val] index = index := by
  apply Fin.ext
  rw [iterate_nextPosition_val, Nat.add_mod_right]
  exact Nat.mod_eq_of_lt index.isLt

/-- The probe comes by every entry within one round. -/
theorem exists_iterate_nextPosition (start index : Fin (2 ^ bits.val)) :
    ∃ d < 2 ^ bits.val, nextPosition^[d] start = index := by
  refine ⟨(index.val + (2 ^ bits.val - start.val)) % 2 ^ bits.val,
    Nat.mod_lt _ (Nat.two_pow_pos _), Fin.ext ?_⟩
  have hstart := start.isLt
  have hsum : start.val + (index.val + (2 ^ bits.val - start.val)) =
      index.val + 2 ^ bits.val := by omega
  rw [iterate_nextPosition_val, Nat.add_mod_mod, hsum, Nat.add_mod_right]
  exact Nat.mod_eq_of_lt index.isLt

/-- A call that does not return within one round of the table never does, whatever the table
holds. -/
theorem findEntryFrom_none (h : table.findEntry memory key hash = none) (fuel : Nat) :
    table.findEntryFrom memory key hash fuel (position bits hash) = none := by
  rw [findEntry, findEntryFrom_eq_search, Option.map_eq_none_iff] at h
  rw [findEntryFrom_eq_search, Option.map_eq_none_iff]
  exact Probing.search_eq_none_of_cycle (Nat.two_pow_pos _) (iterate_nextPosition_cycle _) h fuel

theorem findEntry_isSome_iff :
    (table.findEntry memory key hash).isSome ↔
      ∃ index, table.Vacant index ∨ table.Matches memory hash key index := by
  rw [← not_iff_not, Bool.not_eq_true, Option.isSome_eq_false_iff, Option.isNone_iff_eq_none,
    findEntry, findEntryFrom_eq_search, Option.map_eq_none_iff, Probing.search_eq_none_iff]
  constructor
  · rintro h ⟨index, hstop⟩
    obtain ⟨d, hd, hindex⟩ := exists_iterate_nextPosition (position bits hash) index
    have hpass := h d hd
    rw [hindex] at hpass
    exact of_decide_eq_false hpass hstop
  · intro h d _
    exact decide_eq_false fun hstop => h ⟨_, hstop⟩

theorem probeEnds_iff :
    table.ProbeEnds memory hash key ↔
      ∃ index, table.Vacant index ∨ table.Matches memory hash key index := by
  rw [← findEntry_isSome_iff]
  constructor
  · rintro ⟨fuel, found, hfound⟩
    cases hfind : table.findEntry memory key hash with
    | some _ => rfl
    | none =>
      rw [findEntryFrom_none hfind] at hfound
      cases hfound
  · intro h
    obtain ⟨found, hfound⟩ := Option.isSome_iff_exists.mp h
    exact ⟨_, found, hfound⟩

theorem findEntry_passed (h : table.findEntry memory key hash = some (index, isMatch)) :
    isMatch = decide (¬table.Vacant index) ∧
      (table.Vacant index ∨ table.Matches memory hash key index) ∧
      ∃ d, nextPosition^[d] (position bits hash) = index ∧
        ∀ e < d, ¬table.Vacant (nextPosition^[e] (position bits hash)) ∧
          ¬table.Matches memory hash key (nextPosition^[e] (position bits hash)) := by
  rw [findEntry, findEntryFrom_eq_search, Option.map_eq_some_iff] at h
  obtain ⟨i, hsearch, heq⟩ := h
  cases heq
  obtain ⟨d, hd, hstop, hbefore⟩ := Probing.search_spec hsearch
  exact ⟨rfl, of_decide_eq_true hstop, d, hd,
    fun e he => not_or.mp (of_decide_eq_false (hbefore e he))⟩

theorem reached_of_findEntry (h : table.findEntry memory key hash = some (index, true)) :
    table.Reached memory hash key index := by
  obtain ⟨hmatch, hstop, d, hd, hbefore⟩ := findEntry_passed h
  exact ⟨d, hd, hstop.resolve_left (of_decide_eq_true hmatch.symm), hbefore⟩

/-- A probe stops once. -/
theorem Reached.unique {i j : Fin (2 ^ bits.val)} (hi : table.Reached memory hash key i)
    (hj : table.Reached memory hash key j) : i = j := by
  obtain ⟨d, rfl, hmatch, hbefore⟩ := hi
  obtain ⟨d', rfl, hmatch', hbefore'⟩ := hj
  rcases Nat.lt_trichotomy d d' with hlt | heq | hgt
  · exact absurd hmatch (hbefore' d hlt).2
  · rw [heq]
  · exact absurd hmatch' (hbefore d' hgt).2

theorem vacant_of_findEntry (h : table.findEntry memory key hash = some (index, false)) :
    table.Vacant index := by
  obtain ⟨hmatch, _⟩ := findEntry_passed h
  exact not_not.mp (of_decide_eq_false hmatch.symm)

theorem not_reached_of_findEntry (hhash : hash ≠ Entry.emptyHash)
    (h : table.findEntry memory key hash = some (index, false)) (i : Fin (2 ^ bits.val)) :
    ¬table.Reached memory hash key i := by
  have hvacant := vacant_of_findEntry h
  obtain ⟨_, _, d, hd, hbefore⟩ := findEntry_passed h
  rintro ⟨d', hd', hmatch, hbefore'⟩
  rcases Nat.lt_trichotomy d d' with hlt | heq | hgt
  · exact (hbefore' d hlt).1 (hd ▸ hvacant)
  · rw [← hd', ← heq, hd] at hmatch
    exact hhash (hmatch.1.symm.trans hvacant)
  · exact (hbefore d' hgt).2 (hd' ▸ hmatch)

/-! ## Empty entries -/

section

variable {β : Type} (A : Arena β) (digest : Bytes → UInt64) (table) (arena : ArenaState β)

/-- The call puts a new entry into the table. -/
def Adds : Call → Prop
  | .insert key value =>
    (key.length < 2 ^ 32 ∧ value.length < 2 ^ 32) ∧
      (∀ index, ¬table.Reached arena.memory (hashKey digest key) key index) ∧
        (A.allocate arena (key.length + value.length) 8).1 ≠ 0
  | .get _ | .remove _ | .cas .. => False

variable {A digest table arena} {table' : HashTable bits} {arena' : ArenaState β} {value : Bytes}
  {entry : Entry}

theorem vacant_setEntry (hentry : entry.hash ≠ Entry.emptyHash) (hindex : ¬table.Vacant index)
    (i : Fin (2 ^ bits.val)) : (table.setEntry index entry).Vacant i ↔ table.Vacant i := by
  show (Function.update table.entries index entry i).hash = Entry.emptyHash ↔ _
  rw [Function.update_apply]
  split
  next heq =>
    rw [heq]
    exact iff_of_false hentry hindex
  next => rfl

/-- Writing an entry that is not empty where there was none. -/
theorem vacant_setEntry_of_vacant (hentry : entry.hash ≠ Entry.emptyHash)
    (i : Fin (2 ^ bits.val)) :
    (table.setEntry index entry).Vacant i ↔ table.Vacant i ∧ i ≠ index := by
  show (Function.update table.entries index entry i).hash = Entry.emptyHash ↔ _
  rw [Function.update_apply]
  split
  next heq => exact iff_of_false hentry fun h => h.2 heq
  next hne => exact (and_iff_left hne).symm

theorem Reached.not_vacant (h : table.Reached arena.memory (hashKey digest key) key index) :
    ¬table.Vacant index := by
  obtain ⟨_, _, hmatch, _⟩ := h
  intro hvacant
  exact (two_le_hashKey digest key).1 (hmatch.1.symm.trans hvacant)

/-- A call whose probe ends returns. -/
theorem step_isSome {call : Call}
    (hfind : table.findEntry arena.memory call.key (hashKey digest call.key) ≠ none) :
    (table.step A digest arena call).isSome := by
  obtain ⟨⟨index, isMatch⟩, hfind⟩ := Option.ne_none_iff_exists'.mp hfind
  cases call with
  | insert key value =>
    dsimp only [Call.key] at hfind
    rw [step, insert]
    split
    next => rfl
    next =>
      dsimp only
      rw [hfind]
      cases isMatch with
      | true =>
        dsimp only
        split
        next => rfl
        next => rfl
      | false =>
        dsimp only
        split
        next => rfl
        next => rfl
  | get key =>
    dsimp only [Call.key] at hfind
    rw [step, get, hfind]
    cases isMatch with
    | true => rfl
    | false => rfl
  | remove key =>
    dsimp only [Call.key] at hfind
    rw [step, remove, hfind]
    cases isMatch with
    | true =>
      dsimp only
      split
      next => rfl
      next => rfl
    | false => rfl
  | cas key expectedVersion newValue =>
    dsimp only [Call.key] at hfind
    rw [step, cas, hfind]
    cases isMatch with
    | true =>
      dsimp only
      split
      next => rfl
      next =>
        split
        next => rfl
        next => rfl
    | false => rfl

/-- What a call leaves of the empty entries. -/
inductive Leaves (table table' : HashTable bits) (adds : Prop) : Prop where
  | all (hadds : ¬adds) (h : ∀ i, table'.Vacant i ↔ table.Vacant i)
  | butOne (hadds : adds) (index : Fin (2 ^ bits.val)) (hvacant : table.Vacant index)
      (h : ∀ i, table'.Vacant i ↔ table.Vacant i ∧ i ≠ index)

theorem insert_leaves {result : Except KvError Bool}
    (h : table.insert A digest arena key value = some (result, table', arena')) :
    Leaves table table' (table.Adds A digest arena (.insert key value)) := by
  rw [insert] at h
  split at h
  next hlong =>
    cases h
    exact .all (fun hadds => by have := hadds.1; omega) fun _ => Iff.rfl
  next hshort =>
    simp only at h
    split at h
    next => cases h
    next index hfind =>
      have hreached := reached_of_findEntry hfind
      have hadds : ¬table.Adds A digest arena (.insert key value) :=
        fun hadds => hadds.2.1 index hreached
      split at h
      next =>
        cases h
        exact .all hadds fun _ => Iff.rfl
      next =>
        cases h
        exact .all hadds (vacant_setEntry hreached.not_vacant hreached.not_vacant)
    next index hfind =>
      split at h
      next hoffset =>
        cases h
        exact .all (fun hadds => hadds.2.2 hoffset) fun _ => Iff.rfl
      next hoffset =>
        cases h
        have hhash := (two_le_hashKey digest key).1
        refine .butOne ⟨by omega, not_reached_of_findEntry hhash hfind, hoffset⟩ index
          (vacant_of_findEntry hfind) (vacant_setEntry_of_vacant hhash)

theorem remove_leaves {removed : Option Nat}
    (h : table.remove A digest arena key = some (removed, table', arena')) :
    Leaves table table' False := by
  rw [remove] at h
  split at h
  next => cases h
  next index hfind =>
    simp only at h
    split at h
    next =>
      cases h
      exact .all not_false fun _ => Iff.rfl
    next =>
      cases h
      refine .all not_false (vacant_setEntry ?_ (reached_of_findEntry hfind).not_vacant)
      exact (by decide : Entry.tombstoneHash ≠ Entry.emptyHash)
  next =>
    cases h
    exact .all not_false fun _ => Iff.rfl

theorem cas_leaves {expectedVersion : UInt64} {result : Except KvError UInt64}
    (h : table.cas A digest arena key expectedVersion value = some (result, table', arena')) :
    Leaves table table' False := by
  rw [cas] at h
  split at h
  next => cases h
  next =>
    cases h
    exact .all not_false fun _ => Iff.rfl
  next index hfind =>
    have hreached := reached_of_findEntry hfind
    simp only at h
    split at h
    next =>
      cases h
      exact .all not_false fun _ => Iff.rfl
    next =>
      split at h
      next =>
        cases h
        exact .all not_false fun _ => Iff.rfl
      next =>
        cases h
        exact .all not_false (vacant_setEntry hreached.not_vacant hreached.not_vacant)

theorem step_leaves {call : Call} {reply : Reply}
    (h : table.step A digest arena call = some (reply, table', arena')) :
    Leaves table table' (table.Adds A digest arena call) := by
  cases call with
  | insert key value =>
    simp only [step, Option.bind_eq_bind, Option.bind_eq_some_iff, Option.pure_def,
      Option.some.injEq, Prod.exists, Prod.mk.injEq] at h
    rcases h with ⟨result, _, _, hinsert, _, rfl, rfl⟩
    exact insert_leaves hinsert
  | get key =>
    simp only [step, Option.bind_eq_bind, Option.bind_eq_some_iff, Option.pure_def,
      Option.some.injEq, Prod.mk.injEq] at h
    rcases h with ⟨_, _, _, rfl, _⟩
    exact .all not_false fun _ => Iff.rfl
  | remove key =>
    simp only [step, Option.bind_eq_bind, Option.bind_eq_some_iff, Option.pure_def,
      Option.some.injEq, Prod.exists, Prod.mk.injEq] at h
    rcases h with ⟨_, _, _, hremove, _, rfl, _⟩
    exact remove_leaves hremove
  | cas key expectedVersion newValue =>
    simp only [step, Option.bind_eq_bind, Option.bind_eq_some_iff, Option.pure_def,
      Option.some.injEq, Prod.exists, Prod.mk.injEq] at h
    rcases h with ⟨_, _, _, hcas, _, rfl, _⟩
    exact cas_leaves hcas

end

/-! ## Runs -/

namespace Shared

variable {β : Type} (A : Arena β) (digest : Bytes → UInt64)

def Returns (s : Shared bits β) : Prop :=
  (∀ key, s.table.ProbeEnds s.arena.memory (hashKey digest key) key) ∧
    ∀ call, (s.table.step A digest s.arena call).isSome

/-- A call that puts a new entry into the table leaves another entry empty. -/
def Spares (s : Shared bits β) (call : Call) : Prop :=
  s.table.Adds A digest s.arena call → ∃ i j, i ≠ j ∧ s.table.Vacant i ∧ s.table.Vacant j

variable {A digest} {s : Shared bits β}

theorem exists_absent_key (table : HashTable bits) (memory : Memory UInt8) :
    ∃ key, ∀ hash index, ¬table.Matches memory hash key index := by
  classical
  obtain ⟨key, hkey⟩ := Infinite.exists_notMem_finset
    (Finset.univ.image fun index => memory.read (table.entries index).keyBlock)
  refine ⟨key, fun hash index hmatch => hkey ?_⟩
  have hkeys := hmatch.2
  rw [Entry.keysEqual, Bool.and_eq_true] at hkeys
  exact Finset.mem_image.mpr ⟨index, Finset.mem_univ _, of_decide_eq_true hkeys.2⟩

theorem returns_iff : s.Returns A digest ↔ ∃ index, s.table.Vacant index := by
  constructor
  · rintro ⟨hprobes, _⟩
    obtain ⟨key, habsent⟩ := exists_absent_key s.table s.arena.memory
    obtain ⟨index, hstop⟩ := probeEnds_iff.mp (hprobes key)
    exact ⟨index, hstop.resolve_right (habsent _ index)⟩
  · rintro ⟨index, hvacant⟩
    refine ⟨fun key => probeEnds_iff.mpr ⟨index, .inl hvacant⟩, fun call => ?_⟩
    refine step_isSome (Option.isSome_iff_ne_none.mp ?_)
    exact findEntry_isSome_iff.mpr ⟨index, .inl hvacant⟩

theorem returns_start (arena : ArenaState β) : (start bits arena).Returns A digest :=
  returns_iff.mpr ⟨⟨0, Nat.two_pow_pos _⟩, rfl⟩

/-- A call leaves an empty entry exactly where it does not take the last one. -/
theorem returns_after (h : s.Returns A digest) (call : Call) :
    (s.after A digest call).Returns A digest ↔ s.Spares A digest call := by
  obtain ⟨vacant, hvacant⟩ := returns_iff.mp h
  obtain ⟨⟨reply, table, arena⟩, hstep⟩ := Option.isSome_iff_exists.mp (h.2 call)
  have htable : (s.after A digest call).table = table := by
    rw [after, hstep]
  rw [returns_iff, htable, Spares]
  cases step_leaves hstep with
  | all hadds hall => exact iff_of_true ⟨vacant, (hall vacant).mpr hvacant⟩ (absurd · hadds)
  | butOne hadds index hindex hbutOne =>
    constructor
    · rintro ⟨i, hi⟩ _
      obtain ⟨hi, hne⟩ := (hbutOne i).mp hi
      exact ⟨i, index, hne, hi, hindex⟩
    · intro hspares
      obtain ⟨i, j, hne, hi, hj⟩ := hspares hadds
      by_cases heq : i = index
      · exact ⟨j, (hbutOne j).mpr ⟨hj, fun h => hne (heq.trans h.symm)⟩⟩
      · exact ⟨i, (hbutOne i).mpr ⟨hi, heq⟩⟩

/-- In every state of a run the probes of all keys end and every call returns, exactly where no call
of the run takes the last empty entry. -/
theorem returns_along_iff (A : Arena β) (digest : Bytes → UInt64) (arena : ArenaState β)
    (calls : List Call) :
    (∀ n, ((calls.take n).foldl (after A digest) (start bits arena)).Returns A digest) ↔
      MeetsAlong (after A digest) (Spares A digest) (start bits arena) calls :=
  forall_take_iff_meetsAlong (Returns A digest) (fun _ => True) (fun _ _ => trivial)
    (fun _ h => returns_after h _) trivial (returns_start arena)

/-- Four keys in a table of four entries: the probe of a fifth key goes round for ever. -/
theorem full_table_never_returns :
    let s := [Call.insert [1] [], .insert [2] [], .insert [3] [], .insert [4] []].foldl
      (after SharedArena.arena fnv1a) (start 2 (SharedArena.init 4096))
    (∀ fuel, s.table.findEntryFrom s.arena.memory [5] (hashKey fnv1a [5]) fuel
      (position 2 (hashKey fnv1a [5])) = none) ∧
      (s.table.step SharedArena.arena fnv1a s.arena (.get [5])).isNone ∧
      (s.table.step SharedArena.arena fnv1a s.arena (.insert [5] [6])).isNone := by
  refine ⟨findEntryFrom_none ?_, ?_, ?_⟩
  · decide +kernel
  · decide +kernel
  · decide +kernel

end Shared

end HashTable

end VedDb
