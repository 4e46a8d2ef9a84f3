import VedDb.Kv.ArenaBlocks
import VedDb.Kv.Refinement

/-!
# Runs of one table

A run of calls that all return gives the replies of a versioned map, whatever keys collide, and its
counter is the number of keys present.
-/

namespace VedDb

open LittleEndian (Bytes)

namespace HashTable

variable {bits : Fin 64} {β : Type} {A : Arena β} {digest : Bytes → UInt64}
  {table table' : HashTable bits} {arena arena' : ArenaState β} {map : VersionedMap Bytes Bytes}
  {key value : Bytes}

/-- The table as the only one of its arena. -/
def alone (table : HashTable bits) : Unit → HashTable bits := fun _ => table

theorem update_alone (table table' : HashTable bits) :
    Function.update (alone table) () table' = alone table' := by
  funext u
  rw [Function.update_self]
  rfl

abbrev Represents (digest : Bytes → UInt64) (table : HashTable bits) (memory : Memory UInt8)
    (map : VersionedMap Bytes Bytes) : Prop :=
  TablesHold digest (fun _ => ()) (alone table) memory map

def ServesAlong (A : Arena β) (digest : Bytes → UInt64) (table : HashTable bits)
    (arena : ArenaState β) : List Call → Prop
  | [] => True
  | call :: calls =>
    Serves A digest (fun _ => ()) (alone table) arena call ∧
      match table.step A digest arena call with
      | none => True
      | some (_, table, arena) => ServesAlong A digest table arena calls

def decidableServesAlong (table : HashTable bits) (arena : ArenaState β) :
    (calls : List Call) → Decidable (ServesAlong A digest table arena calls)
  | [] => .isTrue trivial
  | call :: calls =>
    match h : table.step A digest arena call with
    | none =>
      decidable_of_iff (Serves A digest (fun _ => ()) (alone table) arena call)
        (by simp [ServesAlong, h])
    | some (_, next, nextArena) =>
      have := decidableServesAlong next nextArena calls
      decidable_of_iff (Serves A digest (fun _ => ()) (alone table) arena call ∧
        ServesAlong A digest next nextArena calls) (by simp [ServesAlong, h])

instance {calls : List Call} : Decidable (ServesAlong A digest table arena calls) :=
  decidableServesAlong table arena calls

/-! ## The size counter -/

theorem insert_size {result : Except KvError Bool}
    (h : table.insert A digest arena key value = some (result, table', arena')) :
    table'.size = if result = .ok true then table.size + 1 else table.size := by
  rw [insert] at h
  split at h
  · cases h
    rfl
  · simp only at h
    split at h
    · cases h
    · split at h
      · cases h
        rfl
      · cases h
        rfl
    · split at h
      · cases h
        rfl
      · cases h
        rfl

theorem remove_size {removed : Option Nat}
    (h : table.remove A digest arena key = some (removed, table', arena')) :
    table'.size = if removed.isSome then table.size - 1 else table.size := by
  rw [remove] at h
  split at h
  · cases h
  · simp only at h
    split at h
    · cases h
      rfl
    · cases h
      rfl
  · cases h
    rfl

theorem cas_size {expectedVersion : UInt64} {result : Except KvError UInt64}
    (h : table.cas A digest arena key expectedVersion value = some (result, table', arena')) :
    table'.size = table.size := by
  rw [cas] at h
  split at h
  · cases h
  · cases h
    rfl
  · simp only at h
    split at h
    · cases h
      rfl
    · split at h
      · cases h
        rfl
      · cases h
        rfl

/-- A compare-and-swap adds and removes no key. -/
theorem size_cas (map : VersionedMap Bytes Bytes) (key : Bytes) (expectedVersion : UInt64)
    (value : Bytes) : (map.cas key expectedVersion value).2.size = map.size := by
  cases hlookup : map[key]? with
  | none => rw [VersionedMap.cas_of_none hlookup]
  | some current =>
    by_cases hversion : current.version = expectedVersion
    · rw [VersionedMap.cas_of_eq hlookup hversion, Std.ExtTreeMap.size_insert, if_pos]
      rw [Std.ExtTreeMap.contains_eq_isSome_getElem?, hlookup]
      rfl
    · rw [VersionedMap.cas_of_ne hlookup hversion]

theorem size_pos_of_lookup {current : Versioned Bytes} (h : map[key]? = some current) :
    1 ≤ map.size := by
  apply Nat.one_le_iff_ne_zero.mpr
  intro hzero
  rw [Std.ExtTreeMap.eq_empty_iff_size_eq_zero.mpr hzero, Std.ExtTreeMap.getElem?_empty] at h
  cases h

theorem step_size {call : Call} {reply : Reply} (hreply : reply = (call.onMap map).1)
    (hsize : table.size = UInt64.ofNat map.size)
    (hstep : table.step A digest arena call = some (reply, table', arena')) :
    table'.size = UInt64.ofNat (call.onMap map).2.size := by
  cases call with
  | insert key value =>
    simp only [step, Option.bind_eq_bind, Option.bind_eq_some_iff, Option.pure_def,
      Option.some.injEq, Prod.exists, Prod.mk.injEq] at hstep
    rcases hstep with ⟨result, _, _, hinsert, hresult, htable, harena⟩
    subst hresult htable harena
    rw [insert_size hinsert, Reply.inserted.inj hreply, hsize]
    show _ = UInt64.ofNat (map.put key value).size
    rw [VersionedMap.put, Std.ExtTreeMap.size_insert]
    cases map.contains key with
    | true => rfl
    | false => exact (UInt64.ofNat_add map.size 1).symm
  | get key =>
    simp only [step, Option.bind_eq_bind, Option.bind_eq_some_iff, Option.pure_def,
      Option.some.injEq, Prod.mk.injEq] at hstep
    rcases hstep with ⟨_, _, _, htable, _⟩
    rw [← htable, hsize]
    rfl
  | remove key =>
    simp only [step, Option.bind_eq_bind, Option.bind_eq_some_iff, Option.pure_def,
      Option.some.injEq, Prod.exists, Prod.mk.injEq] at hstep
    rcases hstep with ⟨removed, _, _, hremove, hremoved, htable, harena⟩
    subst hremoved htable harena
    rw [remove_size hremove, Reply.removed.inj hreply, hsize, Option.isSome_map]
    show _ = UInt64.ofNat (map.erase key).size
    rw [Std.ExtTreeMap.size_erase, Std.ExtTreeMap.contains_eq_isSome_getElem?]
    cases hlookup : map[key]? with
    | none => rfl
    | some current =>
      exact (UInt64.ofNat_sub (size_pos_of_lookup hlookup)).symm
  | cas key expectedVersion newValue =>
    simp only [step, Option.bind_eq_bind, Option.bind_eq_some_iff, Option.pure_def,
      Option.some.injEq, Prod.exists, Prod.mk.injEq] at hstep
    rcases hstep with ⟨_, _, _, hcas, _, htable, _⟩
    subst htable
    rw [cas_size hcas, hsize]
    exact congrArg UInt64.ofNat (size_cas map key expectedVersion newValue).symm

/-! ## Runs -/

variable {calls : List Call} {replies : List Reply}

theorem run_spec (h : Represents digest table arena.memory map)
    (hsize : table.size = UInt64.ofNat map.size) (hshort : ∀ call ∈ calls, call.Short)
    (hserves : ServesAlong A digest table arena calls)
    (hrun : table.run A digest arena calls = some (replies, table', arena')) :
    replies = (runOnMap map calls).1 ∧
      Represents digest table' arena'.memory (runOnMap map calls).2 ∧
      table'.size = UInt64.ofNat (runOnMap map calls).2.size := by
  induction calls generalizing table arena map replies with
  | nil =>
    cases hrun
    exact ⟨rfl, h, hsize⟩
  | cons call calls ih =>
    simp only [run, Option.bind_eq_bind, Option.bind_eq_some_iff, Option.pure_def,
      Option.some.injEq, Prod.exists, Prod.mk.injEq] at hrun
    have ⟨reply, next, nextArena, hstep, rest, _, _, hrest, hreplies, htable, harena⟩ := hrun
    subst hreplies htable harena
    have ⟨hserved, hafter⟩ := hserves
    rw [hstep] at hafter
    have ⟨hreply, hholds⟩ := step_spec h (hshort call List.mem_cons_self) hserved hstep
    rw [update_alone] at hholds
    have hnext := step_size hreply hsize hstep
    have ⟨hrests, hlast, hlastSize⟩ :=
      ih hholds hnext (fun c hc => hshort c (List.mem_cons_of_mem _ hc)) hafter hrest
    refine ⟨?_, hlast, hlastSize⟩
    rw [hreply, hrests]
    rfl

/-- A run from an empty table refines the run of a versioned map from the empty one. -/
theorem run_refines_map (hshort : ∀ call ∈ calls, call.Short)
    (hserves : ServesAlong A digest (init bits) arena calls)
    (hrun : (init bits).run A digest arena calls = some (replies, table, arena')) :
    replies = (runOnMap ∅ calls).1 ∧ table.size.toNat = (runOnMap ∅ calls).2.size := by
  have ⟨hreplies, hholds, hsize⟩ := run_spec Holds.init rfl hshort hserves hrun
  refine ⟨hreplies, ?_⟩
  have hcard := hholds.size_le_card
  rw [Fintype.card_prod, Fintype.card_unit, Fintype.card_fin, one_mul] at hcard
  have hpow : 2 ^ bits.val ≤ 2 ^ 63 := Nat.pow_le_pow_right (by decide) (by omega)
  rw [hsize]
  apply UInt64.toNat_ofNat_of_lt'
  show _ < 2 ^ 64
  omega

/-- Two keys, one of which grows, shrinks and goes, in a table of four entries. -/
def session : List Call :=
  [.insert [1] [2], .insert [2] [7], .insert [1] [3, 3, 3, 3, 3, 3, 3, 3], .cas [1] 1 [4],
    .cas [1] 1 [5], .get [2], .remove [1], .get [1]]

theorem run_refines_map_session : ∃ replies table arena,
    (init 2).run SharedArena.arena fnv1a (SharedArena.init 4096) session =
        some (replies, table, arena) ∧
      replies = (runOnMap ∅ session).1 ∧ table.size.toNat = (runOnMap ∅ session).2.size := by
  have hreturns :
      ((init 2).run SharedArena.arena fnv1a (SharedArena.init 4096) session).isSome := by
    decide +kernel
  have ⟨⟨replies, table, arena⟩, hrun⟩ := Option.isSome_iff_exists.mp hreturns
  have hshort : ∀ call ∈ session, call.Short := by
    simp [session, Call.Short]
  exact ⟨replies, table, arena, hrun, run_refines_map hshort (by decide +kernel) hrun⟩

end HashTable

end VedDb
