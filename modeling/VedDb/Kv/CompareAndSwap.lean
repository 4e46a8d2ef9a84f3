import VedDb.Kv.Runs
import VedDb.Lib.Runs

/-!
# Compare-and-swap

A compare-and-swap compares versions, so it overwrites only what its client has seen as long as no
version of a key comes back.  An insert over a key keeps its version, and an insert of a key that
was removed starts again at 1; where neither happens, versions only grow.
-/

namespace VedDb

open LittleEndian (Bytes)

namespace HashTable

/-- A call that changed the table. -/
def Reply.tookEffect : Reply → Bool
  | .inserted (.ok _) | .removed (some _) | .swapped (.ok _) => true
  | .inserted (.error _) | .got _ | .removed none | .swapped (.error _) => false

def Call.isInsert : Call → Bool
  | .insert .. => true
  | .get _ | .remove _ | .cas .. => false

/-- A table that clients share, with the keys they have put into it. -/
structure Shared (bits : Fin 64) (β : Type) where
  table : HashTable bits
  arena : ArenaState β
  inserted : List Bytes

namespace Shared

variable {bits : Fin 64} {β : Type} (A : Arena β) (digest : Bytes → UInt64)

def start (bits : Fin 64) (arena : ArenaState β) : Shared bits β :=
  { table := .init bits, arena := arena, inserted := [] }

def observe (s : Shared bits β) (key : Bytes) : Option (Versioned Bytes) :=
  match s.table.findEntry s.arena.memory key (hashKey digest key) with
  | some (index, true) =>
    some ⟨(s.table.entries index).valueOf s.arena.memory, (s.table.entries index).version⟩
  | _ => none

def TookEffect (s : Shared bits β) (call : Call) : Prop :=
  (s.table.step A digest s.arena call).any fun r => r.1.tookEffect

instance (s : Shared bits β) (call : Call) : Decidable (s.TookEffect A digest call) :=
  inferInstanceAs (Decidable (_ = true))

/-- A call that does not return leaves the table. -/
def after (s : Shared bits β) (call : Call) : Shared bits β :=
  match s.table.step A digest s.arena call with
  | none => s
  | some (reply, table, arena) =>
    { table := table
      arena := arena
      inserted :=
        if call.isInsert && reply.tookEffect then call.key :: s.inserted else s.inserted }

/-- A client's compare-and-swap that succeeds finds what the client has observed, and no call took
effect on the key in between. -/
def OverwritesSeen (s : Shared bits β) (calls : List Call) : Prop :=
  ∀ (before between rest : List Call) (key newValue : Bytes) (x : Versioned Bytes),
    calls = before ++ between ++ .cas key x.version newValue :: rest →
    (before.foldl (after A digest) s).observe digest key = some x →
    ((before ++ between).foldl (after A digest) s).TookEffect A digest
      (.cas key x.version newValue) →
    MeetsAlong (after A digest)
      (fun s call => s.observe digest key = some x ∧
        (call.key = key → ¬s.TookEffect A digest call))
      (before.foldl (after A digest) s) between ∧
    ((before ++ between).foldl (after A digest) s).observe digest key = some x

/-- The arena has no block for a new entry and leaves the others alone. -/
def Refuses (s : Shared bits β) (size : Nat) : Prop :=
  (A.allocate s.arena size 8).1 = 0 ∧
    KeepsEntries (entriesOf (alone s.table)) (fun _ => False) s.arena.memory
      (A.allocate s.arena size 8).2.memory

instance (s : Shared bits β) (size : Nat) : Decidable (s.Refuses A size) :=
  inferInstanceAs (Decidable (_ ∧ _))

/-- An insert is of a key that was never there or of data that is too large, no compare-and-swap
goes on from version 0, where the versions have come round, and the arena serves the call. -/
def MovesOn (s : Shared bits β) : Call → Prop
  | .insert key value =>
    (2 ^ 32 ≤ key.length ∨ 2 ^ 32 ≤ value.length) ∨
      key ∉ s.inserted ∧ key.length + value.length < 2 ^ 32 ∧
        (Serves A digest (fun _ => ()) (alone s.table) s.arena (.insert key value) ∨
          s.Refuses A (key.length + value.length))
  | .get _ => True
  | .remove key => Serves A digest (fun _ => ()) (alone s.table) s.arena (.remove key)
  | .cas key expectedVersion newValue =>
    (s.observe digest key).map Versioned.version = some expectedVersion →
      expectedVersion ≠ 0 ∧ key.length + newValue.length < 2 ^ 32 ∧
        Serves A digest (fun _ => ()) (alone s.table) s.arena
          (.cas key expectedVersion newValue)

instance MovesOn.decidable (s : Shared bits β) :
    (call : Call) → Decidable (s.MovesOn A digest call)
  | .insert .. => inferInstanceAs (Decidable (_ ∨ _ ∧ _))
  | .get _ => .isTrue trivial
  | .remove key => inferInstanceAs
      (Decidable (Serves A digest (fun _ => ()) (alone s.table) s.arena (.remove key)))
  | .cas .. => inferInstanceAs (Decidable (_ → _ ∧ _ ∧ _))

/-! ## What the map holds is what the clients observe -/

variable {A digest} {s : Shared bits β} {map : VersionedMap Bytes Bytes} {key value : Bytes}

theorem lookup_of_none (h : Represents digest s.table s.arena.memory map)
    (hfind : s.table.findEntry s.arena.memory key (hashKey digest key) = none) :
    map[key]? = none := by
  refine h.lookup_none fun j hfull => ?_
  obtain ⟨d, hd, _⟩ := h.chained.reached hfull
  have hnone := findEntryFrom_eq_none h (s := ()) hfind (d + 1)
  rw [findEntryFrom_eq h, Option.map_eq_none_iff, Probing.search_eq_none_iff] at hnone
  have hstop := (Probing.stops_eq_false.mp (hnone d (Nat.lt_succ_self d))).2
  exact hstop (hd ▸ hfull)

theorem observe_eq (h : Represents digest s.table s.arena.memory map) (key : Bytes) :
    s.observe digest key = map[key]? := by
  rw [observe]
  split
  next index hfind => exact (lookup_of_match h hfind).2.symm
  next hfind =>
    cases hfound : s.table.findEntry s.arena.memory key (hashKey digest key) with
    | none => exact (lookup_of_none h hfound).symm
    | some found =>
      obtain ⟨index, isMatch⟩ := found
      cases isMatch with
      | true => exact (hfind index hfound).elim
      | false => exact (lookup_of_vacant h hfound).symm

/-- A table whose live entries read the same in another memory. -/
theorem represents_congr {memory memory' : Memory UInt8} {table : HashTable bits}
    (h : Represents digest table memory map)
    (hkeeps : KeepsEntries (entriesOf (alone table)) (fun _ => False) memory memory') :
    Represents digest table memory' map := by
  have hkeep (i : Unit × Fin (2 ^ bits.val)) (hlive : (entriesOf (alone table) i).Live) :=
    hkeeps i not_false hlive
  have hslots : (fun i => (entriesOf (alone table) i).slot memory') =
      fun i => (entriesOf (alone table) i).slot memory :=
    funext fun i => Entry.slot_congr (hkeep i)
  refine ⟨?_, fun {i key} hfull => ?_, h.fits, h.apart, fun {key current} => ?_⟩
  · rw [hslots]
    exact h.chained
  · rw [Entry.slot_congr (hkeep i)] at hfull
    exact h.hashed hfull
  · rw [h.stored]
    exact exists_congr fun i => (Entry.stores_congr (hkeep i)).symm

/-! ## Steps -/

/-- What a call that takes effect does to what its key holds. -/
inductive Moved (neverInserted : Prop) :
    Option (Versioned Bytes) → Option (Versioned Bytes) → Prop
  | inserted (value : Bytes) : neverInserted → Moved neverInserted none (some ⟨value, 1⟩)
  | swapped {current : Versioned Bytes} (value : Bytes) : current.version ≠ 0 →
      Moved neverInserted (some current) (some ⟨value, current.version + 1⟩)
  | removed (current : Versioned Bytes) : Moved neverInserted (some current) none

/-- The table holds a map whose keys the clients have put there. -/
structure Inserts (digest : Bytes → UInt64) (s : Shared bits β)
    (map : VersionedMap Bytes Bytes) : Prop where
  represents : Represents digest s.table s.arena.memory map
  inserted (key : Bytes) : map[key]? ≠ none → key ∈ s.inserted

theorem inserts_start (bits : Fin 64) (arena : ArenaState β) :
    (start bits arena).Inserts digest ∅ where
  represents := Holds.init
  inserted _ h := (h Std.ExtTreeMap.getElem?_empty).elim

/-- The step leaves every key as it was, or moves its own key on. -/
structure StepTo (A : Arena β) (digest : Bytes → UInt64) (s : Shared bits β) (call : Call)
    (map map' : VersionedMap Bytes Bytes) : Prop where
  inserts : (s.after A digest call).Inserts digest map'
  grows : ∀ key ∈ s.inserted, key ∈ (s.after A digest call).inserted
  moves (key : Bytes) :
    (map'[key]? = map[key]? ∧ (call.key = key → ¬s.TookEffect A digest call)) ∨
      Moved (key ∉ s.inserted) map[key]? map'[key]?

theorem Inserts.stays (h : s.Inserts digest map) {call : Call}
    (hstays : s.table.step A digest s.arena call = none ∨ ∃ reply arena,
      s.table.step A digest s.arena call = some (reply, s.table, arena) ∧
        reply.tookEffect = false ∧ Represents digest s.table arena.memory map) :
    s.StepTo A digest call map map := by
  rcases hstays with hnone | ⟨reply, arena, hstep, heffect, hholds⟩
  · have hafter : s.after A digest call = s := by rw [after, hnone]
    refine ⟨?_, ?_, fun key => .inl ⟨rfl, fun _ => ?_⟩⟩
    · rw [hafter]
      exact h
    · rw [hafter]
      exact fun _ hkey => hkey
    · rw [TookEffect, hnone]
      exact nofun
  · have hafter : s.after A digest call = { s with arena := arena } := by
      rw [after, hstep]
      dsimp only
      rw [heffect, Bool.and_false]
      rfl
    refine ⟨?_, ?_, fun key => .inl ⟨rfl, fun _ => ?_⟩⟩
    · rw [hafter]
      exact ⟨hholds, h.inserted⟩
    · rw [hafter]
      exact fun _ hkey => hkey
    · rw [TookEffect, hstep, Option.any_some, heffect]
      exact nofun

theorem Inserts.goes (h : s.Inserts digest map) {call : Call} {reply : Reply}
    {table : HashTable bits} {arena : ArenaState β} {map' : VersionedMap Bytes Bytes}
    (hstep : s.table.step A digest s.arena call = some (reply, table, arena))
    (hholds : Represents digest table arena.memory map')
    (hothers : ∀ key, key ≠ call.key → map'[key]? = map[key]?)
    (hinserted : map'[call.key]? ≠ none → map[call.key]? ≠ none ∨
      call.isInsert && reply.tookEffect)
    (hmoved : Moved (call.key ∉ s.inserted) map[call.key]? map'[call.key]?) :
    s.StepTo A digest call map map' := by
  have hgrows : ∀ key ∈ s.inserted, key ∈ (s.after A digest call).inserted := by
    intro key hkey
    rw [after, hstep]
    dsimp only
    split
    next => exact List.mem_cons_of_mem _ hkey
    next => exact hkey
  refine ⟨⟨?_, fun key hkey => ?_⟩, hgrows, fun key => ?_⟩
  · rw [after, hstep]
    exact hholds
  · by_cases heq : key = call.key
    · rw [heq] at hkey ⊢
      rcases hinserted hkey with hold | hnew
      · exact hgrows _ (h.inserted _ hold)
      · rw [after, hstep]
        dsimp only
        rw [if_pos hnew]
        exact List.mem_cons_self
    · rw [hothers key heq] at hkey
      exact hgrows key (h.inserted key hkey)
  · by_cases heq : key = call.key
    · rw [heq]
      exact .inr hmoved
    · exact .inl ⟨hothers key heq, fun hkey => (heq hkey.symm).elim⟩

theorem getElem?_insert_of_ne {current : Versioned Bytes} {other : Bytes} (hne : other ≠ key) :
    (map.insert key current)[other]? = map[other]? := by
  rw [lookup_insert, if_neg hne.symm]

theorem Inserts.insert (h : s.Inserts digest map)
    (hmoves : s.MovesOn A digest (.insert key value)) :
    ∃ map', s.StepTo A digest (.insert key value) map map' := by
  rcases hmoves with hlarge | ⟨hnew, hshort, harena⟩
  · refine ⟨map, h.stays (.inr ⟨.inserted (.error .keyTooLarge), s.arena, ?_, rfl,
      h.represents⟩)⟩
    rw [step, HashTable.insert, if_pos hlarge]
    rfl
  · have hlookup : map[key]? = none := by
      by_contra hsome
      exact hnew (h.inserted key hsome)
    rcases harena with hserves | ⟨hrefused, hkeeps⟩
    · cases hinsert : s.table.insert A digest s.arena key value with
      | none =>
        refine ⟨map, h.stays (.inl ?_)⟩
        rw [step, hinsert]
        rfl
      | some r =>
        obtain ⟨result, table, arena⟩ := r
        rcases insert_spec h.represents hshort hserves hinsert with ⟨hresult, hholds⟩
        have hcontains : map.contains key = false := by
          rw [Std.ExtTreeMap.contains_eq_isSome_getElem?, hlookup]
          rfl
        rw [hcontains] at hresult
        rw [update_alone, VersionedMap.put_of_none hlookup] at hholds
        have hstep : s.table.step A digest s.arena (.insert key value) =
            some (.inserted result, table, arena) := by
          rw [step, hinsert]
          rfl
        refine ⟨_, h.goes hstep hholds (fun other hother => getElem?_insert_of_ne hother)
          (fun _ => .inr ?_) ?_⟩
        · rw [hresult]
          rfl
        · show Moved _ map[key]? (map.insert key _)[key]?
          rw [hlookup, Std.ExtTreeMap.getElem?_insert_self]
          exact .inserted value hnew
    · cases hfind : s.table.findEntry s.arena.memory key (hashKey digest key) with
      | none =>
        refine ⟨map, h.stays (.inl ?_)⟩
        rw [step, insert_of_none hshort hfind]
        rfl
      | some found =>
        obtain ⟨index, isMatch⟩ := found
        cases isMatch with
        | true =>
          have hmatch := (lookup_of_match h.represents hfind).2
          rw [hlookup] at hmatch
          cases hmatch
        | false =>
          refine ⟨map, h.stays (.inr ⟨.inserted (.error .outOfMemory), _, ?_, rfl,
            represents_congr h.represents hkeeps⟩)⟩
          have hinsert : s.table.insert A digest s.arena key value =
              some (.error .outOfMemory, s.table,
                (A.allocate s.arena (key.length + value.length) 8).2) := by
            rw [HashTable.insert, if_neg (by omega)]
            simp only [hfind, if_pos hrefused]
          rw [step, hinsert]
          rfl

theorem Inserts.remove (h : s.Inserts digest map)
    (hserves : Serves A digest (fun _ => ()) (alone s.table) s.arena (.remove key)) :
    ∃ map', s.StepTo A digest (.remove key) map map' := by
  cases hremove : s.table.remove A digest s.arena key with
  | none =>
    refine ⟨map, h.stays (.inl ?_)⟩
    rw [step, hremove]
    rfl
  | some r =>
    obtain ⟨size, table, arena⟩ := r
    have hstep : s.table.step A digest s.arena (.remove key) =
        some (.removed size, table, arena) := by
      rw [step, hremove]
      rfl
    rcases remove_spec h.represents hserves hremove with ⟨hsize, hholds⟩
    rw [update_alone] at hholds
    cases hlookup : map[key]? with
    | none =>
      have hfind : s.table.findEntry s.arena.memory key (hashKey digest key) ≠ none := by
        intro hnone
        rw [HashTable.remove, hnone] at hremove
        cases hremove
      obtain ⟨⟨index, isMatch⟩, hfind⟩ := Option.ne_none_iff_exists'.mp hfind
      cases isMatch with
      | true =>
        have hmatch := (lookup_of_match h.represents hfind).2
        rw [hlookup] at hmatch
        cases hmatch
      | false =>
        rw [remove_of_vacant hfind] at hremove
        cases hremove
        exact ⟨map, h.stays (.inr ⟨_, _, hstep, rfl, h.represents⟩)⟩
    | some current =>
      refine ⟨_, h.goes hstep hholds (fun other hother => ?_) (fun hkey => ?_) ?_⟩
      · rw [lookup_erase]
        exact if_neg (Ne.symm hother)
      · exact (hkey Std.ExtTreeMap.getElem?_erase_self).elim
      · show Moved _ map[key]? (map.erase key)[key]?
        rw [hlookup, Std.ExtTreeMap.getElem?_erase_self]
        exact .removed current

theorem Inserts.cas_refused (h : s.Inserts digest map) (A : Arena β) (value : Bytes)
    {expectedVersion : UInt64} (hfinds : map[key]?.map Versioned.version ≠ some expectedVersion) :
    s.table.step A digest s.arena (.cas key expectedVersion value) = none ∨
      ∃ e, s.table.step A digest s.arena (.cas key expectedVersion value) =
        some (.swapped (.error e), s.table, s.arena) := by
  rw [step]
  cases hfind : s.table.findEntry s.arena.memory key (hashKey digest key) with
  | none =>
    rw [HashTable.cas, hfind]
    exact .inl rfl
  | some found =>
    obtain ⟨index, isMatch⟩ := found
    cases isMatch with
    | false =>
      rw [cas_of_vacant hfind]
      exact .inr ⟨_, rfl⟩
    | true =>
      rw [(lookup_of_match h.represents hfind).2] at hfinds
      have hne : (s.table.entries index).version ≠ expectedVersion :=
        fun heq => hfinds (congrArg some heq)
      rw [cas_of_ne hfind hne]
      exact .inr ⟨_, rfl⟩

theorem Inserts.cas (h : s.Inserts digest map) {expectedVersion : UInt64}
    (hmoves : s.MovesOn A digest (.cas key expectedVersion value)) :
    ∃ map', s.StepTo A digest (.cas key expectedVersion value) map map' := by
  rw [MovesOn, observe_eq h.represents] at hmoves
  by_cases hfinds : map[key]?.map Versioned.version = some expectedVersion
  · rcases hmoves hfinds with ⟨hnonzero, hshort, hserves⟩
    obtain ⟨current, hlookup, hversion⟩ := Option.map_eq_some_iff.mp hfinds
    cases hcas : s.table.cas A digest s.arena key expectedVersion value with
    | none =>
      refine ⟨map, h.stays (.inl ?_)⟩
      rw [step, hcas]
      rfl
    | some r =>
      obtain ⟨result, table, arena⟩ := r
      rcases cas_spec h.represents hshort hserves hcas with ⟨_, hholds⟩
      rw [update_alone, VersionedMap.cas_of_eq hlookup hversion] at hholds
      have hstep : s.table.step A digest s.arena (.cas key expectedVersion value) =
          some (.swapped result, table, arena) := by
        rw [step, hcas]
        rfl
      refine ⟨_, h.goes hstep hholds (fun other hother => getElem?_insert_of_ne hother)
        (fun _ => .inl ?_) ?_⟩
      · show map[key]? ≠ none
        rw [hlookup]
        exact Option.some_ne_none current
      · show Moved _ map[key]? (map.insert key _)[key]?
        rw [hlookup, Std.ExtTreeMap.getElem?_insert_self]
        exact .swapped value (hversion ▸ hnonzero)
  · rcases h.cas_refused A value hfinds with hnone | ⟨e, hstep⟩
    · exact ⟨map, h.stays (.inl hnone)⟩
    · exact ⟨map, h.stays (.inr ⟨_, _, hstep, rfl, h.represents⟩)⟩

theorem Inserts.step (h : s.Inserts digest map) {call : Call} (hmoves : s.MovesOn A digest call) :
    ∃ map', s.StepTo A digest call map map' := by
  cases call with
  | insert key value => exact h.insert hmoves
  | remove key => exact h.remove hmoves
  | cas key expectedVersion newValue => exact h.cas hmoves
  | get key =>
    refine ⟨map, h.stays ?_⟩
    rw [HashTable.step]
    cases s.table.get digest s.arena key with
    | none => exact .inl rfl
    | some value => exact .inr ⟨_, _, rfl, rfl, h.represents⟩

/-! ## Runs -/

/-- How many versions a key has gone through since it was inserted. -/
def rank (version : UInt64) : Nat := (version - 1).toNat

theorem rank_lt_rank_succ {version : UInt64} (h : version ≠ 0) :
    rank version < rank (version + 1) := by
  have hone : (1 : UInt64) ≤ version := by
    rw [UInt64.le_iff_toNat_le]
    exact Nat.pos_of_ne_zero fun hzero => h (UInt64.toNat_inj.mp hzero)
  rw [rank, rank, UInt64.add_sub_cancel, UInt64.toNat_sub_of_le _ _ hone]
  have hpos := UInt64.le_iff_toNat_le.mp hone
  exact Nat.sub_lt hpos Nat.one_pos

/-- A key whose version has been passed: whatever it holds from now on has a later one. -/
def Passed (s : Shared bits β) (map : VersionedMap Bytes Bytes) (key : Bytes)
    (version : UInt64) : Prop :=
  key ∈ s.inserted ∧ ∀ current, map[key]? = some current → rank version < rank current.version

theorem Passed.step {map' : VersionedMap Bytes Bytes} {call : Call} {version : UInt64}
    (h : s.Passed map key version) (hstep : s.StepTo A digest call map map') :
    (s.after A digest call).Passed map' key version := by
  refine ⟨hstep.grows key h.1, fun current hcurrent => ?_⟩
  rcases hstep.moves key with ⟨hsame, _⟩ | hmoved
  · exact h.2 current (hsame ▸ hcurrent)
  · rw [hcurrent] at hmoved
    generalize hold : map[key]? = old at hmoved
    cases hmoved with
    | inserted _ hnew => exact (hnew h.1).elim
    | swapped _ hnonzero => exact (h.2 _ hold).trans (rank_lt_rank_succ hnonzero)

theorem Inserts.passed (h : s.Inserts digest map) {map' : VersionedMap Bytes Bytes} {call : Call}
    {x : Versioned Bytes} (hx : map[key]? = some x) (hstep : s.StepTo A digest call map map') :
    (map'[key]? = some x ∧ (call.key = key → ¬s.TookEffect A digest call)) ∨
      (s.after A digest call).Passed map' key x.version := by
  rcases hstep.moves key with ⟨hsame, heffect⟩ | hmoved
  · exact .inl ⟨hsame.trans hx, heffect⟩
  · refine .inr ⟨hstep.grows key (h.inserted key ?_), fun current hcurrent => ?_⟩
    · rw [hx]
      exact Option.some_ne_none x
    · rw [hcurrent, hx] at hmoved
      cases hmoved with
      | swapped _ hnonzero => exact rank_lt_rank_succ hnonzero

/-- A compare-and-swap that takes effect has found the version it expects. -/
theorem Inserts.finds (h : s.Inserts digest map) {expectedVersion : UInt64}
    (heffect : s.TookEffect A digest (.cas key expectedVersion value)) :
    map[key]?.map Versioned.version = some expectedVersion := by
  by_contra hfinds
  rw [TookEffect] at heffect
  rcases h.cas_refused A value hfinds with hnone | ⟨e, hstep⟩
  · rw [hnone] at heffect
    cases heffect
  · rw [hstep] at heffect
    cases heffect

variable {calls : List Call}

theorem Passed.run {version : UInt64} (h : s.Inserts digest map)
    (hpassed : s.Passed map key version)
    (hmoves : MeetsAlong (after A digest) (MovesOn A digest) s calls) :
    ∃ map', (calls.foldl (after A digest) s).Inserts digest map' ∧
      (calls.foldl (after A digest) s).Passed map' key version := by
  induction calls generalizing s map with
  | nil => exact ⟨map, h, hpassed⟩
  | cons call calls ih =>
    obtain ⟨map', hstep⟩ := h.step hmoves.1
    exact ih hstep.inserts (hpassed.step hstep) hmoves.2

theorem Inserts.run {x : Versioned Bytes} (h : s.Inserts digest map) (hx : map[key]? = some x)
    (hmoves : MeetsAlong (after A digest) (MovesOn A digest) s calls) :
    (MeetsAlong (after A digest)
        (fun s call => s.observe digest key = some x ∧
          (call.key = key → ¬s.TookEffect A digest call)) s calls ∧
      (calls.foldl (after A digest) s).observe digest key = some x) ∨
    ∃ map', (calls.foldl (after A digest) s).Inserts digest map' ∧
      (calls.foldl (after A digest) s).Passed map' key x.version := by
  induction calls generalizing s map with
  | nil =>
    refine .inl ⟨trivial, ?_⟩
    exact (observe_eq h.represents key).trans hx
  | cons call calls ih =>
    obtain ⟨map', hstep⟩ := h.step hmoves.1
    rcases h.passed hx hstep with ⟨hx', heffect⟩ | hpassed
    · refine (ih hstep.inserts hx' hmoves.2).imp_left fun ⟨hrest, hlast⟩ => ?_
      exact ⟨⟨⟨(observe_eq h.represents key).trans hx, heffect⟩, hrest⟩, hlast⟩
    · have hrun := Passed.run hstep.inserts hpassed hmoves.2
      exact .inr hrun

/-- Where every insert is of a key that was never there, a compare-and-swap overwrites only what its
client has seen. -/
theorem overwritesSeen_of_movesOn (A : Arena β) (digest : Bytes → UInt64) (arena : ArenaState β)
    (calls : List Call)
    (hmoves : MeetsAlong (after A digest) (MovesOn A digest) (start bits arena) calls) :
    (start bits arena).OverwritesSeen A digest calls := by
  intro before between rest key newValue x hcalls hobserved heffect
  rw [hcalls, List.append_assoc, meetsAlong_append, meetsAlong_append] at hmoves
  rcases hmoves with ⟨hbefore, hbetween, _⟩
  have hinserts {s : Shared bits β} {call : Call} (hs : ∃ map, s.Inserts digest map)
      (hcall : s.MovesOn A digest call) : ∃ map, (s.after A digest call).Inserts digest map := by
    obtain ⟨map, hmap⟩ := hs
    obtain ⟨map', hstep⟩ := hmap.step hcall
    exact ⟨map', hstep.inserts⟩
  obtain ⟨map, hmap⟩ := hbefore.invariant hinserts ⟨∅, inserts_start bits arena⟩
  rw [observe_eq hmap.represents] at hobserved
  rw [List.foldl_append] at heffect ⊢
  apply (hmap.run hobserved hbetween).resolve_right
  rintro ⟨map', hmap', hpassed⟩
  obtain ⟨current, hcurrent, hversion⟩ := Option.map_eq_some_iff.mp (hmap'.finds heffect)
  have hlt := hpassed.2 current hcurrent
  rw [hversion] at hlt
  exact Nat.lt_irrefl _ hlt

/-- Two clients that swap one key, and a key that goes. -/
theorem overwritesSeen_two_clients :
    (start 2 (SharedArena.init 4096)).OverwritesSeen SharedArena.arena fnv1a
      [.insert [1] [2], .cas [1] 1 [3], .cas [1] 1 [4], .insert [5] [6], .remove [5],
        .cas [1] 2 [7]] :=
  overwritesSeen_of_movesOn _ _ _ _ (by decide +kernel)

/-- An insert over a key, and one after a remove, leave the version that another client has seen. -/
theorem unseen_overwritten :
    ¬(start 2 (SharedArena.init 4096)).OverwritesSeen SharedArena.arena fnv1a
        [.insert [1] [2], .insert [1] [9], .cas [1] 1 [3]] ∧
      ¬(start 2 (SharedArena.init 4096)).OverwritesSeen SharedArena.arena fnv1a
        [.insert [1] [2], .remove [1], .insert [1] [9], .cas [1] 1 [3]] := by
  refine ⟨fun h => ?_, fun h => ?_⟩
  · have ⟨⟨⟨_, heffect⟩, _⟩, _⟩ := h [.insert [1] [2]] [.insert [1] [9]] [] [1] [3] ⟨[2], 1⟩ rfl
      (by decide +kernel) (by decide +kernel)
    exact heffect rfl (by decide +kernel)
  · have ⟨⟨⟨_, heffect⟩, _⟩, _⟩ := h [.insert [1] [2]] [.remove [1], .insert [1] [9]] [] [1] [3]
      ⟨[2], 1⟩ rfl (by decide +kernel) (by decide +kernel)
    exact heffect rfl (by decide +kernel)

end Shared

end HashTable

end VedDb
