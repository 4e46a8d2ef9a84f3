import VedDb.Kv.ArenaBlocks
import VedDb.Kv.Counters
import VedDb.Kv.Present

/-!
# The statistics of the key-value store

The counters against the entries that are present, and these against the keys of a map.  A `set`
counts a key and its bytes whether or not it overwrites, and a `cas` counts nothing.
-/

namespace VedDb

open LittleEndian (Bytes)
open SharedArena (Header)

/-! ## The counters and the entries -/

structure KvShard.Exact (shard : KvShard capacityBits) : Prop where
  entries : shard.entryCount.toNat = shard.hashTable.entriesPresent
  memory : shard.memoryUsed.toNat = shard.hashTable.bytesPresent

namespace CountedStore

variable {shardBits capacityBits : Fin 64}

def entriesPresent (store : CountedStore shardBits capacityBits) : Nat :=
  ∑ i, (store.shards i).hashTable.entriesPresent

theorem entriesPresent_le (store : CountedStore shardBits capacityBits) (key : Bytes) :
    (store.getShard key).hashTable.entriesPresent ≤ store.entriesPresent :=
  Finset.single_le_sum (f := fun i => (store.shards i).hashTable.entriesPresent)
    (fun _ _ => Nat.zero_le _) (Finset.mem_univ (KvStore.shardIndex shardBits key))

structure Exact (store : CountedStore shardBits capacityBits) : Prop where
  shards : ∀ i, (store.shards i).Exact
  keys : store.totalKeys.toNat = store.entriesPresent

def Sized (store : CountedStore shardBits capacityBits) : Prop :=
  ∀ i, (store.shards i).hashTable.size.toNat = (store.shards i).hashTable.entriesPresent

end CountedStore

namespace CountedKv

variable {shardBits capacityBits : Fin 64}

/-- Where `find_entry` ends in the shard of a key. -/
def find (s : CountedKv shardBits capacityBits) (key : Bytes) :
    Option (Fin (2 ^ capacityBits.val) × Bool) :=
  (s.kvStore.getShard key).hashTable.findEntry s.arena.memory key (hashKey fnv1a key)

def entryAt (s : CountedKv shardBits capacityBits) (key : Bytes)
    (index : Fin (2 ^ capacityBits.val)) : Entry := (s.kvStore.getShard key).hashTable.entries index

/-- The operations that keep the counters: a `set` does not overwrite, and the counters have room
for a new key and its bytes; what a `delete` removes has a size of 32 bits; a `cas` stores a value
of the length of the old one. -/
def Countable (s : CountedKv shardBits capacityBits) : KvOperation → Prop
  | .set key value =>
    key.length < 2 ^ 32 → value.length < 2 ^ 32 → ∀ found ∈ s.find key,
      if found.2 then
        (HashTable.resize SharedArena.arena s.arena (s.entryAt key found.1)
          (key.length + value.length)).1 = none
      else
        (SharedArena.allocate s.arena (key.length + value.length) 8).1 = 0 ∨
          s.kvStore.totalKeys.toNat + 1 < 2 ^ 64 ∧
            (s.kvStore.getShard key).memoryUsed.toNat + (key.length + value.length) < 2 ^ 64
  | .get _ => True
  | .delete key =>
    ∀ found ∈ s.find key, found.2 = true → (s.entryAt key found.1).dataSize < 2 ^ 32
  | .cas key expectedVersion newValue =>
    ∀ found ∈ s.find key, found.2 = true →
      (s.entryAt key found.1).version = expectedVersion →
        (HashTable.resize SharedArena.arena s.arena (s.entryAt key found.1)
          ((s.entryAt key found.1).keyLen.toNat + newValue.length)).1 ≠ none →
            newValue.length % 2 ^ 32 = (s.entryAt key found.1).valLen.toNat

instance (s : CountedKv shardBits capacityBits) : (op : KvOperation) → Decidable (s.Countable op)
  | .set .. => inferInstanceAs (Decidable (_ → _ → ∀ _ ∈ _, _))
  | .get _ => .isTrue trivial
  | .delete _ => inferInstanceAs (Decidable (∀ _ ∈ _, _))
  | .cas .. => inferInstanceAs (Decidable (∀ _ ∈ _, _))

/-- Nothing is taken off a counter that is smaller. -/
def NoUnderflow (s : CountedKv shardBits capacityBits) : KvOperation → Prop
  | .delete key =>
    ∀ found ∈ s.find key, found.2 = true →
      1 ≤ (s.kvStore.getShard key).hashTable.size.toNat ∧
        1 ≤ (s.kvStore.getShard key).entryCount.toNat ∧
        (s.entryAt key found.1).dataSize % 2 ^ 32 ≤
          (s.kvStore.getShard key).memoryUsed.toNat ∧
        1 ≤ s.kvStore.totalKeys.toNat
  | _ => True

/-! ### One operation -/

section

variable {s : CountedKv shardBits capacityBits} {key value : Bytes}

theorem exact_setShard_iff {store store' : CountedStore shardBits capacityBits} (h : store.Exact)
    {shard : KvShard capacityBits}
    (hshards : store'.shards =
      Function.update store.shards (KvStore.shardIndex shardBits key) shard) :
    store'.Exact ↔ shard.Exact ∧
      store'.totalKeys.toNat + (store.getShard key).hashTable.entriesPresent =
        store.totalKeys.toNat + shard.hashTable.entriesPresent := by
  have hkeys := h.keys
  have hsum := sum_update_add (fun shard : KvShard capacityBits => shard.hashTable.entriesPresent)
    store.shards (KvStore.shardIndex shardBits key) shard
  rw [← hshards] at hsum
  change store'.entriesPresent + (store.getShard key).hashTable.entriesPresent =
    store.entriesPresent + shard.hashTable.entriesPresent at hsum
  constructor
  · intro h'
    have hshard := h'.shards (KvStore.shardIndex shardBits key)
    rw [hshards, Function.update_self] at hshard
    have hkeys' := h'.keys
    exact ⟨hshard, by omega⟩
  · intro ⟨hshard, htotal⟩
    refine ⟨?_, by omega⟩
    intro i
    rw [hshards, Function.update_apply]
    split
    · exact hshard
    · exact h.shards i

theorem exact_counted_iff {shard : KvShard capacityBits} {hashTable : HashTable capacityBits}
    (h : shard.Exact) (hentries : hashTable.entriesPresent = shard.hashTable.entriesPresent) :
    (shard.counted hashTable).Exact ↔
      hashTable.bytesPresent = shard.hashTable.bytesPresent := by
  have hmemory := h.memory
  constructor
  · intro h'
    exact h'.memory.symm.trans hmemory
  · intro hbytes
    exact ⟨h.entries.trans hentries.symm, hmemory.trans hbytes.symm⟩

theorem exact_setShard_counted (h : s.kvStore.Exact) :
    (s.kvStore.setShard key
      ((s.kvStore.getShard key).counted (s.kvStore.getShard key).hashTable)).Exact := by
  have hshard := h.shards (KvStore.shardIndex shardBits key)
  rw [exact_setShard_iff h rfl]
  exact ⟨(exact_counted_iff hshard rfl).mpr rfl, rfl⟩

theorem after_set_error {e : KvError} {hashTable : HashTable capacityBits}
    {arena : ArenaState Header}
    (hinsert : (s.kvStore.getShard key).hashTable.insert SharedArena.arena fnv1a s.arena key value =
      some (.error e, hashTable, arena)) :
    (s.after (.set key value)).kvStore =
      s.kvStore.setShard key ((s.kvStore.getShard key).counted hashTable) := by
  simp only [after, CountedStore.set, KvShard.set, hinsert]
  rfl

theorem after_set_ok {wasNew : Bool} {hashTable : HashTable capacityBits}
    {arena : ArenaState Header}
    (hinsert : (s.kvStore.getShard key).hashTable.insert SharedArena.arena fnv1a s.arena key value =
      some (.ok wasNew, hashTable, arena)) :
    (s.after (.set key value)).kvStore =
      { s.kvStore.setShard key
          { (s.kvStore.getShard key).counted hashTable with
            entryCount := (s.kvStore.getShard key).entryCount + if wasNew then 1 else 0
            memoryUsed :=
              (s.kvStore.getShard key).memoryUsed + UInt64.ofNat (key.length + value.length) } with
        totalKeys := s.kvStore.totalKeys + 1 } := by
  simp only [after, CountedStore.set, KvShard.set, hinsert]
  cases wasNew with
  | true => rfl
  | false =>
    rw [if_neg Bool.false_ne_true, UInt64.add_zero]
    rfl

theorem exact_set_iff (h : s.kvStore.Exact) :
    (s.after (.set key value)).kvStore.Exact ↔ s.Countable (.set key value) := by
  have hshard := h.shards (KvStore.shardIndex shardBits key)
  change (s.kvStore.getShard key).Exact at hshard
  cases hinsert : (s.kvStore.getShard key).hashTable.insert SharedArena.arena fnv1a s.arena key
      value with
  | none =>
    have hafter : s.after (.set key value) = s := by
      simp only [after, CountedStore.set, KvShard.set, hinsert]
      rfl
    have hfind : s.find key = none := HashTable.findEntry_of_insert_eq_none hinsert
    rw [hafter]
    refine iff_of_true h fun _ _ found hfound => ?_
    rw [hfind] at hfound
    cases hfound
  | some next =>
    obtain ⟨result, hashTable, arena⟩ := next
    cases HashTable.inserted hinsert with
    | tooLong hlong =>
      rw [after_set_error hinsert]
      refine iff_of_true (exact_setShard_counted h) fun hkey hvalue => ?_
      omega
    | noRoom index hfind hresize =>
      rw [after_set_error hinsert]
      refine iff_of_true (exact_setShard_counted h) fun _ _ found hfound => ?_
      obtain rfl := Option.some.inj (hfind.symm.trans hfound)
      exact hresize
    | noBlock index hfind hoffset =>
      rw [after_set_error hinsert]
      refine iff_of_true (exact_setShard_counted h) fun _ _ found hfound => ?_
      obtain rfl := Option.some.inj (hfind.symm.trans hfound)
      exact .inl hoffset
    | overwrote _ index hshort hfind hresize hentries =>
      rw [after_set_ok hinsert, exact_setShard_iff h rfl]
      refine iff_of_false ?_ ?_
      · -- the key was there, and is counted again
        rintro ⟨-, htotal⟩
        change _ = _ + hashTable.entriesPresent at htotal
        rw [hentries] at htotal
        exact toNat_add_one_ne s.kvStore.totalKeys (Nat.add_right_cancel htotal)
      · intro hcountable
        exact hresize (hcountable hshort.1 hshort.2 _ hfind)
    | added _ index hshort hfind hoffset hentries hbytes =>
      have hlimit := hashTable.entriesPresent_le
      have hcapacity : 2 ^ capacityBits.val ≤ 2 ^ 63 :=
        Nat.pow_le_pow_right (by decide) (Nat.le_of_lt_succ capacityBits.isLt)
      rw [after_set_ok hinsert, exact_setShard_iff h rfl]
      have hcounted : KvShard.Exact
          { (s.kvStore.getShard key).counted hashTable with
            entryCount := (s.kvStore.getShard key).entryCount + 1
            memoryUsed := (s.kvStore.getShard key).memoryUsed +
              UInt64.ofNat (key.length + value.length) } ↔
          (s.kvStore.getShard key).memoryUsed.toNat + (key.length + value.length) < 2 ^ 64 := by
        have hentryCount := hshard.entries
        have hmemoryUsed := hshard.memory
        constructor
        · rintro ⟨-, hmemory⟩
          change ((s.kvStore.getShard key).memoryUsed + _).toNat = hashTable.bytesPresent at hmemory
          rw [hbytes, ← hmemoryUsed] at hmemory
          rw [← hmemory]
          exact UInt64.toNat_lt _
        · intro hroom
          refine ⟨?_, ?_⟩
          · show _ = hashTable.entriesPresent
            rw [hentries, ← hentryCount]
            exact toNat_add_one (by omega)
          · show _ = hashTable.bytesPresent
            rw [hbytes, ← hmemoryUsed]
            exact toNat_add_ofNat hroom
      rw [if_pos rfl, hcounted]
      change _ ∧ (s.kvStore.totalKeys + 1).toNat +
          (s.kvStore.getShard key).hashTable.entriesPresent =
        s.kvStore.totalKeys.toNat + hashTable.entriesPresent ↔ _
      rw [hentries]
      constructor
      · rintro ⟨hmemory, htotal⟩ _ _ found hfound
        obtain rfl := Option.some.inj (hfind.symm.trans hfound)
        have hlt := (s.kvStore.totalKeys + 1).toNat_lt
        rw [if_neg Bool.false_ne_true]
        exact .inr ⟨by omega, hmemory⟩
      · intro hcountable
        obtain ⟨htotal, hmemory⟩ :=
          (hcountable hshort.1 hshort.2 _ hfind).resolve_left hoffset
        rw [toNat_add_one htotal]
        exact ⟨hmemory, by omega⟩

theorem after_delete {hashTable : HashTable capacityBits} {oldSize : Nat}
    {arena : ArenaState Header}
    (hremove : (s.kvStore.getShard key).hashTable.remove SharedArena.arena fnv1a s.arena key =
      some (some oldSize, hashTable, arena)) :
    (s.after (.delete key)).kvStore =
      { s.kvStore.setShard key
          { (s.kvStore.getShard key).counted hashTable with
            entryCount := (s.kvStore.getShard key).entryCount - 1
            memoryUsed := (s.kvStore.getShard key).memoryUsed - UInt64.ofNat oldSize } with
        totalKeys := s.kvStore.totalKeys - 1 } := by
  simp only [after, CountedStore.delete, KvShard.delete, hremove]
  rfl

theorem after_delete_none {hashTable : HashTable capacityBits} {arena : ArenaState Header}
    (hremove : (s.kvStore.getShard key).hashTable.remove SharedArena.arena fnv1a s.arena key =
      some (none, hashTable, arena)) :
    (s.after (.delete key)).kvStore =
      s.kvStore.setShard key ((s.kvStore.getShard key).counted hashTable) := by
  simp only [after, CountedStore.delete, KvShard.delete, hremove]
  rfl

theorem exact_delete_iff (h : s.kvStore.Exact) :
    (s.after (.delete key)).kvStore.Exact ↔ s.Countable (.delete key) := by
  have hshard := h.shards (KvStore.shardIndex shardBits key)
  change (s.kvStore.getShard key).Exact at hshard
  cases hremove : (s.kvStore.getShard key).hashTable.remove SharedArena.arena fnv1a s.arena key with
  | none =>
    have hafter : s.after (.delete key) = s := by
      simp only [after, CountedStore.delete, KvShard.delete, hremove]
      rfl
    have hfind : s.find key = none := HashTable.findEntry_of_remove_eq_none hremove
    rw [hafter]
    refine iff_of_true h fun found hfound => ?_
    rw [hfind] at hfound
    cases hfound
  | some next =>
    obtain ⟨result, hashTable, arena⟩ := next
    cases HashTable.removed hremove with
    | nothing hfind =>
      rw [after_delete_none hremove]
      refine iff_of_true (exact_setShard_counted h) ?_
      rintro ⟨index, isMatch⟩ hfound hmatch
      dsimp only at hmatch
      subst hmatch
      exact absurd hfound (hfind index)
    | entry _ index hfind hentries hbytes =>
      have hentryCount := hshard.entries
      have hmemoryUsed := hshard.memory
      have hkeys := h.keys
      have hle := s.kvStore.entriesPresent_le key
      change _ + (s.entryAt key index).dataSize = _ at hbytes
      have hmod := Nat.mod_le (s.entryAt key index).dataSize (2 ^ 32)
      have hkeysLess : (s.kvStore.totalKeys - 1).toNat = s.kvStore.totalKeys.toNat - 1 :=
        toNat_sub_one (by omega)
      have hentriesLess : ((s.kvStore.getShard key).entryCount - 1).toNat =
          (s.kvStore.getShard key).entryCount.toNat - 1 := toNat_sub_one (by omega)
      have hbytesLess : ((s.kvStore.getShard key).memoryUsed -
            UInt64.ofNat ((s.entryAt key index).dataSize % 2 ^ 32)).toNat =
          (s.kvStore.getShard key).memoryUsed.toNat -
            (s.entryAt key index).dataSize % 2 ^ 32 := toNat_sub_ofNat (by omega)
      rw [after_delete hremove, exact_setShard_iff h rfl]
      change (KvShard.Exact _) ∧ (s.kvStore.totalKeys - 1).toNat + _ =
        _ + hashTable.entriesPresent ↔ _
      constructor
      · rintro ⟨hexact, -⟩ found hfound -
        obtain rfl := Option.some.inj (hfind.symm.trans hfound)
        have hmemory := hexact.memory
        change ((s.kvStore.getShard key).memoryUsed -
            UInt64.ofNat ((s.entryAt key index).dataSize % 2 ^ 32)).toNat =
          hashTable.bytesPresent at hmemory
        dsimp only
        omega
      · intro hcountable
        have hfits := hcountable _ hfind rfl
        dsimp only at hfits
        refine ⟨⟨?_, ?_⟩, by omega⟩
        · change ((s.kvStore.getShard key).entryCount - 1).toNat = hashTable.entriesPresent
          omega
        · change ((s.kvStore.getShard key).memoryUsed -
              UInt64.ofNat ((s.entryAt key index).dataSize % 2 ^ 32)).toNat =
            hashTable.bytesPresent
          omega

theorem after_cas {expectedVersion : UInt64} {hashTable : HashTable capacityBits}
    {result : Except KvError UInt64} {arena : ArenaState Header}
    (hcas : (s.kvStore.getShard key).hashTable.cas SharedArena.arena fnv1a s.arena key
      expectedVersion value = some (result, hashTable, arena)) :
    (s.after (.cas key expectedVersion value)).kvStore =
      s.kvStore.setShard key ((s.kvStore.getShard key).counted hashTable) := by
  simp only [after, CountedStore.cas, KvShard.cas, hcas]
  rfl

theorem exact_cas_iff {expectedVersion : UInt64} (h : s.kvStore.Exact) :
    (s.after (.cas key expectedVersion value)).kvStore.Exact ↔
      s.Countable (.cas key expectedVersion value) := by
  have hshard := h.shards (KvStore.shardIndex shardBits key)
  change (s.kvStore.getShard key).Exact at hshard
  cases hcas : (s.kvStore.getShard key).hashTable.cas SharedArena.arena fnv1a s.arena key
      expectedVersion value with
  | none =>
    have hafter : s.after (.cas key expectedVersion value) = s := by
      simp only [after, CountedStore.cas, KvShard.cas, hcas]
      rfl
    have hfind : s.find key = none := HashTable.findEntry_of_cas_eq_none hcas
    rw [hafter]
    refine iff_of_true h fun found hfound => ?_
    rw [hfind] at hfound
    cases hfound
  | some next =>
    obtain ⟨result, hashTable, arena⟩ := next
    rw [after_cas hcas]
    cases HashTable.swapped hcas with
    | nothing hnothing =>
      refine iff_of_true (exact_setShard_counted h) ?_
      rintro ⟨index, isMatch⟩ hfound hmatch hversion hresize
      dsimp only at hmatch
      subst hmatch
      exact absurd (hnothing index hfound hversion) hresize
    | stored _ index hfind hversion hresize hentries hbytes =>
      change _ + (s.entryAt key index).valLen.toNat = _ at hbytes
      rw [exact_setShard_iff h rfl, exact_counted_iff hshard hentries]
      constructor
      · rintro ⟨hsame, -⟩ found hfound - - -
        obtain rfl := Option.some.inj (hfind.symm.trans hfound)
        dsimp only
        omega
      · intro hcountable
        have hlength := hcountable _ hfind rfl hversion hresize
        dsimp only at hlength
        refine ⟨by omega, ?_⟩
        change _ = _ + hashTable.entriesPresent
        rw [hentries]
        rfl

theorem exact_get (h : s.kvStore.Exact) : (s.after (.get key)).kvStore.Exact := by
  cases hget : (s.kvStore.getShard key).hashTable.get fnv1a s.arena key with
  | none =>
    have hafter : s.after (.get key) = s := by
      simp only [after, CountedStore.get, KvShard.get, hget]
      rfl
    rw [hafter]
    exact h
  | some value =>
    have hafter : (s.after (.get key)).kvStore = s.kvStore.setShard key
        ((s.kvStore.getShard key).counted (s.kvStore.getShard key).hashTable) := by
      simp only [after, CountedStore.get, KvShard.get, hget]
      rfl
    rw [hafter]
    exact exact_setShard_counted h

theorem exact_after_iff (h : s.kvStore.Exact) (op : KvOperation) :
    (s.after op).kvStore.Exact ↔ s.Countable op := by
  cases op with
  | set key value => exact exact_set_iff h
  | get key => exact iff_of_true (exact_get h) trivial
  | delete key => exact exact_delete_iff h
  | cas key expectedVersion newValue => exact exact_cas_iff h

theorem sized_after (h : s.kvStore.Sized) (op : KvOperation) : (s.after op).kvStore.Sized := by
  have hshared := s.shared_after op
  cases hstep : (s.kvStore.getShard op.key).hashTable.step SharedArena.arena fnv1a s.arena
      op.call with
  | none =>
    rw [hstep] at hshared
    have htables : (s.after op).kvStore.tables = s.kvStore.tables :=
      congrArg SharedKv.kvStore hshared
    intro i
    change ((s.after op).kvStore.tables.shards i).size.toNat =
      ((s.after op).kvStore.tables.shards i).entriesPresent
    rw [htables]
    exact h i
  | some next =>
    obtain ⟨reply, hashTable, arena⟩ := next
    rw [hstep] at hshared
    have htables : (s.after op).kvStore.tables = s.kvStore.tables.setShard op.key hashTable :=
      congrArg SharedKv.kvStore hshared
    intro i
    change ((s.after op).kvStore.tables.shards i).size.toNat =
      ((s.after op).kvStore.tables.shards i).entriesPresent
    rw [htables, KvStore.setShard]
    dsimp only
    rw [Function.update_apply]
    split
    · exact HashTable.sized_step (h (KvStore.shardIndex shardBits op.key)) hstep
    · exact h i

theorem noUnderflow_of_exact (h : s.kvStore.Exact) (hsized : s.kvStore.Sized)
    (op : KvOperation) : s.NoUnderflow op := by
  cases op with
  | set key value => exact trivial
  | get key => exact trivial
  | cas key expectedVersion newValue => exact trivial
  | delete key =>
    rintro ⟨index, isMatch⟩ hfound hmatch
    dsimp only at hmatch
    subst hmatch
    have hshard := h.shards (KvStore.shardIndex shardBits key)
    change (s.kvStore.getShard key).Exact at hshard
    have hlive : (s.entryAt key index).Live := HashTable.live_of_findEntry hfound
    have hcount := HashTable.count_le_entriesPresent (s.kvStore.getShard key).hashTable index
    have hbytes := HashTable.bytes_le_bytesPresent (s.kvStore.getShard key).hashTable index
    have hstore := s.kvStore.entriesPresent_le key
    change (s.entryAt key index).count ≤ _ at hcount
    change (s.entryAt key index).bytes ≤ _ at hbytes
    rw [Entry.count_of_live hlive] at hcount
    rw [Entry.bytes_of_live hlive] at hbytes
    have hsize : (s.kvStore.getShard key).hashTable.size.toNat =
      (s.kvStore.getShard key).hashTable.entriesPresent := hsized _
    have hentries := hshard.entries
    have hmemory := hshard.memory
    have hkeys := h.keys
    have hmod := Nat.mod_le (s.entryAt key index).dataSize (2 ^ 32)
    dsimp only
    refine ⟨?_, ?_, ?_, ?_⟩
    · omega
    · omega
    · omega
    · omega

end

end CountedKv

/-! ## The keys of a map -/

theorem SharedArena.allocate_memory (arena : ArenaState Header) (size align : Nat) :
    (SharedArena.allocate arena size align).2.memory = arena.memory := by
  unfold SharedArena.allocate
  split
  · rfl
  · split
    next result hlist =>
      obtain ⟨c, -, -, -, rfl⟩ := SharedArena.Held.allocateFromFreeList_eq_some hlist
      rfl
    next =>
      unfold SharedArena.bumpAllocate
      dsimp only
      split
      · rfl
      · rfl

theorem sum_length_filter {α : Type} {n : Nat} (g : α → Fin n) (l : List α) :
    ∑ i, (l.filter fun a => g a = i).length = l.length := by
  induction l with
  | nil => exact Finset.sum_eq_zero fun _ _ => rfl
  | cons a l ih =>
    have hcons (i : Fin n) : ((a :: l).filter fun a => g a = i).length =
        (l.filter fun a => g a = i).length + if g a = i then 1 else 0 := by
      rw [List.filter_cons]
      simp only [decide_eq_true_eq]
      split
      · rfl
      · rfl
    simp only [hcons]
    rw [Finset.sum_add_distrib, ih, Finset.sum_ite_eq, if_pos (Finset.mem_univ _)]
    rfl

namespace CountedKv

variable {shardBits capacityBits : Fin 64}

/-- The operation is turned down: the data is too long, there is no block for a new key, or the
version is not the expected one. -/
def TurnedDown (s : CountedKv shardBits capacityBits) : KvOperation → Prop
  | .set key value =>
    (2 ^ 32 ≤ key.length ∨ 2 ^ 32 ≤ value.length) ∨
      (∃ index, s.find key = some (index, false)) ∧
        (SharedArena.allocate s.arena (key.length + value.length) 8).1 = 0
  | .get _ | .delete _ => False
  | .cas key expectedVersion _ =>
    ∀ index, s.find key = some (index, true) → (s.entryAt key index).version ≠ expectedVersion

/-- The data is short enough for an entry and the arena serves the operation. -/
def ArenaServes (s : CountedKv shardBits capacityBits) (op : KvOperation) : Prop :=
  op.call.Short ∧
    HashTable.Serves SharedArena.arena fnv1a (KvStore.shardIndex shardBits) s.kvStore.tables.shards
      s.arena op.call

instance (s : CountedKv shardBits capacityBits) (op : KvOperation) : Decidable (s.ArenaServes op) :=
  inferInstanceAs (Decidable (_ ∧ _))

def Served (s : CountedKv shardBits capacityBits) (op : KvOperation) : Prop :=
  s.TurnedDown op ∨ s.ArenaServes op

def Exact (s : CountedKv shardBits capacityBits) : Prop :=
  ∃ map, s.shared.Represents map ∧ s.kvStore.totalKeys.toNat = map.size ∧
    ∀ i, (s.kvStore.shards i).entryCount.toNat =
        (HashTable.keysIn (KvStore.shardIndex shardBits) map i).length ∧
      (s.kvStore.shards i).memoryUsed.toNat =
        ((HashTable.keysIn (KvStore.shardIndex shardBits) map i).map HashTable.lengths).sum

section

variable {s : CountedKv shardBits capacityBits} {map : VersionedMap Bytes Bytes}

theorem entriesPresent_eq_size (h : s.shared.Represents map) :
    s.kvStore.entriesPresent = map.size := by
  have htable (i : Fin (2 ^ shardBits.val)) : (s.kvStore.shards i).hashTable.entriesPresent =
      (HashTable.keysIn (KvStore.shardIndex shardBits) map i).length :=
    HashTable.entriesPresent_eq h i
  rw [CountedStore.entriesPresent, ← Std.ExtTreeMap.length_toList,
    ← sum_length_filter (fun entry => KvStore.shardIndex shardBits entry.1)]
  exact Finset.sum_congr rfl fun i _ => htable i

theorem exact_iff (h : s.shared.Represents map) : s.Exact ↔ s.kvStore.Exact := by
  constructor
  · rintro ⟨map', h', hkeys, hshards⟩
    refine ⟨fun i => ⟨?_, ?_⟩, ?_⟩
    · rw [(hshards i).1]
      exact (HashTable.entriesPresent_eq h' i).symm
    · rw [(hshards i).2]
      exact (HashTable.bytesPresent_eq h' i).symm
    · rw [hkeys, entriesPresent_eq_size h']
  · intro hexact
    refine ⟨map, h, ?_, fun i => ⟨?_, ?_⟩⟩
    · rw [hexact.keys, entriesPresent_eq_size h]
    · rw [(hexact.shards i).entries]
      exact HashTable.entriesPresent_eq h i
    · rw [(hexact.shards i).memory]
      exact HashTable.bytesPresent_eq h i

theorem unchanged_of_turnedDown {op : KvOperation} (hdown : s.TurnedDown op)
    {reply : HashTable.Reply} {hashTable : HashTable capacityBits} {arena : ArenaState Header}
    (hstep : (s.kvStore.getShard op.key).hashTable.step SharedArena.arena fnv1a s.arena op.call =
      some (reply, hashTable, arena)) :
    hashTable = (s.kvStore.getShard op.key).hashTable ∧ arena.memory = s.arena.memory := by
  cases op with
  | set key value =>
    simp only [KvOperation.call, KvOperation.key, HashTable.step, Option.bind_eq_bind,
      Option.bind_eq_some_iff, Option.pure_def, Option.some.injEq, Prod.exists,
      Prod.mk.injEq] at hstep
    obtain ⟨result, _, _, hinsert, -, rfl, rfl⟩ := hstep
    by_cases hlong : 2 ^ 32 ≤ key.length ∨ 2 ^ 32 ≤ value.length
    · rw [HashTable.insert, if_pos hlong] at hinsert
      cases hinsert
      exact ⟨rfl, rfl⟩
    · obtain ⟨⟨index, hfind⟩, hoffset⟩ := hdown.resolve_left hlong
      change (s.kvStore.getShard key).hashTable.findEntry s.arena.memory key _ = _ at hfind
      rw [HashTable.insert, if_neg hlong] at hinsert
      simp only [hfind] at hinsert
      change (if (SharedArena.allocate s.arena (key.length + value.length) 8).1 = 0 then _
        else _) = _ at hinsert
      rw [if_pos hoffset] at hinsert
      cases hinsert
      exact ⟨rfl, SharedArena.allocate_memory _ _ _⟩
  | get key => exact hdown.elim
  | delete key => exact hdown.elim
  | cas key expectedVersion newValue =>
    simp only [KvOperation.call, KvOperation.key, HashTable.step, Option.bind_eq_bind,
      Option.bind_eq_some_iff, Option.pure_def, Option.some.injEq, Prod.exists,
      Prod.mk.injEq] at hstep
    obtain ⟨result, _, _, hcas, -, rfl, rfl⟩ := hstep
    cases hfind : (s.kvStore.getShard key).hashTable.findEntry s.arena.memory key
        (hashKey fnv1a key) with
    | none =>
      rw [HashTable.cas, hfind] at hcas
      cases hcas
    | some found =>
      obtain ⟨index, isMatch⟩ := found
      cases isMatch with
      | false =>
        rw [HashTable.cas_of_vacant hfind] at hcas
        cases hcas
        exact ⟨rfl, rfl⟩
      | true =>
        rw [HashTable.cas_of_ne hfind (hdown index hfind)] at hcas
        cases hcas
        exact ⟨rfl, rfl⟩

theorem represents_after {op : KvOperation} (h : s.shared.Represents map) (hserved : s.Served op) :
    ∃ map', (s.after op).shared.Represents map' := by
  have hkey : op.call.key = op.key := by cases op <;> rfl
  rw [shared_after]
  cases hstep : (s.kvStore.getShard op.key).hashTable.step SharedArena.arena fnv1a s.arena
      op.call with
  | none => exact ⟨map, h⟩
  | some next =>
    obtain ⟨reply, hashTable, arena⟩ := next
    rcases hserved with hdown | ⟨hshort, hserves⟩
    · obtain ⟨rfl, hmemory⟩ := unchanged_of_turnedDown hdown hstep
      refine ⟨map, ?_⟩
      change HashTable.TablesHold _ _
        (s.kvStore.tables.setShard op.key (s.kvStore.tables.getShard op.key)).shards
        arena.memory map
      rw [KvStore.setShard_getShard, hmemory]
      exact h
    · rw [← hkey] at hstep ⊢
      exact ⟨_, (HashTable.step_spec h hshort hserves hstep).2⟩

end

/-! ## Runs -/

/-- The counters are exact after every operation of a run, and none goes below zero. -/
def StatisticsExact (start : CountedKv shardBits capacityBits) (ops : List KvOperation) : Prop :=
  (∀ n, ((ops.take n).foldl after start).Exact) ∧ MeetsAlong after NoUnderflow start ops

theorem exact_create (shardBits capacityBits : Fin 64) (arenaSize : UInt64) :
    (create shardBits capacityBits arenaSize).kvStore.Exact := by
  refine ⟨fun i => ⟨?_, ?_⟩, ?_⟩
  · exact HashTable.entriesPresent_init.symm
  · exact HashTable.bytesPresent_init.symm
  · exact (Finset.sum_eq_zero fun _ _ => HashTable.entriesPresent_init).symm

theorem sized_create (shardBits capacityBits : Fin 64) (arenaSize : UInt64) :
    (create shardBits capacityBits arenaSize).kvStore.Sized :=
  fun _ => HashTable.entriesPresent_init.symm

/-- Whatever the arena does, the counters are those of the entries exactly when every operation is
one they follow. -/
theorem countersExact_iff (arenaSize : UInt64) (ops : List KvOperation) :
    (∀ n, ((ops.take n).foldl after (create shardBits capacityBits arenaSize)).kvStore.Exact) ↔
      MeetsAlong after Countable (create shardBits capacityBits arenaSize) ops :=
  forall_take_iff_meetsAlong (fun s : CountedKv shardBits capacityBits => s.kvStore.Exact)
    (fun _ => True) (fun _ _ => trivial) (fun _ h => exact_after_iff h _) trivial
    (exact_create shardBits capacityBits arenaSize)

theorem noUnderflow_along {arenaSize : UInt64} {ops : List KvOperation}
    (h : MeetsAlong after Countable (create shardBits capacityBits arenaSize) ops) :
    MeetsAlong after NoUnderflow (create shardBits capacityBits arenaSize) ops :=
  h.imp (I := fun s : CountedKv shardBits capacityBits => s.kvStore.Exact ∧ s.kvStore.Sized)
    (fun hI hP => ⟨(exact_after_iff hI.1 _).mpr hP, sized_after hI.2 _⟩)
    (fun hI _ => noUnderflow_of_exact hI.1 hI.2 _)
    ⟨exact_create shardBits capacityBits arenaSize, sized_create shardBits capacityBits arenaSize⟩

/-- A key that is set, swapped, not swapped, deleted and set again, beside another one. -/
def countedSession : List KvOperation :=
  [.set [107] [118], .set [108] [1, 2], .cas [107] 1 [119], .cas [107] 1 [1, 2, 3], .delete [107],
    .delete [107], .set [107] [1, 2, 3]]

end CountedKv

end VedDb
