import Mathlib.Data.UInt
import VedDb.Kv.ArenaBlocks
import VedDb.PubSub.System

/-!
# The layout of the shared memory

`VedDb::init_new` of `core.rs` with the sizes of `kv/mod.rs`, `kv/shard.rs` and `session.rs`: where
the header, the arena, the key-value store and the session registry are put.  Sizes and offsets are
words of 64 bits that wrap; `Sound` compares them with the numbers they stand for.
-/

namespace VedDb

/-! ## Sizes -/

/-- `mem::size_of` of a `repr(C)` structure with fields of these sizes, each aligned to its size,
which 8 is a multiple of. -/
def sizeOfFields (fields : List Nat) : Nat :=
  alignUp (fields.foldl (fun offset size => alignUp offset (min size 8) + size) 0) 8

/-- `mem::size_of::<VedDbHeader>()`; the configuration in it is twelve words. -/
def vedDbHeaderSize : UInt64 :=
  UInt64.ofNat (sizeOfFields ([8, 4, 4, 8, 8, 8, 8] ++ List.replicate 6 8 ++ [12 * 8] ++ [8, 8]))

/-- `mem::size_of::<Entry>()` of the hash table. -/
def entrySize : UInt64 := UInt64.ofNat (sizeOfFields [8, 8, 4, 4, 8])

/-- `mem::size_of::<HashTable>()`. -/
def hashTableSize : UInt64 := UInt64.ofNat (sizeOfFields [8, 8, 8, 8])

/-- `mem::size_of::<KvShard>()`: the lock, of one word, and three counters. -/
def kvShardSize : UInt64 := UInt64.ofNat (sizeOfFields [8, 8, 8, 8])

/-- `mem::size_of::<KvStore>()`. -/
def kvStoreSize : UInt64 := UInt64.ofNat (sizeOfFields [8, 8, 8, 8])

/-- `mem::size_of::<SessionRegistry>()`. -/
def sessionRegistrySize : UInt64 := UInt64.ofNat (sizeOfFields [8, 8, 8])

/-- `mem::size_of::<SessionDesc>()`, with the eventfd of Linux. -/
def sessionDescSize : UInt64 := UInt64.ofNat (sizeOfFields [8, 4, 8, 8, 8, 4, 4, 4, 8])

example :
    (vedDbHeaderSize, entrySize, sessionRegistrySize, sessionDescSize) = (208, 32, 24, 64) := by
  decide

structure KvConfig where
  numShards : UInt64
  initialCapacityPerShard : UInt64
  maxKeySize : UInt64
  maxValueSize : UInt64

structure VedDbConfig where
  memorySize : UInt64
  kvConfig : KvConfig
  pubsubConfig : PubSubConfig
  maxSessions : UInt64
  sessionRingCapacity : UInt64
  sessionTimeoutSecs : UInt64

def KvConfig.default : KvConfig where
  numShards := 16
  initialCapacityPerShard := 1024
  maxKeySize := 1024
  maxValueSize := 1024 * 1024

def VedDbConfig.default : VedDbConfig where
  memorySize := 64 * 1024 * 1024
  kvConfig := .default
  pubsubConfig := .default
  maxSessions := 1000
  sessionRingCapacity := 1024
  sessionTimeoutSecs := 300

def isPowerOfTwo (n : UInt64) : Bool := n != 0 && n &&& (n - 1) == 0

/-- `KvShard::size_for_capacity`, which asserts that the capacity is a power of two. -/
def shardSizeForCapacity (capacity : UInt64) : UInt64 :=
  kvShardSize + (hashTableSize + capacity * entrySize)

def KvConfig.sizeForConfig (config : KvConfig) : UInt64 :=
  kvStoreSize + config.numShards * shardSizeForCapacity config.initialCapacityPerShard

def sizeForMaxSessions (maxSessions : UInt64) : UInt64 :=
  sessionRegistrySize + maxSessions * sessionDescSize

/-! ## Creation -/

/-- The offsets and sizes that `init_new` writes to the header. -/
structure VedDbLayout where
  arenaOffset : UInt64
  arenaSize : UInt64
  kvStoreOffset : UInt64
  kvStoreSize : UInt64
  sessionRegistryOffset : UInt64
  sessionRegistrySize : UInt64
deriving DecidableEq

namespace VedDbLayout

/-- The offsets of `init_new`. -/
def ofConfig (config : VedDbConfig) : VedDbLayout :=
  let arenaOffset := (vedDbHeaderSize + 63) &&& ~~~63
  let arenaSize := config.memorySize / 2
  let kvStoreOffset := arenaOffset + arenaSize
  let kvStoreSize := config.kvConfig.sizeForConfig
  { arenaOffset := arenaOffset
    arenaSize := arenaSize
    kvStoreOffset := kvStoreOffset
    kvStoreSize := kvStoreSize
    sessionRegistryOffset := kvStoreOffset + kvStoreSize
    sessionRegistrySize := sizeForMaxSessions config.maxSessions }

/-- `VedDb::create`, over `SharedMemory::create`: nothing where an assertion fails. -/
def create (createMemory : UInt64 → Except String Unit) (config : VedDbConfig) :
    Option (Except String VedDbLayout) :=
  match createMemory config.memorySize with
  | .error error => some (.error error)
  | .ok () =>
    if isPowerOfTwo config.kvConfig.numShards &&
        isPowerOfTwo config.kvConfig.initialCapacityPerShard then
      some (.ok (ofConfig config))
    else none

variable (layout : VedDbLayout)

/-- Where `KvStore::init` puts a shard. -/
def initShardPtr (capacity : UInt64) : Nat → UInt64
  | 0 => layout.kvStoreOffset + VedDb.kvStoreSize
  | i + 1 => initShardPtr capacity i + shardSizeForCapacity capacity

/-- `shard_ptr`: where the store looks for a shard. -/
def shardPtr (index : UInt64) : UInt64 :=
  layout.kvStoreOffset + (VedDb.kvStoreSize + index * shardSizeForCapacity 1024)

/-! ## Soundness -/

def regions : List Block :=
  [{ offset := 0, length := vedDbHeaderSize.toNat },
    { offset := layout.arenaOffset.toNat, length := layout.arenaSize.toNat },
    { offset := layout.kvStoreOffset.toNat, length := layout.kvStoreSize.toNat },
    { offset := layout.sessionRegistryOffset.toNat, length := layout.sessionRegistrySize.toNat }]

def shard (capacity : UInt64) (i : Nat) : Block :=
  { offset := (layout.initShardPtr capacity i).toNat
    length := (shardSizeForCapacity capacity).toNat }

def shardBytes (config : VedDbConfig) : Nat :=
  64 + config.kvConfig.initialCapacityPerShard.toNat * 32

def kvBytes (config : VedDbConfig) : Nat := 32 + config.kvConfig.numShards.toNat * shardBytes config

def sessionBytes (config : VedDbConfig) : Nat := 24 + config.maxSessions.toNat * 64

/-- No sum or product has wrapped. -/
structure Exact (config : VedDbConfig) : Prop where
  arenaOffset : layout.arenaOffset.toNat = alignUp vedDbHeaderSize.toNat 64
  kvStoreOffset : layout.kvStoreOffset.toNat = layout.arenaOffset.toNat + layout.arenaSize.toNat
  shardSize :
    (shardSizeForCapacity config.kvConfig.initialCapacityPerShard).toNat = shardBytes config
  kvStoreSize : layout.kvStoreSize.toNat = kvBytes config
  sessionRegistryOffset : layout.sessionRegistryOffset.toNat =
    layout.kvStoreOffset.toNat + layout.kvStoreSize.toNat
  sessionRegistrySize : layout.sessionRegistrySize.toNat = sessionBytes config

structure Sound (config : VedDbConfig) : Prop where
  exact : layout.Exact config
  apart : layout.regions.Pairwise Block.Apart
  within : ∀ region ∈ layout.regions, region.offset + region.length ≤ config.memorySize.toNat
  arenaHeader : SharedArena.headerSize.toNat ≤ layout.arenaSize.toNat
  shardsWithin : ∀ i < config.kvConfig.numShards.toNat,
    let shard := layout.shard config.kvConfig.initialCapacityPerShard i
    layout.kvStoreOffset.toNat + VedDb.kvStoreSize.toNat ≤ shard.offset ∧
      shard.offset + shard.length ≤ layout.kvStoreOffset.toNat + layout.kvStoreSize.toNat
  shardsApart : ∀ i < config.kvConfig.numShards.toNat, ∀ j < i,
    (layout.shard config.kvConfig.initialCapacityPerShard j).Apart
      (layout.shard config.kvConfig.initialCapacityPerShard i)
  located : ∀ index < config.kvConfig.numShards,
    layout.shardPtr index =
      layout.initShardPtr config.kvConfig.initialCapacityPerShard index.toNat

/-- The regions fit into the memory one after another, and there is one shard only or the shards
have the capacity that `shard_ptr` takes them to have. -/
def Fits (config : VedDbConfig) : Prop :=
  256 + config.memorySize.toNat / 2 + kvBytes config + sessionBytes config ≤
      config.memorySize.toNat ∧
    (config.kvConfig.numShards = 1 ∨ config.kvConfig.initialCapacityPerShard = 1024)

instance (config : VedDbConfig) : Decidable (Fits config) := inferInstanceAs (Decidable (_ ∧ _))

variable {layout} {config : VedDbConfig} {capacity : UInt64}

/-! ## What fits does not wrap -/

theorem toNat_shardSizeForCapacity (h : 64 + capacity.toNat * 32 < 2 ^ 64) :
    (shardSizeForCapacity capacity).toNat = 64 + capacity.toNat * 32 := by
  rw [shardSizeForCapacity, UInt64.toNat_add, UInt64.toNat_add, UInt64.toNat_mul]
  show (32 + (32 + capacity.toNat * 32 % 2 ^ 64) % 2 ^ 64) % 2 ^ 64 = _
  omega

theorem toNat_sizeForConfig (h : kvBytes config < 2 ^ 64)
    (hshard : (shardSizeForCapacity config.kvConfig.initialCapacityPerShard).toNat =
      shardBytes config) : config.kvConfig.sizeForConfig.toNat = kvBytes config := by
  rw [KvConfig.sizeForConfig, UInt64.toNat_add, UInt64.toNat_mul, hshard]
  rw [kvBytes] at h ⊢
  show (32 + config.kvConfig.numShards.toNat * shardBytes config % 2 ^ 64) % 2 ^ 64 = _
  omega

theorem toNat_sizeForMaxSessions (h : sessionBytes config < 2 ^ 64) :
    (sizeForMaxSessions config.maxSessions).toNat = sessionBytes config := by
  rw [sizeForMaxSessions, UInt64.toNat_add, UInt64.toNat_mul]
  rw [sessionBytes] at h ⊢
  show (24 + config.maxSessions.toNat * 64 % 2 ^ 64) % 2 ^ 64 = _
  omega

theorem one_le_of_isPowerOfTwo {n : UInt64} (h : isPowerOfTwo n = true) : 1 ≤ n.toNat := by
  rw [isPowerOfTwo, Bool.and_eq_true, bne_iff_ne] at h
  have hne : n.toNat ≠ 0 := fun hzero => h.1 (UInt64.toNat_inj.mp hzero)
  omega

theorem shardBytes_le (h : 1 ≤ config.kvConfig.numShards.toNat) :
    shardBytes config ≤ kvBytes config := by
  have hle : shardBytes config ≤ config.kvConfig.numShards.toNat * shardBytes config :=
    Nat.le_mul_of_pos_left _ h
  rw [kvBytes]
  omega

theorem exact_of_fits (hshards : 1 ≤ config.kvConfig.numShards.toNat) (h : Fits config) :
    (ofConfig config).Exact config := by
  have hsum := h.1
  have hmemory := config.memorySize.toNat_lt
  have hshard := shardBytes_le hshards
  have hshardSize : (shardSizeForCapacity config.kvConfig.initialCapacityPerShard).toNat =
      shardBytes config := by
    apply toNat_shardSizeForCapacity
    show shardBytes config < 2 ^ 64
    omega
  have hkv : config.kvConfig.sizeForConfig.toNat = kvBytes config :=
    toNat_sizeForConfig (by omega) hshardSize
  have hsessions : (sizeForMaxSessions config.maxSessions).toNat = sessionBytes config :=
    toNat_sizeForMaxSessions (by omega)
  have harena : (config.memorySize / 2).toNat = config.memorySize.toNat / 2 := UInt64.toNat_div _ _
  have hoffset : ((vedDbHeaderSize + 63) &&& ~~~63).toNat = 256 := by decide
  have hstore : (ofConfig config).kvStoreOffset.toNat = 256 + config.memorySize.toNat / 2 := by
    show (((vedDbHeaderSize + 63) &&& ~~~63) + config.memorySize / 2).toNat = _
    rw [UInt64.toNat_add, hoffset, harena]
    omega
  exact
    { arenaOffset := hoffset
      kvStoreOffset := by
        rw [hstore]
        show _ = ((vedDbHeaderSize + 63) &&& ~~~63).toNat + (config.memorySize / 2).toNat
        rw [hoffset, harena]
      shardSize := hshardSize
      kvStoreSize := hkv
      sessionRegistryOffset := by
        show ((ofConfig config).kvStoreOffset + config.kvConfig.sizeForConfig).toNat = _
        rw [UInt64.toNat_add, hstore, hkv]
        show _ = 256 + config.memorySize.toNat / 2 + config.kvConfig.sizeForConfig.toNat
        rw [hkv]
        omega
      sessionRegistrySize := hsessions }

/-! ## Shards -/

/-- Shards lie one after another. -/
theorem toNat_initShardPtr (hexact : layout.Exact config)
    (hstore : layout.kvStoreOffset.toNat + layout.kvStoreSize.toNat < 2 ^ 64) {i : Nat}
    (hi : i ≤ config.kvConfig.numShards.toNat) :
    (layout.initShardPtr config.kvConfig.initialCapacityPerShard i).toNat =
      layout.kvStoreOffset.toNat + 32 + i * shardBytes config := by
  have hle : i * shardBytes config ≤ config.kvConfig.numShards.toNat * shardBytes config :=
    Nat.mul_le_mul_right _ hi
  rw [hexact.kvStoreSize, kvBytes] at hstore
  induction i with
  | zero =>
    rw [initShardPtr, UInt64.toNat_add]
    show (layout.kvStoreOffset.toNat + 32) % 2 ^ 64 = _
    omega
  | succ i ih =>
    rw [Nat.succ_mul] at hle ⊢
    rw [initShardPtr, UInt64.toNat_add, ih (by omega) (by omega), hexact.shardSize]
    omega

theorem toNat_shardPtr (hexact : layout.Exact config)
    (hstore : layout.kvStoreOffset.toNat + layout.kvStoreSize.toNat < 2 ^ 64) {index : UInt64}
    (hi : index < config.kvConfig.numShards)
    (hcapacity : config.kvConfig.numShards = 1 ∨ config.kvConfig.initialCapacityPerShard = 1024) :
    (layout.shardPtr index).toNat =
      layout.kvStoreOffset.toNat + 32 + index.toNat * shardBytes config := by
  have hi' : index.toNat < config.kvConfig.numShards.toNat := hi
  have hle : index.toNat * shardBytes config ≤
      config.kvConfig.numShards.toNat * shardBytes config :=
    Nat.mul_le_mul_right _ hi'.le
  rw [hexact.kvStoreSize, kvBytes] at hstore
  rw [shardPtr, UInt64.toNat_add, UInt64.toNat_add, UInt64.toNat_mul]
  have hsize : index.toNat * (shardSizeForCapacity 1024).toNat =
      index.toNat * shardBytes config := by
    cases hcapacity with
    | inl hone =>
      rw [hone] at hi'
      have hzero : index.toNat = 0 := Nat.lt_one_iff.mp hi'
      rw [hzero, Nat.zero_mul, Nat.zero_mul]
    | inr hcapacity => rw [← hexact.shardSize, hcapacity]
  rw [hsize]
  show (layout.kvStoreOffset.toNat + (32 + index.toNat * shardBytes config % 2 ^ 64) % 2 ^ 64) %
    2 ^ 64 = _
  omega

/-! ## What is sound fits -/

variable {createMemory : UInt64 → Except String Unit}

theorem create_eq_ok (h : create createMemory config = some (.ok layout)) :
    layout = ofConfig config ∧ 1 ≤ config.kvConfig.numShards.toNat := by
  rw [create] at h
  split at h
  · cases h
  · split at h
    next hpowers =>
      cases h
      rw [Bool.and_eq_true] at hpowers
      exact ⟨rfl, one_le_of_isPowerOfTwo hpowers.1⟩
    next => cases h

theorem capacity_of_located (hexact : layout.Exact config)
    (hstore : layout.kvStoreOffset.toNat + layout.kvStoreSize.toNat < 2 ^ 64)
    (hshards : 1 < config.kvConfig.numShards)
    (hlocated : layout.shardPtr 1 =
      layout.initShardPtr config.kvConfig.initialCapacityPerShard 1) :
    config.kvConfig.initialCapacityPerShard = 1024 := by
  have hone : (layout.shardPtr 1).toNat =
      (layout.kvStoreOffset.toNat + (32 + 1 * 32832 % 2 ^ 64) % 2 ^ 64) % 2 ^ 64 := by
    rw [shardPtr, UInt64.toNat_add, UInt64.toNat_add, UInt64.toNat_mul]
    rfl
  have hshards' : 1 < config.kvConfig.numShards.toNat := hshards
  have hle := shardBytes_le hshards'.le
  rw [hlocated, toNat_initShardPtr hexact hstore hshards'.le] at hone
  rw [hexact.kvStoreSize] at hstore
  rw [shardBytes] at hone hle
  apply UInt64.toNat_inj.mp
  show config.kvConfig.initialCapacityPerShard.toNat = 1024
  change layout.kvStoreOffset.toNat + 32 +
    1 * (64 + config.kvConfig.initialCapacityPerShard.toNat * 32) = _ at hone
  omega

theorem fits_of_sound (hshards : 1 ≤ config.kvConfig.numShards.toNat)
    (h : (ofConfig config).Sound config) : Fits config := by
  have hexact := h.exact
  have harena : (ofConfig config).arenaSize.toNat = config.memorySize.toNat / 2 :=
    UInt64.toNat_div _ _
  have hoffset : (ofConfig config).arenaOffset.toNat = 256 := by
    show ((vedDbHeaderSize + 63) &&& ~~~63).toNat = 256
    decide
  have hregistry : (ofConfig config).sessionRegistryOffset.toNat +
      (ofConfig config).sessionRegistrySize.toNat ≤ config.memorySize.toNat :=
    h.within _ (List.mem_of_getElem? (i := 3) rfl)
  have hmemory := config.memorySize.toNat_lt
  rw [hexact.sessionRegistryOffset, hexact.sessionRegistrySize] at hregistry
  have hstore : (ofConfig config).kvStoreOffset.toNat + (ofConfig config).kvStoreSize.toNat <
      2 ^ 64 := by omega
  constructor
  · rw [hexact.kvStoreOffset, hexact.kvStoreSize, hoffset, harena] at hregistry
    exact hregistry
  · by_cases hone : config.kvConfig.numShards = 1
    · exact .inl hone
    · have hlt : 1 < config.kvConfig.numShards := by
        have hne : config.kvConfig.numShards.toNat ≠ 1 := fun heq => hone (UInt64.toNat_inj.mp heq)
        show 1 < config.kvConfig.numShards.toNat
        omega
      exact .inr (capacity_of_located hexact hstore hlt (h.located 1 hlt))

theorem sound_of_fits (hshards : 1 ≤ config.kvConfig.numShards.toNat) (h : Fits config) :
    (ofConfig config).Sound config := by
  have hexact := exact_of_fits hshards h
  have harena : (ofConfig config).arenaSize.toNat = config.memorySize.toNat / 2 :=
    UInt64.toNat_div _ _
  have hoffset : (ofConfig config).arenaOffset.toNat = 256 := by
    show ((vedDbHeaderSize + 63) &&& ~~~63).toNat = 256
    decide
  have hstoreOffset := hexact.kvStoreOffset
  have hstoreSize := hexact.kvStoreSize
  have hregistryOffset := hexact.sessionRegistryOffset
  have hregistrySize := hexact.sessionRegistrySize
  have hsum := h.1
  have hmemory := config.memorySize.toNat_lt
  have hstore : (ofConfig config).kvStoreOffset.toNat + (ofConfig config).kvStoreSize.toNat <
      2 ^ 64 := by omega
  have hheader : vedDbHeaderSize.toNat = 208 := by decide
  have hkv : kvBytes config = 32 + config.kvConfig.numShards.toNat * shardBytes config := rfl
  have hstart {i : Nat} (hi : i < config.kvConfig.numShards.toNat) :
      ((ofConfig config).shard config.kvConfig.initialCapacityPerShard i).offset =
        (ofConfig config).kvStoreOffset.toNat + 32 + i * shardBytes config :=
    toNat_initShardPtr hexact hstore hi.le
  have hlength (i : Nat) :
      ((ofConfig config).shard config.kvConfig.initialCapacityPerShard i).length =
        shardBytes config := hexact.shardSize
  have hfollows {i j : Nat} (hij : i < j) :
      i * shardBytes config + shardBytes config ≤ j * shardBytes config := by
    rw [← Nat.succ_mul]
    exact Nat.mul_le_mul_right _ hij
  refine
    { exact := hexact
      apart := ?_
      within := ?_
      arenaHeader := ?_
      shardsWithin := ?_
      shardsApart := ?_
      located := ?_ }
  · simp only [regions, List.pairwise_cons, List.mem_cons, List.not_mem_nil, or_false,
      forall_eq_or_imp, forall_eq, Block.Apart, List.Pairwise.nil, IsEmpty.forall_iff,
      implies_true, and_true]
    omega
  · simp only [regions, List.mem_cons, List.not_mem_nil, or_false, forall_eq_or_imp, forall_eq]
    omega
  · show 152 ≤ (ofConfig config).arenaSize.toNat
    have hsession : 24 ≤ sessionBytes config := Nat.le_add_right _ _
    omega
  · intro i hi
    have hend := hfollows hi
    dsimp only
    rw [hstart hi, hlength, hstoreSize, hkv]
    show (ofConfig config).kvStoreOffset.toNat + 32 ≤ _ ∧ _
    omega
  · intro i hi j hj
    have hend := hfollows hj
    rw [Block.Apart, hstart hi, hstart (hj.trans hi), hlength, hlength]
    omega
  · intro index hindex
    apply UInt64.toNat_inj.mp
    have hindex' : index.toNat ≤ config.kvConfig.numShards.toNat := Nat.le_of_lt hindex
    rw [toNat_shardPtr hexact hstore hindex h.2, toNat_initShardPtr hexact hstore hindex']

/-- The layout is sound exactly when the regions fit and the store looks for the shards where they
are. -/
theorem sound_iff_fits (h : create createMemory config = some (.ok layout)) :
    layout.Sound config ↔ Fits config := by
  have ⟨hlayout, hshards⟩ := create_eq_ok h
  rw [hlayout]
  exact ⟨fits_of_sound hshards, sound_of_fits hshards⟩

/-- Memory of any size that a file can have. -/
def anyMemory (size : UInt64) : Except String Unit :=
  if size < 2 ^ 63 then .ok () else .error "Failed to set memfd size"

/-- The default configuration fits. -/
theorem sound_iff_fits_default :
    create anyMemory .default = some (.ok (ofConfig .default)) ∧
      ((ofConfig .default).Sound .default ↔ Fits .default) ∧ Fits .default :=
  have h : create anyMemory .default = some (.ok (ofConfig .default)) := by
    decide +kernel
  ⟨h, sound_iff_fits h, by decide +kernel⟩

/-- The default configuration with shards of twice the capacity. -/
def wideShards : VedDbConfig :=
  { VedDbConfig.default with
    kvConfig := { KvConfig.default with initialCapacityPerShard := 2048 } }

/-- Its second shard is not where the store looks for it. -/
theorem wide_shards_misplaced :
    create anyMemory wideShards = some (.ok (ofConfig wideShards)) ∧
      (ofConfig wideShards).shardPtr 1 ≠ (ofConfig wideShards).initShardPtr 2048 1 ∧
      ¬(ofConfig wideShards).Sound wideShards := by
  have hne : (ofConfig wideShards).shardPtr 1 ≠ (ofConfig wideShards).initShardPtr 2048 1 := by
    decide +kernel
  refine ⟨by decide +kernel, hne, fun h => hne ?_⟩
  exact h.located 1 (by decide +kernel)

end VedDbLayout

end VedDb
